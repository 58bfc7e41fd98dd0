import Mathlib

/-!
# Inspection of an install plan

`inspect_install_plan` reads the output of a simulated installation line by line: documented
lines and package lists, one summary, then the actions. What it returns is the additions and
the number of packages that are not upgraded.
-/

namespace HccastWired.Packaging

abbrev Text := List Char

theorem lawfulBEq_text : LawfulBEq Text := inferInstance

attribute [local instance] lawfulBEq_text

def maxTextBytes : Nat := 256 * 1024
def maxLines : Nat := 8192
def maxLineBytes : Nat := 4096
def maxAdditions : Nat := 512
def maxInstalledPackages : Nat := 100000

section Patterns

def nameFirst (c : Char) : Bool := c.isLower || c.isDigit

def nameRest (c : Char) : Bool := nameFirst c || c = '+' || c = '.' || c = '-'

def archRest (c : Char) : Bool := nameFirst c || c = '-'

/-- `_NAME`. -/
def isName : Text → Bool
  | c :: d :: rest => nameFirst c && (d :: rest).all nameRest
  | _ => false

/-- `_ARCH`. -/
def isArch : Text → Bool
  | c :: rest => nameFirst c && rest.all archRest
  | [] => false

/-- `_PACKAGE.fullmatch`, with the groups `name` and `arch`. -/
def matchPackage (value : Text) : Option (Text × Option Text) :=
  match value.span (· ≠ ':') with
  | (name, []) => if isName name then some (name, none) else none
  | (name, _ :: arch) => if isName name && isArch arch then some (name, some arch) else none

def versionChar (c : Char) : Bool :=
  c.isAlphanum || c = '.' || c = '+' || c = '~' || c = '-'

def isUpstream : Text → Bool
  | c :: rest => c.isDigit && rest.all versionChar
  | [] => false

/-- `_VERSION.fullmatch`. -/
def isVersion (value : Text) : Bool :=
  match value.span (· ≠ ':') with
  | (version, []) => isUpstream version
  | (epoch, _ :: version) => epoch ≠ [] && epoch.all Char.isDigit && isUpstream version

inductive Verb
  | inst
  | conf
  deriving DecidableEq, Repr

def Verb.text : Verb → Text
  | inst => "Inst".toList
  | conf => "Conf".toList

/-- The groups of `_ACTION`. -/
structure Action where
  verb : Verb
  package : Text
  version : Text
  origin : Text
  arch : Text
  deriving DecidableEq, Repr

def originChar (c : Char) : Bool :=
  c.isAlphanum || c ∈ " .,:/+_~=%@!-".toList

def isOrigin : Text → Bool
  | c :: rest => c.isAlphanum && rest.all originChar
  | [] => false

def verbOf (word : Text) : Option Verb :=
  if word = Verb.inst.text then some .inst
  else if word = Verb.conf.text then some .conf
  else none

/-- `_ACTION.fullmatch`: none of the fields but the origin has a space, and it has no bracket. -/
def matchAction (line : Text) : Option Action :=
  match line.span (· ≠ ' ') with
  | (word, _ :: rest) =>
      match rest.span (· ≠ ' ') with
      | (package, ' ' :: '(' :: rest) =>
          match rest.span (· ≠ ' ') with
          | (version, _ :: rest) =>
              match rest.span (· ≠ '[') with
              | (origin, _ :: rest) =>
                  match rest.span (· ≠ ']') with
                  | (arch, [']', ')']) =>
                      if (matchPackage package).isSome ∧ version ≠ [] ∧
                          version.all (fun c => c ≠ '(' && c ≠ ')') ∧ origin.getLast? = some ' ' ∧
                          isOrigin origin.dropLast ∧ isArch arch then
                        (verbOf word).map fun verb => ⟨verb, package, version, origin.dropLast, arch⟩
                      else none
                  | _ => none
              | _ => none
          | _ => none
      | _ => none
  | _ => none

/-- The groups of `_SUMMARY`. -/
structure Summary where
  upgraded : Nat
  new : Nat
  removed : Nat
  held : Nat
  deriving DecidableEq, Repr

/-- `[0-9]{1,6}` before a text. -/
def takeCount (literal : Text) (line : Text) : Option (Nat × Text) :=
  let (digits, rest) := line.span Char.isDigit
  if digits ≠ [] ∧ digits.length ≤ 6 ∧ literal <+: rest then
    some (digits.foldl (fun n c => 10 * n + (c.toNat - '0'.toNat)) 0, rest.drop literal.length)
  else none

/-- `_SUMMARY.fullmatch`. -/
def matchSummary (line : Text) : Option Summary := do
  let (upgraded, line) ← takeCount " upgraded, ".toList line
  let (new, line) ← takeCount " newly installed, ".toList line
  let (removed, line) ← takeCount " to remove and ".toList line
  let (held, line) ← takeCount " not upgraded.".toList line
  if line = [] then some ⟨upgraded, new, removed, held⟩ else none

def selectionStart : Text := "Note, selecting 'panelbridge' instead of '".toList

/-- `_SELECTION.fullmatch`. -/
def isSelection (line : Text) : Bool :=
  selectionStart <+: line &&
    let quoted := line.drop selectionStart.length
    quoted.getLast? = some '\'' && quoted.dropLast ≠ [] && quoted.dropLast.all (· ≠ '\'')

end Patterns

section Lines

/-- The values of `_LIST_HEADERS`. -/
inductive ListKind
  | additional
  | new
  | kept
  | unused
  | suggested
  | recommended
  deriving DecidableEq, Repr

namespace ListKind

def all : List ListKind := [additional, new, kept, unused, suggested, recommended]

def header : ListKind → Text
  | additional => "The following additional packages will be installed:".toList
  | new => "The following NEW packages will be installed:".toList
  | kept => "The following packages have been kept back:".toList
  | unused =>
      "The following packages were automatically installed and are no longer required:".toList
  | suggested => "Suggested packages:".toList
  | recommended => "Recommended packages:".toList

end ListKind

/-- `_LIST_HEADERS.get(line)`. -/
def listHeader (line : Text) : Option ListKind :=
  ListKind.all.find? fun kind => line = kind.header

/-- `_INFORMATION`. -/
def information : List Text :=
  ["Reading package lists...".toList, "Reading package lists... Done".toList,
    "Building dependency tree...".toList, "Building dependency tree... Done".toList,
    "Reading state information...".toList, "Reading state information... Done".toList,
    "NOTE: This is only a simulation!".toList,
    "      apt-get needs root privileges for real execution.".toList,
    "      Keep also in mind that locking is deactivated,".toList,
    "      so don't depend on the relevance to the real current situation!".toList]

/-- `_AUTOREMOVE_NOTICES`. -/
def autoremoveNotices : List Text :=
  ["apt", "apt-get", "sudo apt", "sudo apt-get"].map fun command =>
    ("Use '" ++ command ++ " autoremove' to remove them.").toList

end Lines

/-- The message of an `AptPlanError`. -/
abbrev AptPlanError := String

structure PackageAddition where
  package : Text
  version : Text
  architecture : Text
  deriving DecidableEq, Repr

structure InstallPlan where
  additions : List PackageAddition
  notUpgraded : Nat
  deriving DecidableEq, Repr

def arm64 : Text := "arm64".toList

def allArchitectures : Text := "all".toList

def panelbridge : Text := "panelbridge".toList

section Checks

/-- `_valid_version`. -/
def validVersion (value : Text) : Bool :=
  1 ≤ value.length && value.length ≤ 256 && isVersion value && value.getLast? ≠ some '-'

/-- `_package`. -/
def package (value : Text) : Except AptPlanError (Text × Option Text) :=
  if 2 ≤ value.length ∧ value.length ≤ 256 then
    match matchPackage value with
    | some result => .ok result
    | none => .error "Invalid package name"
  else .error "Invalid package name"

/-- `_installed_names`, of a mapping as its items. -/
def installedNames (installedVersions : List (Text × Text)) : Except AptPlanError (Finset Text) :=
  if maxInstalledPackages < installedVersions.length then
    .error "Installed inventory must be a bounded package/version mapping"
  else
    installedVersions.foldlM (fun names item => do
      let (name, _) ← package item.1
      if validVersion item.2 then pure (insert name names)
      else .error "Invalid installed package version") ∅

end Checks

/-- The variables of the loop. -/
structure State where
  summary : Option Summary
  lists : ListKind → Option (Finset Text)
  currentList : Option ListKind
  installs : List PackageAddition
  origins : List (Text × Text)
  configured : Finset Text
  seenInformation : Finset Text

def State.initial : State where
  summary := none
  lists := fun _ => none
  currentList := none
  installs := []
  origins := []
  configured := ∅
  seenInformation := ∅

def atLine (message : String) (number : Nat) : AptPlanError :=
  message ++ " at line " ++ toString number

/-- What `seen_information` holds of a selection. -/
def selectionMark : Text := "selection".toList

section Loop

/-- `line.split()`, of a line whose only white space is the space. -/
def fields (line : Text) : List Text :=
  (line.splitOn ' ').filter (· ≠ [])

/-- The items of a line of a package list. -/
def listEntries (number : Nat) (names : Finset Text) (items : List Text) :
    Except AptPlanError (Finset Text) :=
  items.foldlM (fun names item => do
    let (name, arch) ← package item
    if (arch ≠ none ∧ arch ≠ some arm64 ∧ arch ≠ some allArchitectures) ∨ name ∈ names then
      .error (atLine "Invalid or duplicate list entry" number)
    else pure (insert name names)) names

def twoSpaces : Text := [' ', ' ']

/-- The kinds of lines that end a package list. -/
def plainLine (s : State) (number : Nat) (line : Text) : Except AptPlanError State :=
  match listHeader line with
  | some kind =>
      if (s.lists kind).isSome then .error (atLine "Duplicate package list" number)
      else .ok { s with currentList := some kind, lists := Function.update s.lists kind (some ∅) }
  | none =>
      if line ∈ autoremoveNotices ∧ (s.lists .unused).isSome then .ok s
      else if isSelection line then
        if selectionMark ∈ s.seenInformation then
          .error (atLine "Duplicate package selection" number)
        else .ok { s with seenInformation := insert selectionMark s.seenInformation }
      else
        match matchSummary line with
        | some summary =>
            if summary.upgraded ≠ 0 ∨ summary.removed ≠ 0 then .error "APT plans upgrades or removals"
            else if 1 ≤ summary.new ∧ summary.new ≤ maxAdditions then
              .ok { s with summary := some summary }
            else .error "APT addition count is outside first-install bounds"
        | none => .error (atLine "Unsupported APT output before summary" number)

/-- A line before the summary, which may be it. -/
def beforeSummary (s : State) (number : Nat) (line : Text) : Except AptPlanError State :=
  if line ∈ information then
    if line ∈ s.seenInformation then .error (atLine "Duplicate informational line" number)
    else .ok { s with seenInformation := insert line s.seenInformation }
  else
    match s.currentList with
    | some kind =>
        let names := (s.lists kind).getD ∅
        if twoSpaces <+: line then do
          let names ← listEntries number names (fields line)
          .ok { s with lists := Function.update s.lists kind (some names) }
        else if names = ∅ then .error ("Empty package list before line " ++ toString number)
        else plainLine { s with currentList := none } number line
    | none => plainLine s number line

/-- A line after the summary. -/
def afterSummary (expected : Text) (installed : Finset Text) (s : State) (number : Nat) (line : Text) :
    Except AptPlanError State :=
  match matchAction line with
  | none => .error (atLine "Unsupported APT action or diagnostic" number)
  | some action => do
      if action.origin.getLast? = some ' ' then .error (atLine "Malformed origin field" number)
      else
        let (name, suffix) ← package action.package
        let (version, arch) := (action.version, action.arch)
        if ¬ validVersion version ∨ (arch ≠ arm64 ∧ arch ≠ allArchitectures) then
          .error (atLine "Invalid version or architecture" number)
        else if suffix ≠ none ∧ suffix ≠ some arch then
          .error (atLine "Conflicting package architecture" number)
        else if name ∈ installed then
          .error (atLine "APT would change an installed package" number)
        else if name = panelbridge ∧ (version ≠ expected ∨ arch ≠ arm64) then
          .error "PanelBridge version or architecture does not match"
        else
          let addition : PackageAddition := ⟨name, version, arch⟩
          match action.verb with
          | .inst =>
              if name ∈ s.installs.map PackageAddition.package then
                .error (atLine "Duplicate or conflicting install action" number)
              else if maxAdditions ≤ s.installs.length then
                .error "APT plan exceeds addition bounds"
              else .ok { s with
                installs := s.installs ++ [addition]
                origins := s.origins ++ [(name, action.origin)] }
          | .conf =>
              if name ∈ s.configured ∨
                  s.installs.find? (fun a => a.package = name) ≠ some addition ∨
                  s.origins.lookup name ≠ some action.origin then
                .error (atLine "Missing, duplicate or conflicting install/configure pair" number)
              else .ok { s with configured := insert name s.configured }

/-- One turn of the loop over the lines. -/
def inspectLine (expected : Text) (installed : Finset Text) (s : State) (line : Text × Nat) :
    Except AptPlanError State :=
  if line.1 = [] then .ok s
  else
    match s.summary with
    | none => beforeSummary s line.2 line.1
    | some _ => afterSummary expected installed s line.2 line.1

/-- The checks after the loop. -/
def finish (s : State) : Except AptPlanError InstallPlan :=
  let names := (s.installs.map PackageAddition.package).toFinset
  match s.summary with
  | none => .error "APT plan has no complete first-install summary for PanelBridge"
  | some summary =>
      if panelbridge ∉ names then
        .error "APT plan has no complete first-install summary for PanelBridge"
      else if s.installs.length ≠ summary.new ∨ s.configured ≠ names then
        .error "APT summary and complete install/configure actions do not match"
      else if s.lists .new ≠ none ∧ s.lists .new ≠ some names then
        .error "APT NEW package list does not match actions"
      else if s.lists .additional ≠ none ∧ s.lists .additional ≠ some (names.erase panelbridge) then
        .error "APT additional package list does not match actions"
      else if (s.lists .kept).getD ∅ ∩ names ≠ ∅ ∨ summary.held < ((s.lists .kept).getD ∅).card then
        .error "APT kept-back package list conflicts with the plan"
      else if (s.lists .unused).getD ∅ ∩ names ≠ ∅ then
        .error "APT unused package list conflicts with new additions"
      else .ok ⟨s.installs, summary.held⟩

end Loop

/-- Bounded ASCII text without control bytes other than the ends of lines. -/
def boundedText (text : Text) : Bool :=
  text.length ≤ maxTextBytes &&
    text.all fun c => c.toNat < 128 && (32 ≤ c.toNat || c = '\n') && c.toNat ≠ 127

def inspectInstallPlan (text expectedVersion : Text) (installedVersions : List (Text × Text)) :
    Except AptPlanError InstallPlan :=
  if ¬ boundedText text then
    .error "APT output must be bounded ASCII text without control bytes"
  else
    let lines := text.splitOn '\n'
    if maxLines < lines.length ∨ lines.any fun line => maxLineBytes < line.length then
      .error "APT output exceeds line bounds"
    else if ¬ validVersion expectedVersion then
      .error "Invalid expected PanelBridge version"
    else do
      let installed ← installedNames installedVersions
      if panelbridge ∈ installed then
        .error "PanelBridge is already installed; first-install plans only"
      else
        let s ← (lines.zipIdx 1).foldlM (inspectLine expectedVersion installed) State.initial
        finish s

end HccastWired.Packaging
