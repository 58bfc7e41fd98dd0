import HccastWired.Packaging.AptPlan

/-!
# The grammar of an accepted plan

The lines before the summary are informational lines and blocks: a package list with its
header, a notice about unused packages, or the selection of the local package. The lines
after it are actions, each installation with its configuration.
-/

namespace HccastWired.Packaging

attribute [local instance] lawfulBEq_text

section Blocks

/-- The base name of a package, without its architecture. -/
def baseName (value : Text) : Text :=
  value.takeWhile (· ≠ ':')

/-- A package of a list: of no architecture, or of one that is accepted. -/
def ListItem (item : Text) : Prop :=
  ∃ arch, package item = .ok (baseName item, arch) ∧
    (arch = none ∨ arch = some arm64 ∨ arch = some allArchitectures)

inductive Block
  | list (kind : ListKind) (entries : List Text)
  | notice (line : Text)
  | selection (line : Text)

namespace Block

def lines : Block → List Text
  | list kind entries => kind.header :: entries
  | notice line => [line]
  | selection line => [line]

def kind : Block → Option ListKind
  | list kind _ => some kind
  | _ => none

/-- The packages of a list. -/
def names (entries : List Text) : List Text :=
  (entries.flatMap fields).map baseName

/-- The lines of a list are indented packages, none of them twice. -/
def Formed : Block → Prop
  | list _ entries => (∀ entry ∈ entries, twoSpaces <+: entry ∧ ∀ item ∈ fields entry, ListItem item) ∧
      (names entries).Nodup
  | notice line => line ∈ autoremoveNotices
  | selection line => isSelection line = true

/-- A list is not empty. -/
def Filled : Block → Prop
  | list _ entries => names entries ≠ []
  | _ => True

def isSelection : Block → Bool
  | selection _ => true
  | _ => false

def isNotice : Block → Bool
  | notice _ => true
  | _ => false

end Block

/-- The lines that belong to blocks. -/
def content (lines : List Text) : List Text :=
  lines.filter fun line => line ≠ [] ∧ line ∉ information

/-- The packages of the list of a kind, if there is one. -/
def listed (blocks : List Block) (kind : ListKind) : Option (Finset Text) :=
  blocks.findSome? fun block =>
    match block with
    | .list other entries => if other = kind then some (Block.names entries).toFinset else none
    | _ => none

/-- The blocks of the lines, in their order: no line of information and no list occurs twice,
the local package is selected once at most, and a notice follows the list of unused packages. -/
structure Blocks (lines : List Text) (blocks : List Block) : Prop where
  content : content lines = blocks.flatMap Block.lines
  informed : (lines.filter (· ∈ information)).Nodup
  formed : ∀ block ∈ blocks, block.Formed
  kinds : (blocks.filterMap Block.kind).Nodup
  selections : (blocks.filter Block.isSelection).length ≤ 1
  notices : ∀ before block after, blocks = before ++ block :: after → block.isNotice = true →
    ListKind.unused ∈ before.filterMap Block.kind

end Blocks

section Actions

namespace Action

def name (a : Action) : Text :=
  baseName a.package

/-- The two lines are about the same package, of one version, architecture and origin. -/
def Same (a b : Action) : Prop :=
  a.name = b.name ∧ a.version = b.version ∧ a.arch = b.arch ∧ a.origin = b.origin

def addition (a : Action) : PackageAddition :=
  ⟨a.name, a.version, a.arch⟩

/-- The action adds a package that is not installed, for an accepted architecture. -/
structure Valid (expected : Text) (installed : Finset Text) (a : Action) : Prop where
  package : ∃ suffix, Packaging.package a.package = .ok (a.name, suffix) ∧ (suffix = none ∨ suffix = some a.arch)
  origin : a.origin.getLast? ≠ some ' '
  version : validVersion a.version = true
  arch : a.arch = arm64 ∨ a.arch = allArchitectures
  added : a.name ∉ installed
  exact : a.name = panelbridge → a.version = expected ∧ a.arch = arm64

end Action

def installs (actions : List Action) : List Action :=
  actions.filter fun a => a.verb = .inst

def configures (actions : List Action) : List Action :=
  actions.filter fun a => a.verb = .conf

/-- Every package is installed once and configured once, after that. -/
structure Actions (expected : Text) (installed : Finset Text) (actions : List Action) : Prop where
  valid : ∀ a ∈ actions, a.Valid expected installed
  installed : ((installs actions).map Action.name).Nodup
  configured : ((configures actions).map Action.name).Nodup
  bounded : (installs actions).length ≤ maxAdditions
  earlier : ∀ before a after, actions = before ++ a :: after → a.verb = .conf →
    ∃ b ∈ before, b.verb = .inst ∧ b.Same a

/-- The lines are those of the actions, and empty lines. -/
def ActionLines (lines : List Text) (actions : List Action) : Prop :=
  (lines.filter (· ≠ [])).map matchAction = actions.map some

end Actions

/-- An accepted text: what stands before the summary, the summary, and the actions after it. -/
structure Reading where
  before : List Text
  line : Text
  summary : Summary
  after : List Text
  blocks : List Block
  actions : List Action

namespace Reading

/-- The packages that are added. -/
def names (r : Reading) : Finset Text :=
  ((installs r.actions).map Action.name).toFinset

def plan (r : Reading) : InstallPlan :=
  ⟨(installs r.actions).map Action.addition, r.summary.held⟩

/-- The lines make up a plan: nothing is upgraded or removed, the actions are complete, and the
package lists agree with them. -/
structure Accepted (expected : Text) (installed : Finset Text) (lines : List Text) (r : Reading) :
    Prop where
  lines : lines = r.before ++ r.line :: r.after
  summary : matchSummary r.line = some r.summary
  blocks : Blocks r.before r.blocks
  filled : ∀ block ∈ r.blocks, block.Filled
  unchanged : r.summary.upgraded = 0 ∧ r.summary.removed = 0
  bounded : 1 ≤ r.summary.new ∧ r.summary.new ≤ maxAdditions
  actionLines : ActionLines r.after r.actions
  actions : Actions expected installed r.actions
  complete : ∀ a ∈ r.actions, a.verb = .inst → ∃ b ∈ r.actions, b.verb = .conf ∧ b.name = a.name
  count : (installs r.actions).length = r.summary.new
  panelbridge : panelbridge ∈ r.names
  new : ∀ names, listed r.blocks .new = some names → names = r.names
  additional : ∀ names, listed r.blocks .additional = some names → names = r.names.erase Packaging.panelbridge
  kept : ∀ names, listed r.blocks .kept = some names → Disjoint names r.names ∧ names.card ≤ r.summary.held
  unused : ∀ names, listed r.blocks .unused = some names → Disjoint names r.names

end Reading

end HccastWired.Packaging
