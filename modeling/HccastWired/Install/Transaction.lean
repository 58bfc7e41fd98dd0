import HccastWired.Foundation.Call
import HccastWired.Foundation.System
import HccastWired.Install.Journal

/-!
# Install file transactions

The calls of the journal that replaces five fixed configuration files, as calls
on a disk: each update is one replacement, removal or creation, and the call can
be interrupted before or after any of them.
-/

namespace HccastWired.Install

open Foundation

section Disk

/-- An entry of a directory that is not itself one. Links, devices and sockets
have no contents that the calls could read. -/
inductive File
  | regular (data : Bytes) (mode uid gid : Int) (links : Nat)
  | other

/-- What a path component is, with the files below it. -/
inductive Directory
  | directory (mode uid : Int) (files : String → Option File)
  | other

/-- What stands at every path of directories. -/
structure Disk where
  dirs : List String → Option Directory

def Disk.file (d : Disk) (parent : List String) (name : String) : Option File :=
  match d.dirs parent with
  | some (.directory _ _ files) => files name
  | _ => none

/-- Put a file into a directory, or remove it. -/
def Disk.put (d : Disk) (parent : List String) (name : String) (file : Option File) : Disk :=
  match d.dirs parent with
  | some (.directory mode uid files) =>
      { dirs := Function.update d.dirs parent
          (some (.directory mode uid (Function.update files name file))) }
  | _ => d

/-- A new directory, with the mode it is then given. -/
def Disk.mkdir (d : Disk) (path : List String) (mode : Int) : Disk :=
  { dirs := Function.update d.dirs path (some (.directory mode processUid fun _ => none)) }

def journalParent : List String :=
  ["var", "lib", "panelbridge"]

def journalName : String :=
  "install-files.json"

def lockName : String :=
  "install-files.lock"

/-- The directories that may be created, with their modes. -/
def creatable (path : List String) : Option Int :=
  if path = ["etc", "panelbridge"] then some 0o755
  else if path = journalParent then some 0o700
  else none

end Disk

/-- A call of the transaction. Nobody else changes the disk while it runs, and a
temporary file that an interrupted one leaves behind is never read. -/
abbrev Transaction (α : Type) : Type :=
  Call Disk TransactionError α

section Files

def trustedDir (mode uid : Int) : Bool :=
  uid = processUid && mode.toNat &&& 0o022 = 0

def trustedFile (data : Bytes) (mode uid : Int) (links limit : Nat) (isPrivate : Bool) : Bool :=
  links = 1 && uid = processUid && validMode mode && data.length ≤ limit &&
    (!isPrivate || mode = 0o600)

/-- Follow the directories from `here`, creating the creatable ones if asked to. -/
def walk (create : Bool) (here : List String) :
    List String → Transaction (Option (List String))
  | [] => pure (some here)
  | part :: rest => do
      let d ← Call.get
      match d.dirs (here ++ [part]) with
      | none =>
          match creatable (here ++ [part]) with
          | none => throw (.error "Required system directory is absent")
          | some mode =>
              if create then do
                Call.update fun d => d.mkdir (here ++ [part]) mode
                walk create (here ++ [part]) rest
              else pure none
      | some (.directory mode uid _) =>
          if trustedDir mode uid then walk create (here ++ [part]) rest
          else throw (.error "Untrusted directory authority")
      | some .other => throw (.error "File transaction I/O failed")

def parent (path : List String) (create : Bool) : Transaction (Option (List String)) :=
  walk create [] path

def baseFd : Transaction Unit := do
  let d ← Call.get
  match d.dirs [] with
  | some (.directory mode uid _) =>
      if trustedDir mode uid then pure () else throw (.error "Untrusted directory authority")
  | _ => throw (.error "Cannot open trusted filesystem root")

def readFile (file : Option File) (limit : Nat) (isPrivate : Bool) :
    Except TransactionError (Option Snapshot) :=
  match file with
  | none => .ok none
  | some (.regular data mode uid gid links) =>
      if trustedFile data mode uid links limit isPrivate then
        .ok (some (snapshot data mode uid gid))
      else .error (.error "Untrusted file authority")
  | some .other => .error (.error "Untrusted file authority")

def read (parent : Option (List String)) (name : String) (limit : Nat) (isPrivate : Bool) :
    Transaction (Option Snapshot) := do
  let d ← Call.get
  Call.ofExcept (readFile (parent.bind fun parent => d.file parent name) limit isPrivate)

/-- The new contents are written to a temporary file that then replaces the old one. -/
def write (parent : List String) (name : String) (desired expected : Option Snapshot)
    (limit : Nat) (isPrivate : Bool) : Transaction Unit := do
  let current ← read (some parent) name limit isPrivate
  if current ≠ expected then throw (.conflict [name])
  else if current = desired then pure ()
  else match desired with
    | none => Call.update fun d => d.put parent name none
    | some s =>
        match s.bytes with
        | none => throw (.error "Incorrect padding")
        | some data => do
            let again ← read (some parent) name limit isPrivate
            if again ≠ expected then throw (.conflict [name])
            else Call.update fun d => d.put parent name (some (.regular data s.mode s.uid s.gid 1))

end Files

section Journal

/-- Hold the transaction's lock around a call. Without one, and without leave to
create it, there is nothing to work on. -/
def transaction {α : Type} (create : Bool) (body : Option (List String) → Transaction α) :
    Transaction α := do
  baseFd
  let parent? ← parent journalParent create
  match parent? with
  | none => body none
  | some path => do
      let lockState ← read (some path) lockName 0 true
      if lockState.isNone && !create then do
        let journal ← read (some path) journalName maxJournalBytes true
        if journal.isSome then throw (.error "Journal has no transaction lock") else body none
      else do
        if lockState.isNone then
          Call.update fun d =>
            d.put path lockName (some (.regular [] 0o600 processUid processGid 1))
        let _ ← parent ["var", "lib"] false
        body (some path)

def decodeRecord (s : Snapshot) : Except TransactionError Record :=
  match (s.bytes.bind Json.asciiText).bind Json.loads with
  | none => .error (.error "Invalid file transaction journal")
  | some j =>
      if j.unique then validateRecord j else .error (.error "Duplicate journal key")

def load (parent : List String) : Transaction (Option (Record × Snapshot)) := do
  let s ← read (some parent) journalName maxJournalBytes true
  match s with
  | none => pure none
  | some s => do
      let r ← Call.ofExcept (decodeRecord s)
      pure (some (r, s))

def save (parent : List String) (r : Record) (expected : Option Snapshot) :
    Transaction Snapshot := do
  let _ ← Call.ofExcept (validateRecord r.toJson)
  match Json.asciiBytes r.text with
  | none => throw (.error "Invalid file transaction journal")
  | some data =>
      if maxJournalBytes < data.length then throw (.error "Journal exceeds size bound")
      else do
        let desired := snapshot data 0o600 processUid processGid
        write parent journalName (some desired) expected maxJournalBytes true
        pure desired

end Journal

section Plans

structure FileChange where
  data : Option Bytes
  mode : Int
  gid : Option Int
  expected : Option FileIdentity

/-- A plan: the change of every target it names. -/
abbrev Changes := Target → Option FileChange

/-- What the journal records of a change before it knows the original. -/
structure Planned where
  expectedBefore : Option FileIdentity
  applied : Option Snapshot
deriving DecidableEq

def FileChange.normalize (c : FileChange) : Except TransactionError Planned :=
  if validMode c.mode && c.data.all (fun data => data.length ≤ maxFileBytes) &&
      c.gid.all (fun g => validInteger g maxGid) then do
    let expected ← match c.expected with
      | none => .ok none
      | some i => (validateIdentity i.toJson).map some
    .ok ⟨expected, c.data.map fun data => snapshot data c.mode processUid (c.gid.getD processGid)⟩
  else .error (.error "Invalid file change")

def normalizeAll (changes : Changes) :
    List Target → Except TransactionError (Target → Option Planned)
  | [] => .ok fun _ => none
  | t :: rest =>
      match changes t with
      | none => normalizeAll changes rest
      | some c => do
          let p ← c.normalize
          let normalized ← normalizeAll changes rest
          .ok (Function.update normalized t (some p))

def normalize (changes : Changes) : Except TransactionError (Target → Option Planned) :=
  if Target.all.all (fun t => (changes t).isNone) then
    .error (.error "Only fixed target IDs are permitted")
  else normalizeAll changes Target.all

/-- The targets of a plan, sorted. -/
def targetsOf {α : Type} (targets : Target → Option α) : List Target :=
  Target.all.filter fun t => (targets t).isSome

def states : List Target → Transaction (List (Target × Option Snapshot))
  | [] => pure []
  | t :: rest => do
      let path ← parent t.parent false
      let s ← read path t.name maxFileBytes false
      let states ← states rest
      pure ((t, s) :: states)

end Plans

section Run

structure Summary where
  phase : Option Phase
  intent : Option Intent
  targets : List Target
  conflicts : List Target

def summary : Option Record → Summary
  | none => ⟨none, none, [], []⟩
  | some r => ⟨some r.phase, some r.intent, targetsOf r.targets, r.conflicts⟩

/-- The phase of a run that has been journaled. -/
def Intent.begun : Intent → Phase
  | .apply => .prepared
  | .restore => .restoring

def Intent.done : Intent → Phase
  | .apply => .applied
  | .restore => .restored

def Entry.desired (e : Entry) : Intent → Option Snapshot
  | .apply => e.applied
  | .restore => e.before

/-- The targets whose state is neither the original nor the planned one. -/
def conflictsOf (r : Record) (states : List (Target × Option Snapshot)) : List Target :=
  (states.filter fun (t, s) =>
    !(r.targets t).any fun e => s = e.before || s = e.applied).map Prod.fst

/-- Bring one target into its desired state. -/
def runTarget (t : Target) (current desired : Option Snapshot) : Transaction Unit := do
  let path ← parent t.parent desired.isSome
  match path with
  | none => pure ()
  | some path => write path t.name desired current maxFileBytes false
  if t.isConfig then do
    let _ ← parent ["etc"] false
    pure ()

def runTargets (journal : List String) (r : Record) (journalState : Snapshot) (intent : Intent) :
    List (Target × Option Snapshot) → Transaction Unit
  | [] => pure ()
  | (t, current) :: rest => do
      let desired := (r.targets t).bind fun e => e.desired intent
      tryCatch (runTarget t current desired) fun e =>
        match e with
        | .conflict _ => do
            let _ ← save journal { r with phase := .conflict, conflicts := [t] } (some journalState)
            throw (.conflict [t.id])
        | e => throw e
      runTargets journal r journalState intent rest

/-- The directory that the transaction creates has its final mode. -/
def checkConfigParent : Transaction Unit := do
  let path ← parent Target.enrollment.parent false
  let d ← Call.get
  match path.bind d.dirs with
  | some (.directory mode _ _) =>
      if mode = 0o755 then pure ()
      else throw (.error
        "Incomplete configuration directory initialization; explicit repair required")
  | _ => pure ()

def run (journal : List String) (r : Record) (journalState : Option Snapshot) (intent : Intent) :
    Transaction Summary := do
  let states ← states (targetsOf r.targets)
  let conflicts := conflictsOf r states
  let phase := if conflicts ≠ [] then .conflict else intent.begun
  let r := { r with intent := intent, conflicts := conflicts, phase := phase }
  let journalState ← save journal r journalState
  if conflicts ≠ [] then throw (.conflict (conflicts.map Target.id))
  else do
    if intent = .apply ∧ r.configParentWasAbsent = true then checkConfigParent
    runTargets journal r journalState intent states
    let r := { r with phase := intent.done }
    let _ ← save journal r (some journalState)
    pure (summary (some r))

end Run

section Calls

/-- The first record of a plan. Its originals are read with its first call. -/
def newRecord (normalized : Target → Option Planned) (absent : Bool)
    (states : List (Target × Option Snapshot)) : Record where
  phase := .prepared
  intent := .apply
  targets t := (normalized t).map fun p => ⟨(states.lookup t).join, p.applied, p.expectedBefore⟩
  conflicts := []
  configParentWasAbsent := absent

def Record.planned (r : Record) (t : Target) : Option Planned :=
  (r.targets t).map fun e => ⟨e.expectedBefore, e.applied⟩

def beginPlan (normalized : Target → Option Planned) : Transaction Record := do
  let absent ←
    if (normalized .enrollment).isSome || (normalized .rescueBinding).isSome then do
      let path ← parent Target.enrollment.parent false
      pure path.isNone
    else pure false
  let states ← states (targetsOf normalized)
  let conflicts := states.filter fun (t, s) =>
    s.map Snapshot.identity ≠ (normalized t).bind Planned.expectedBefore
  if conflicts ≠ [] then throw (.conflict (conflicts.map fun c => c.1.id))
  else pure (newRecord normalized absent states)

/-- Continue a plan. A repeated plan has to be the saved one. -/
def resume (r : Record) (normalized : Option (Target → Option Planned)) : Transaction Unit :=
  if normalized.any fun n => Target.all.any fun t => n t ≠ r.planned t then
    throw (.error "Changed plans require an explicit upgrade migration")
  else if r.intent = .restore ∧ r.phase ≠ .restored then
    throw (.error "Complete restoration before applying again")
  else pure ()

def applyIn (normalized : Option (Target → Option Planned)) (journal : List String) :
    Transaction Summary := do
  let loaded ← load journal
  match loaded, normalized with
  | none, none => throw (.error "No saved transaction to resume")
  | none, some n => do
      let r ← beginPlan n
      run journal r none .apply
  | some (r, s), normalized => do
      resume r normalized
      run journal r (some s) .apply

def apply (changes : Option Changes) : Transaction Summary := do
  let normalized ← match changes with
    | none => pure none
    | some changes => do
        let n ← Call.ofExcept (normalize changes)
        pure (some n)
  transaction true fun context =>
    match context with
    | none => throw (.error "File transaction I/O failed")
    | some journal => applyIn normalized journal

def restore : Transaction Summary :=
  transaction false fun context =>
    match context with
    | none => pure (summary none)
    | some journal => do
        let loaded ← load journal
        match loaded with
        | none => pure (summary none)
        | some (r, s) => run journal r (some s) .restore

/-- A public call, and how many of its updates happen before it is interrupted. -/
inductive InstallAction
  | apply (changes : Option Changes) (updates : Nat)
  | restore (updates : Nat)

def installSystem : System Disk InstallAction where
  step
    | d, .apply changes updates => some ((Install.apply changes).upTo updates d)
    | d, .restore updates => some (Install.restore.upTo updates d)

end Calls

end HccastWired.Install
