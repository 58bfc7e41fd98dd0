import HccastWired.Foundation.Call
import HccastWired.Desktop.Profile

/-!
# The private configuration store

The settings of the desktop controller in memory, and the file that holds them.
-/

namespace HccastWired.Desktop

open Foundation

section Device

def isHex (c : Char) : Bool :=
  "0123456789abcdefABCDEF".toList.contains c

/-- Pairs of hexadecimal digits with a colon between them; the count is of the colons. -/
def hexPairs : Nat → List Char → Bool
  | 0, [a, b] => isHex a && isHex b
  | n + 1, a :: b :: c :: rest => isHex a && isHex b && c = ':' && hexPairs n rest
  | _, _ => false

def isAddress (text : String) : Bool :=
  hexPairs 5 text.toList

def lower (text : String) : String :=
  text.map Char.toLower

def isName (name : String) : Bool :=
  1 ≤ name.toList.length && name.toList.length ≤ 80 && name.toList.all fun c => 32 ≤ c.toNat

/-- A receiver the user has selected, as the store keeps it. -/
structure Device where
  address : String
  name : String
  isAddress : isAddress address = true
  lowered : lower address = address
  isName : isName name = true
deriving DecidableEq

theorem isHex_toLower {c : Char} (h : isHex c = true) :
    isHex c.toLower = true ∧ c.toLower.toLower = c.toLower := by
  have hall : "0123456789abcdefABCDEF".toList.all (fun c =>
      isHex c.toLower && c.toLower.toLower == c.toLower) = true := by decide +kernel
  have hc := List.all_eq_true.mp hall c (by simpa [isHex] using h)
  simpa using hc

theorem hexPairs_toLower {n : Nat} {text : List Char} (h : hexPairs n text = true) :
    hexPairs n (text.map Char.toLower) = true ∧
      (text.map Char.toLower).map Char.toLower = text.map Char.toLower := by
  fun_induction hexPairs n text with
  | case1 a b =>
      obtain ⟨ha, hb⟩ := Bool.and_eq_true_iff.mp h
      simp [hexPairs, isHex_toLower ha, isHex_toLower hb]
  | case2 n a b c rest ih =>
      simp only [Bool.and_eq_true, decide_eq_true_eq] at h
      obtain ⟨⟨⟨ha, hb⟩, rfl⟩, hrest⟩ := h
      obtain ⟨hpairs, hlower⟩ := ih hrest
      have hcolon : ':'.toLower = ':' := by decide
      simp [hexPairs, isHex_toLower ha, isHex_toLower hb, hpairs, hlower, hcolon]
  | case3 => cases h

theorem isAddress_lower {text : String} (h : isAddress text = true) :
    isAddress (lower text) = true ∧ lower (lower text) = lower text := by
  obtain ⟨hpairs, hlower⟩ := hexPairs_toLower h
  constructor
  · simpa [isAddress, lower] using hpairs
  · apply String.toList_injective
    simp only [lower, String.toList_map]
    exact hlower

def Device.toDict (d : Device) : PyValue :=
  .dict [("address", .str d.address), ("name", .str d.name)]

def validateDevice : Option PyValue → Except Message (Option Device)
  | none => .ok none
  | some .none => .ok none
  | some device =>
      if device.hasKeys ["address", "name"] then
        match device.get "address" with
        | some (.str address) =>
            if haddress : isAddress address = true then
              match device.get "name" with
              | some (.str name) =>
                  if hname : isName name = true then
                    .ok (some ⟨lower address, name, (isAddress_lower haddress).1,
                      (isAddress_lower haddress).2, hname⟩)
                  else .error ⟨"Invalid receiver name", by decide⟩
              | _ => .error ⟨"Invalid receiver name", by decide⟩
            else .error ⟨"Invalid receiver address", by decide⟩
        | _ => .error ⟨"Invalid receiver address", by decide⟩
      else .error ⟨"Invalid selected receiver", by decide⟩

theorem validateDevice_toDict (d : Device) : validateDevice (some d.toDict) = .ok (some d) := by
  obtain ⟨address, name, haddress, hlowered, hname⟩ := d
  simp [validateDevice, Device.toDict, PyValue.hasKeys, PyValue.get, List.lookup, haddress, hname,
    hlowered]

end Device

/-- A display mode that is reverted unless it is kept before its deadline. -/
structure Trial where
  profile : Profile
  deadline : Number
deriving DecidableEq

/-- The attributes of `StateStore`. -/
structure StateStore where
  profile : Profile
  knownGood : Profile
  selectedDevice : Option Device
  failures : Nat
  pending : Option Trial
  recoveredTrial : Bool
  configError : Option Message
  diskHash : Option String
deriving DecidableEq

namespace StateStore

/-- The attributes before the file is read. -/
def initial : StateStore :=
  ⟨.default, .default, none, 0, none, false, none, none⟩

def recoveryRequired (s : StateStore) : Bool :=
  3 ≤ s.failures

def effectiveProfile (s : StateStore) : Profile :=
  match s.pending with
  | some trial => trial.profile
  | none => s.profile

end StateStore

/-- What is at the path of the configuration. -/
inductive PathNode
  | absent
  | file (raw : Bytes)
  | symlink
  | other
deriving DecidableEq

/-- A step of a call that the operating system can refuse; no call takes one twice. -/
inductive FileOp
  | stat
  | read
  | mkdir
  | mkstemp
  | fchmod
  | write
  | flush
  | fsync
  | replace
  | unlink
  | openDirectory
  | fsyncDirectory
  | closeDirectory
  | statReset
  | readReset
  | openBackup
  | readBackup
  | writeBackup (written : Nat)
  | fsyncBackup
deriving DecidableEq

inductive StoreError
  | value (message : Message)
  | runtime (message : String)
  | os
  | overflow
  | recursion
deriving DecidableEq

/-- What reading a document raises; the constructor catches `ValueError`, `KeyError` and
`TypeError`. -/
inductive LoadError
  | caught (message : Message)
  | overflow
  | recursion
deriving DecidableEq

def CheckError.load : CheckError → LoadError
  | value message => .caught message
  | overflow => .overflow

def JsonError.load : JsonError → LoadError
  | .value message => .caught message
  | .recursion => .recursion

/-- A store and its files. `seen` is the content that the store has last read or
written, and `replaced` counts its atomic replaces; the code holds neither. -/
structure Host where
  store : StateStore
  path : PathNode
  backups : String → PathNode
  seen : Option Bytes
  replaced : Nat

abbrev StoreCall (α : Type) : Type := Call Host StoreError α

namespace StateStore

/-- The document of a saved configuration. -/
def document (s : StateStore) : PyValue :=
  .dict [("api_version", .int 1), ("profile", s.profile.toDict), ("known_good", s.knownGood.toDict),
    ("selected_device", (s.selectedDevice.map Device.toDict).getD .none),
    ("failures", .int s.failures),
    ("pending", (s.pending.map fun trial => .dict [("profile", trial.profile.toDict),
      ("deadline", .number trial.deadline)]).getD .none)]

/-- What the constructor reads from a document, and whether it held a trial. -/
structure Loaded where
  profile : Profile
  knownGood : Profile
  selectedDevice : Option Device
  failures : Nat
  trial : Bool

/-- `data["key"]`; the text of a `KeyError` is the quoted key. -/
def item (data : PyValue) (key : String) : Except LoadError PyValue :=
  match data.get key with
  | some v => .ok v
  | none => .error (.caught ⟨"'" ++ key ++ "'", by simp [String.append_eq_empty_iff]⟩)

def parseFailures : Option PyValue → Except Message Nat
  | none => .ok 0
  | some (.number (.int n)) =>
      if 0 ≤ n ∧ n ≤ 3 then .ok n.toNat else .error ⟨"Invalid failure count", by decide⟩
  | some _ => .error ⟨"Invalid failure count", by decide⟩

def parse (data : PyValue) : Except LoadError Loaded := do
  match data with
  | .dict _ => pure ()
  | _ => throw (.caught ⟨"Configuration must be an object", by decide⟩)
  if ¬ (data.get "api_version").any PyValue.isOne then
    throw (.caught ⟨"Unsupported configuration version", by decide⟩)
  let profile ← (Profile.fromDict (← item data "profile")).mapError CheckError.load
  let knownGood ← (Profile.fromDict (← item data "known_good")).mapError CheckError.load
  let device ← (validateDevice (data.get "selected_device")).mapError LoadError.caught
  let failures ← (parseFailures (data.get "failures")).mapError LoadError.caught
  pure ⟨profile, knownGood, device, failures, (data.get "pending").any (· ≠ .none)⟩

variable (enc : Encoding) (faults : FileOp → Bool)

/-- `hashlib.sha256(path.read_bytes()).hexdigest() if path.exists() else None`. -/
def currentHash : PathNode → Except StoreError (Option String)
  | .absent => .ok none
  | .file raw => .ok (some (enc.sha256 raw))
  | .symlink => .error .os
  | .other => .error .os

def attempt (op : FileOp) : StoreCall Unit :=
  if faults op then throw .os else pure ()

def modify (f : StateStore → StateStore) : StoreCall Unit :=
  Call.update fun h => { h with store := f h.store }

/-- `os.replace`. -/
def replacePath (raw : Bytes) : StoreCall Unit :=
  Call.update fun h => { h with path := .file raw, seen := some raw, replaced := h.replaced + 1 }

/-- The temporary file is written; a failure removes it again. -/
def writeTemporary : StoreCall Unit :=
  tryCatch (do
    attempt faults .fchmod
    attempt faults .write
    attempt faults .flush
    attempt faults .fsync
    attempt faults .replace) fun e => do
    attempt faults .unlink
    throw e

def syncDirectory : StoreCall Unit := do
  attempt faults .openDirectory
  tryCatch (attempt faults .fsyncDirectory) fun e => do
    attempt faults .closeDirectory
    throw e
  attempt faults .closeDirectory

def save : StoreCall Unit := do
  let h ← Call.get
  if h.store.configError.isSome then
    throw (.runtime "Preserving broken configuration until Restore Defaults")
  attempt faults .stat
  if h.path = .symlink then
    throw (.value ⟨"Configuration became a symlink", by decide⟩)
  attempt faults .read
  let current ← Call.ofExcept (currentHash enc h.path)
  if current ≠ h.store.diskHash then
    throw (.runtime "Configuration changed in another process")
  attempt faults .mkdir
  match enc.dumps h.store.document with
  | none => throw (.value ⟨"Out of range float values are not JSON compliant", by decide⟩)
  | some raw => do
      attempt faults .mkstemp
      writeTemporary faults
      replacePath raw
      modify fun s => { s with diskHash := some (enc.sha256 raw) }
      syncDirectory faults

/-- `durable_change`: a failure before the replace restores the attributes. -/
def durableChange {α : Type} (method : StoreCall α) : StoreCall α := do
  let before ← Call.get
  tryCatch method fun e => do
    let now ← Call.get
    if now.store.diskHash = before.store.diskHash then
      modify fun s => { before.store with diskHash := s.diskHash }
    throw e

def selectDevice (address name : PyValue) : StoreCall Unit :=
  durableChange do
    match validateDevice (some (.dict [("address", address), ("name", name)])) with
    | .error message => throw (.value message)
    | .ok device => do
        modify fun s => { s with selectedDevice := device }
        save enc faults

/-- The profile is absent when the argument is no `Profile`. -/
def beginTrial (profile : Option Profile) (now : Number) : StoreCall Unit :=
  durableChange do
    let h ← Call.get
    if h.store.pending.isSome then
      throw (.runtime "Confirm or revert the existing display trial first")
    match profile with
    | none => throw (.value ⟨"Validated profile required", by decide⟩)
    | some profile => do
        modify fun s => { s with pending := some ⟨profile, now.add (.int 20)⟩ }
        save enc faults

def revertTrial : StoreCall Profile :=
  durableChange do
    modify fun s => { s with pending := none }
    save enc faults
    let h ← Call.get
    pure h.store.profile

def confirmTrial (now : Number) : StoreCall Bool :=
  durableChange do
    let h ← Call.get
    match h.store.pending with
    | none => pure false
    | some trial =>
        if trial.deadline.le now then do
          let _ ← revertTrial enc faults
          pure false
        else do
          modify fun s => { s with
            profile := trial.profile, knownGood := trial.profile, pending := none, failures := 0 }
          save enc faults
          pure true

def recordFailure : StoreCall Nat :=
  durableChange do
    modify fun s => { s with failures := min 3 (s.failures + 1) }
    modify fun s =>
      if s.recoveryRequired then { s with profile := s.knownGood, pending := none } else s
    save enc faults
    let h ← Call.get
    pure h.store.failures

def recordSuccess : StoreCall Unit :=
  durableChange do
    modify fun s => { s with failures := 0 }
    save enc faults

/-- The name of the file that keeps a configuration from before a reset. -/
def backupName (digest : String) : String :=
  ".before-reset-" ++ String.ofList (digest.toList.take 16)

/-- `stream.write`: the bytes reach the file one after another. -/
def writeBackup (name : String) (written : Bytes) : Bytes → StoreCall Unit
  | [] => pure ()
  | byte :: rest => do
      attempt faults (.writeBackup written.length)
      Call.update fun h => { h with
        backups := Function.update h.backups name (.file (written ++ [byte])) }
      writeBackup name (written ++ [byte]) rest

/-- A copy of the file is kept; one that exists already has to be the same. -/
def keepBackup (raw : Bytes) (digest : String) : StoreCall Unit := do
  let h ← Call.get
  if h.backups (backupName digest) = .absent then do
    attempt faults .openBackup
    Call.update fun h => { h with backups := Function.update h.backups (backupName digest) (.file []) }
    writeBackup faults (backupName digest) [] raw
    attempt faults .fsyncBackup
  else do
    attempt faults .readBackup
    if h.backups (backupName digest) ≠ .file raw then
      throw (.runtime "Existing recovery backup differs; preserving both files")

def restoreDefaults : StoreCall (Option String) :=
  durableChange do
    let h ← Call.get
    attempt faults .statReset
    if h.path = .symlink then
      throw (.value ⟨"Configuration became a symlink", by decide⟩)
    attempt faults .readReset
    let digest ← Call.ofExcept (currentHash enc h.path)
    if digest ≠ h.store.diskHash then
      throw (.runtime "Configuration changed in another process")
    match h.path, digest with
    | .file raw, some digest => keepBackup faults raw digest
    | _, _ => pure ()
    modify fun s => { s with
      profile := .default, knownGood := .default, pending := none, failures := 0
      configError := none, recoveredTrial := false }
    save enc faults
    pure (digest.map backupName)

/-- The `try` block of the constructor, up to the attributes. -/
def read (raw : Bytes) : Except LoadError Loaded :=
  if 65536 < raw.length then
    .error (.caught ⟨"Configuration exceeds size limit", by decide⟩)
  else ((enc.loads raw).mapError JsonError.load).bind parse

/-- The constructor, at what it finds at its path. -/
def create (path : PathNode) (backups : String → PathNode) : Except StoreError Host :=
  let host (s : StateStore) (seen : Option Bytes) : Host := ⟨s, path, backups, seen, 0⟩
  match path with
  | .symlink => .error (.value ⟨"Configuration cannot be a symlink", by decide⟩)
  | .other => .error (.value ⟨"Configuration must be a regular file", by decide⟩)
  | .absent => .ok (host initial none)
  | .file raw =>
      if faults .stat ∨ faults .read then .error .os
      else
        let s : StateStore := { initial with diskHash := some (enc.sha256 raw) }
        let broken (s : StateStore) (message : Message) : StateStore :=
          { s with configError := some message, profile := .default, knownGood := .default }
        match read enc raw with
        | .error (.caught message) => .ok (host (broken s message) (some raw))
        | .error .overflow => .error .overflow
        | .error .recursion => .error .recursion
        | .ok l =>
            let h := host { s with
              profile := l.profile, knownGood := l.knownGood, selectedDevice := l.selectedDevice
              failures := l.failures, recoveredTrial := l.trial } (some raw)
            if l.trial then
              match (save enc faults h).1 with
              | .ok _ => .ok ((save enc faults).final h)
              | .error (.value message) =>
                  let h := (save enc faults).final h
                  .ok { h with store := broken h.store message }
              | .error e => .error e
            else .ok h

end StateStore

/-- A call of the store. -/
inductive StoreOperation
  | selectDevice (address name : PyValue)
  | beginTrial (profile : Option Profile) (now : Number)
  | confirmTrial (now : Number)
  | revertTrial
  | recordFailure
  | recordSuccess
  | restoreDefaults

/-- Run a call and drop its value. -/
def StoreOperation.run (enc : Encoding) (faults : FileOp → Bool) : StoreOperation → StoreCall Unit
  | .selectDevice address name => StateStore.selectDevice enc faults address name
  | .beginTrial profile now => StateStore.beginTrial enc faults profile now
  | .confirmTrial now => StateStore.confirmTrial enc faults now >>= fun _ => pure ()
  | .revertTrial => StateStore.revertTrial enc faults >>= fun _ => pure ()
  | .recordFailure => StateStore.recordFailure enc faults >>= fun _ => pure ()
  | .recordSuccess => StateStore.recordSuccess enc faults
  | .restoreDefaults => StateStore.restoreDefaults enc faults >>= fun _ => pure ()

end HccastWired.Desktop
