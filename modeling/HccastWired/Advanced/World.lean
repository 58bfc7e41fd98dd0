import HccastWired.Foundation.Call
import HccastWired.Foundation.System
import HccastWired.Advanced.Record

/-!
# The host of the advanced helper

The boot volume, the CPU policy, the journal and what the backend answers. At
every step the surroundings may edit files, change the policy, answer anything
and let the step fail. The log, newest event first, is what has happened so far.
-/

namespace HccastWired.Advanced

open Foundation

inductive AdvancedError
  | helper (code message : String)
  | os
  | blocking
  | other
deriving DecidableEq

/-- `except (HelperError, OSError)`. -/
def AdvancedError.caught : AdvancedError → Bool
  | .other => false
  | _ => true

structure BootFacts where
  bootId : String
  model : String
  configuredMhz : Int
  tryboot : Bool
  layoutVerified : Bool
  secureBoot : Option Bool
  bootRamdisk : Option Bool
  abBoot : Option Bool
  platformId : String
deriving DecidableEq

structure HealthSample where
  monotonicS : Number
  temperatureC : Number
  throttledBits : Int
  dataErrors : Bool
deriving DecidableEq

/-- The part of a CPU snapshot that the helper does not write. -/
structure CpuLimits where
  governors : List String
  minKhz : Int
  hardwareMaxKhz : Int

structure CpuSnapshot where
  values : CpuValues
  limits : CpuLimits

inductive CpuField
  | governor
  | maxKhz
deriving DecidableEq

def CpuValues.at (v : CpuValues) : CpuField → PyValue
  | .governor => .str v.governor
  | .maxKhz => .int v.maxKhz

def CpuValues.set (v : CpuValues) (field : CpuField) (w : CpuValues) : CpuValues :=
  match field with
  | .governor => { v with governor := w.governor }
  | .maxKhz => { v with maxKhz := w.maxKhz }

/-- A directory entry. Links, devices and files of others are refused. -/
inductive Entry
  | file (raw : Bytes)
  | unsafe_

abbrev Files := String → Option Entry

/-- What the surroundings do before a step, and what they answer to it. A failing
change may have happened all the same. -/
structure Move where
  edit : Files → Files
  readiness : Option Entry → Option Entry
  policy : CpuValues → CpuValues
  fault : Option AdvancedError
  applied : Bool
  facts : Option BootFacts
  health : Option HealthSample
  clock : { x : Number // instant x = true }
  limits : Option CpuLimits
  uuid : { s : String // token s = true }

/-- A public operation with its arguments; one of another type is `none`. -/
inductive Operation
  | setCpu (governor : Option String) (capMhz : Option Int)
  | restoreCpu
  | startTrial (mhz : Option Int)
  | rollback
  | guardian
  | confirmTrial (trialId : Option String) (visible : Bool)
  | setSafeMode
  | uninstallReady

inductive Event
  | began (op : Operation)
  | booted (id : String)
  | facts (f : BootFacts)
  | health (s : HealthSample)
  | clock (x : Number)
  | read (name : String) (content : Option Bytes)
  | verified (ok : Bool)
  | snapshot (v : CpuValues)
  | disturbed
  | changedFile (name : String)
  | saved (r : Record)
  | wrote (field : CpuField) (values current : CpuValues)
  | reboot (trial : Bool)

structure World where
  moves : Nat → Move
  time : Nat
  bootId : String
  files : Files
  readiness : Option Entry
  policy : CpuValues
  journal : Option Bytes
  journalRaw : Option Bytes
  log : List Event

abbrev HelperCall (α : Type) : Type :=
  Call World AdvancedError α

namespace World

def move (w : World) : Move :=
  w.moves w.time

def note (w : World) (e : Event) : World :=
  { w with log := e :: w.log }

/-- The surroundings have moved. -/
def passed (w : World) : World where
  moves := w.moves
  time := w.time + 1
  bootId := w.bootId
  files := w.move.edit w.files
  readiness := w.move.readiness w.readiness
  policy := w.move.policy w.policy
  journal := w.journal
  journalRaw := w.journalRaw
  log := if w.move.policy w.policy = w.policy then w.log else .disturbed :: w.log

end World

section Steps

variable {α : Type}

/-- Ask the surroundings; an answer is noted. -/
def ask (answer : Move → World → Except AdvancedError α) (event : α → Option Event) :
    HelperCall α := fun w =>
  match answer w.move w.passed with
  | .error e => (.error e, [w.passed])
  | .ok a => (.ok a, [(event a).elim w.passed w.passed.note])

/-- Change something. -/
def act (effect : World → World) : HelperCall Unit := fun w =>
  match w.move.fault with
  | some e => (.error e, [if w.move.applied then effect w.passed else w.passed])
  | none => (.ok (), [effect w.passed])

/-- The step goes through, unless it fails. -/
def Move.answer (m : Move) (a : Except AdvancedError α) : Except AdvancedError α :=
  match m.fault with
  | some e => .error e
  | none => a

def note (e : Event) : HelperCall Unit :=
  Call.update fun w => w.note e

end Steps

section Files

def maxFileBytes : Nat := 262144

def readEntry : Option Entry → Except AdvancedError (Option Bytes)
  | none => .ok none
  | some (.file raw) =>
      if maxFileBytes < raw.length then
        .error (.helper "UnsafeFile" "Advanced file exceeds its size limit")
      else .ok (some raw)
  | some .unsafe_ =>
      .error (.helper "UnsafeFile" "Advanced files must be owned regular files with one link")

/-- `boot.read`. -/
def bootRead (name : String) : HelperCall (Option Bytes) :=
  ask (fun m w => m.answer (readEntry (w.files name))) fun content => some (.read name content)

def conflict : AdvancedError :=
  .helper "Conflict" "Advanced file was changed outside this transaction"

/-- `boot.write`. -/
def bootWrite (name : String) (raw : Bytes) (expected : Option Bytes) : HelperCall Unit := do
  let current ← bootRead name
  if current ≠ expected then throw conflict
  let again ← bootRead name
  if again ≠ expected then
    throw (.helper "Conflict" "Advanced file changed during the transaction")
  act fun w => { w.note (.changedFile name) with
    files := Function.update w.files name (some (.file raw)) }

/-- `boot.remove`. -/
def bootRemove (name : String) (expected : Option Bytes) : HelperCall Unit := do
  let current ← bootRead name
  match current with
  | none => pure ()
  | some raw =>
      if some raw ≠ expected then
        throw (.helper "Conflict" "Refusing to remove a changed boot file")
      act fun w => { w.note (.changedFile name) with files := Function.update w.files name none }

def stateRead : HelperCall (Option Bytes) :=
  ask (fun m w => m.answer (readEntry (w.journal.map .file))) fun _ => none

/-- `state.read` of the readiness record. -/
def readinessRead : HelperCall (Option Bytes) :=
  ask (fun m w => m.answer (readEntry w.readiness)) fun _ => none

/-- `state.json`; the text of a value ends in a newline. -/
def json (enc : Encoding) : Option Bytes → Except AdvancedError (Option PyValue)
  | none => .ok none
  | some raw =>
      match enc.loads raw with
      | .error .recursion => .error .other
      | .error (.value _) => .error (.helper "InvalidState" "Advanced record is malformed")
      | .ok v =>
          if (v.get "api_version").any PyValue.isOne then .ok (some v)
          else .error (.helper "InvalidState" "Advanced record has an unsupported schema")

/-- The journal has no key that the helper does not know. -/
def knownKeys : PyValue → Bool
  | .dict fields => fields.all fun f => f.1 ∈ ["api_version", "cpu", "trial", "profile"]
  | _ => false

def validRecord (v : PyValue) : Except AdvancedError Record :=
  if knownKeys v then
    match Record.ofDict v with
    | some r =>
        if r.valid then .ok r
        else .error (.helper "InvalidState" "Advanced journal is incomplete or inconsistent")
    | none => .error (.helper "InvalidState" "Advanced journal is incomplete or inconsistent")
  else .error (.helper "InvalidState" "Advanced journal contains unknown fields")

/-- `_load`. -/
def load (enc : Encoding) : HelperCall Record := do
  let raw ← stateRead
  Call.update fun w => { w with journalRaw := raw }
  let again ← stateRead
  let value ← Call.ofExcept (json enc again)
  match value with
  | none => pure .empty
  | some v => Call.ofExcept (validRecord v)

/-- `state.write` of the journal. -/
def stateWrite (raw : Bytes) (r : Record) : HelperCall Unit := do
  let w ← Call.get
  let expected := w.journalRaw
  let current ← stateRead
  if current ≠ expected then throw conflict
  let again ← stateRead
  if again ≠ expected then
    throw (.helper "Conflict" "Advanced file changed during the transaction")
  act fun w => { w.note (.saved r) with journal := some raw }

/-- `_save`. -/
def save (enc : Encoding) (r : Record) : HelperCall Unit :=
  match enc.dumps r.toDict with
  | none => throw .other
  | some raw =>
      if maxFileBytes < raw.length then
        throw (.helper "InvalidState" "Advanced journal exceeds its size limit")
      else do
        stateWrite raw r
        Call.update fun w => { w with journalRaw := some raw }

end Files

section Backend

def clock : HelperCall Number :=
  ask (fun m _ => .ok m.clock.1) fun x => some (.clock x)

/-- `uuid.uuid4().hex`. -/
def newId : HelperCall String :=
  ask (fun m _ => .ok m.uuid.1) fun _ => none

def unsupportedHost : AdvancedError :=
  .helper "UnsupportedHost" "Verified Pi 5 model and current boot identity are required"

def BootFacts.supported (f : BootFacts) : Bool :=
  token f.bootId && "Raspberry Pi 5 Model B".toList.isPrefixOf f.model.toList

/-- `_facts`: what the backend observes of the running boot. -/
def observe : HelperCall BootFacts :=
  ask (fun m w => m.answer (match m.facts with
    | none => .error unsupportedHost
    | some f =>
        if { f with bootId := w.bootId }.supported then .ok { f with bootId := w.bootId }
        else .error unsupportedHost)) fun f => some (.facts f)

def unhealthy : AdvancedError :=
  .helper "Unhealthy" "Fresh health below 70 C with no new faults is required"

def seconds (x : Number) : Rat :=
  x.toRat.getD 0

def HealthSample.healthy (s : HealthSample) (now : Number) (baselineBits : Int) : Bool :=
  s.monotonicS.isFinite && 0 ≤ seconds now - seconds s.monotonicS &&
    seconds now - seconds s.monotonicS ≤ 10 && s.temperatureC.isFinite &&
    -20 ≤ seconds s.temperatureC && seconds s.temperatureC < 70 && 0 ≤ s.throttledBits &&
    s.throttledBits ≤ 0xF000F && s.throttledBits.toNat &&& 0xF000F = s.throttledBits.toNat &&
    s.throttledBits.toNat &&& 0xF = 0 &&
    s.throttledBits.toNat &&& baselineBits.toNat = s.throttledBits.toNat && !s.dataErrors

/-- `_health`. -/
def health (baselineBits : Int) : HelperCall Unit := do
  let sample ← ask (fun m _ => m.answer (match m.health with
    | none => .error unhealthy
    | some s => .ok s)) fun s => some (.health s)
  let now ← clock
  if sample.healthy now baselineBits then pure () else throw unhealthy

def cpuUnavailable : AdvancedError :=
  .helper "CPUUnavailable" "A supported stock CPU policy is required"

/-- `backend.cpu_snapshot`. -/
def cpuSnapshot : HelperCall CpuSnapshot :=
  ask (fun m w => m.answer (match m.limits with
    | none => .error (.helper "CPUUnavailable" "CPU policy attributes are malformed")
    | some limits => .ok ⟨w.policy, limits⟩)) fun s => some (.snapshot s.values)

/-- `_cpu_values`. -/
def cpuValues (s : CpuSnapshot) : Except AdvancedError CpuValues :=
  if s.values.governor ∈ governors ∧ s.values.governor ∈ s.limits.governors ∧
      0 < s.limits.minKhz ∧ s.limits.minKhz ≤ s.values.maxKhz ∧
      s.values.maxKhz ≤ s.limits.hardwareMaxKhz ∧ s.limits.hardwareMaxKhz ≤ stockMhz * 1000 then
    .ok s.values
  else .error cpuUnavailable

/-- `backend.write_cpu`. -/
def writeCpu (field : CpuField) (values : CpuValues) : HelperCall Unit :=
  if field = .governor ∧ values.governor ∉ governors then
    throw (.helper "InvalidCPU" "Unsupported CPU policy field or governor")
  else if field = .maxKhz ∧ ¬ (1 ≤ values.maxKhz ∧ values.maxKhz ≤ stockMhz * 1000) then
    throw (.helper "InvalidCPU" "CPU cap must not exceed the stock frequency")
  else act fun w => { w.note (.wrote field values w.policy) with policy := w.policy.set field values }

/-- `backend.reboot`. A request that fails has been issued too. -/
def reboot (trial : Bool) : HelperCall Unit := fun w =>
  match w.move.fault with
  | some e => (.error e, [w.passed.note (.reboot trial)])
  | none => (.ok (), [w.passed.note (.reboot trial)])

end Backend

end HccastWired.Advanced
