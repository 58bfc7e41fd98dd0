import HccastWired.Foundation.Binary64

/-!
# What the window may send

The state that the session controller last reported, the verbs that wait for a
reply, and the checks before a verb is sent. Texts are kept as they are shown; how
they are drawn is left out.
-/

namespace HccastWired.Ui

open Foundation

/-- The commands of the session controller. -/
inductive Verb
  | discover
  | start
  | stop
  | select
  | applyProfile
  | confirmProfile
  | revertProfile
  | calibrate
  | restoreDefaults
  | startRecoveryPairing
  | about
  | setCpuCap
  | trialClock
deriving DecidableEq

namespace Verb

def name : Verb → String
  | discover => "discover"
  | start => "start"
  | stop => "stop"
  | select => "select"
  | applyProfile => "apply_profile"
  | confirmProfile => "confirm_profile"
  | revertProfile => "revert_profile"
  | calibrate => "calibrate"
  | restoreDefaults => "restore_defaults"
  | startRecoveryPairing => "start_recovery_pairing"
  | about => "about"
  | setCpuCap => "set_cpu_cap"
  | trialClock => "trial_clock"

/-- The verb waits for the one that is under way. -/
def exclusive : Verb → Bool
  | stop => false
  | revertProfile => false
  | about => false
  | _ => true

end Verb

/-- A text that is shown: one of the program, or one that ends with `str()` of a value of
the controller. -/
inductive Reason
  | text (s : String)
  | reported (lead : String) (v : PyValue)
deriving DecidableEq

section Values

/-- `bool(value)` of `value = state.get(key)`. -/
def truthy : Option PyValue → Bool
  | none => false
  | some .none => false
  | some (.bool b) => b
  | some (.number x) => !x.eq (.int 0)
  | some (.str s) => s ≠ ""
  | some (.list items) => !items.isEmpty
  | some (.dict fields) => !fields.isEmpty

/-- `isinstance(state.get(key, []), list)`. -/
def listOrMissing : Option PyValue → Bool
  | none => true
  | some (.list _) => true
  | some _ => false

/-- `state.get(key) is None or isinstance(state[key], dict)`. -/
def dictOrMissing : Option PyValue → Bool
  | none => true
  | some .none => true
  | some (.dict _) => true
  | some _ => false

def items : Option PyValue → List PyValue
  | some (.list values) => values
  | _ => []

def isStr : PyValue → Bool
  | .str _ => true
  | _ => false

/-- `OverflowError`, which nobody who checks a state catches. -/
inductive StateError
  | value (message : String)
  | overflow
deriving DecidableEq

/-- `_number`: a finite number, as a `float`. -/
def number : Option PyValue → Except StateError (Option Rat)
  | some (.number x) =>
      if x.overflows then .error .overflow else .ok (x.toRat.map roundBinary64)
  | _ => .ok none

end Values

/-- The part of `Presenter` that decides what is sent. -/
structure Presenter where
  state : PyValue
  connected : Bool
  error : Reason
  pending : List Verb
  trialReceived : Rat

namespace Presenter

def statuses : List String :=
  ["stopped", "discovering", "connecting", "streaming", "retrying", "rescue", "error"]

/-- The checks of `update`. -/
def checkState (state : PyValue) : Except StateError Unit := do
  if state.integer "api_version" ≠ some 1 then
    throw (.value "Incompatible controller state. Retry the connection.")
  if ¬ (state.text "status").any fun status => statuses.contains status then
    throw (.value "The controller returned an unknown connection state.")
  if ¬ (["features", "candidates"].all fun key => listOrMissing (state.get key)) then
    throw (.value "The controller returned incomplete connection state.")
  if ¬ (items (state.get "features")).all isStr then
    throw (.value "The controller returned invalid available actions.")
  if ¬ (["profile", "presets", "health", "recovery", "capabilities", "feature_reasons"].all
      fun key => dictOrMissing (state.get key)) then
    throw (.value "The controller returned incomplete display state.")
  if ¬ (["trial", "receiver"].all fun key => dictOrMissing (state.get key)) then
    throw (.value "The controller returned incomplete display state.")
  if truthy (state.get "trial") then
    let seconds ← number ((state.get "trial").bind fun trial => trial.get "seconds_remaining")
    if seconds = none then
      throw (.value "The controller returned an invalid confirmation timer.")

def disconnect (p : Presenter) (error : Reason) : Presenter :=
  { p with connected := false, error := error, pending := [] }

/-- `update`; a `ValueError` is raised after the presenter has been disconnected. -/
def update (p : Presenter) (state : PyValue) (now : Rat) : Presenter × Except StateError Unit :=
  match checkState state with
  | .error (.value message) => (p.disconnect (.text message), .error (.value message))
  | .error .overflow => (p, .error .overflow)
  | .ok () =>
      ({ p with
          state := state, connected := true, trialReceived := now
          error := if p.connected then p.error else .text "" }, .ok ())

/-- The whole seconds that are left of a trial, at least zero. -/
def trialRemaining (p : Presenter) (now : Rat) : Option Int :=
  match p.state.get "trial" with
  | some (.dict fields) =>
      match number (fields.lookup "seconds_remaining") with
      | .ok (some seconds) =>
          let elapsed := max 0 (roundBinary64 (now - p.trialReceived))
          some (max 0 ⌈roundBinary64 (seconds - elapsed)⌉)
      | _ => none
  | _ => none

def cpuChoices (p : Presenter) (verb : Verb) : List Int :=
  let key := if verb = .setCpuCap then "cpu_caps_mhz" else "trial_clocks_mhz"
  let values := items ((p.state.get "capabilities").bind fun capabilities => capabilities.get key)
  let clocks := values.filterMap fun
    | .number (.int n) => if 0 < n ∧ n ≤ 2700 then some n else none
    | _ => none
  clocks.dedup.mergeSort (· ≤ ·)

/-- What the controller says about a verb that it does not offer. -/
def featureReason (p : Presenter) (verb : Verb) : Reason :=
  match (p.state.get "feature_reasons").bind fun reasons => reasons.get verb.name with
  | some reason =>
      if truthy (some reason) then .reported "" reason
      else .text "This operation is not available in this installation."
  | none => .text "This operation is not available in this installation."

/-- The reason why a verb is not available, if there is one. -/
def availability (p : Presenter) (verb : Verb) (now : Rat) : Except Reason Unit := do
  if ¬ p.connected then throw (.text "Connect to the session controller first.")
  if ¬ (items (p.state.get "features")).contains (.str verb.name) then throw (p.featureReason verb)
  if verb ∈ p.pending ∨ (p.pending ≠ [] ∧ verb.exclusive) then
    throw (.text "Waiting for the current action to finish.")
  let trial := truthy (p.state.get "trial")
  if verb ∈ [Verb.confirmProfile, .revertProfile] then
    if ¬ trial then throw (.text "There is no display change to confirm.")
    if verb = .confirmProfile ∧ (p.trialRemaining now = none ∨ p.trialRemaining now = some 0) then
      throw (.text "Confirmation expired. Waiting for automatic restoration.")
  if trial ∧ verb ∈ [Verb.applyProfile, .setCpuCap, .trialClock, .calibrate, .restoreDefaults] then
    throw (.text "Keep or revert the current change first.")
  let status := p.state.text "status"
  if verb = .start then
    if status ≠ some "stopped" ∧ status ≠ some "error" then
      throw (.text "A connection is already active.")
    if ¬ truthy (p.state.get "receiver") then throw (.text "Select your display first.")
  if verb ∈ [Verb.discover, .select] ∧
      status.any fun s => ["connecting", "streaming", "retrying", "rescue"].contains s then
    throw (.text "Disconnect before choosing another display.")
  if verb = .stop ∧ status = some "stopped" then
    throw (.text "The display is already disconnected.")
  if verb ∈ [Verb.setCpuCap, .trialClock] ∧ p.cpuChoices verb = [] then
    throw (.text "No validated frequencies are available for this operation.")

/-- `begin`; the checks of the arguments, which are the user's, raise `fault` or nothing. -/
def begin (p : Presenter) (verb : Verb) (fault : Option Reason) (now : Rat) :
    Except Reason Presenter := do
  p.availability verb now
  match fault with
  | some reason => throw reason
  | none => return { p with error := .text "", pending := verb :: p.pending }

def finish (p : Presenter) (verb : Verb) (error : Option Reason) : Presenter :=
  { p with pending := p.pending.filter (· ≠ verb), error := error.getD p.error }

end Presenter

end HccastWired.Ui
