import Mathlib

/-!
# Runtime state of the live controller

The controller's configuration and status, checked cleanup, and what an
attempt reports when it ends. A value that the source's constructors reject
cannot be built.
-/

namespace HccastWired.Live

/-- Seconds of coordinated universal time; the source formats them when it publishes. -/
abbrev UtcTime := Rat

inductive DesiredMode where
  | stopped | desktop | kiosk
  deriving DecidableEq, Repr

inductive RuntimePhase where
  | stopped | starting | waitingForScreen | handshaking | streaming | retrying | stopping | error
  deriving DecidableEq, Repr

/-- The configuration's fields that are not fixed to one value. -/
structure LiveConfig where
  mode : DesiredMode
  kioskUrl : String
  fps : Nat
  bitrateKbps : Nat
  sourceUser : String
  novncEnabled : Bool
  deriving DecidableEq, Repr

structure RuntimeStatus where
  desiredMode : DesiredMode
  phase : RuntimePhase
  retryCount : Nat := 0
  nextRetryAt : Option UtcTime := none
  attemptStartedAt : Option UtcTime := none
  product : Option String := none
  version : Option String := none
  lastError : Option String := none
  deriving DecidableEq

/-- `str(error).strip() or error.__class__.__name__` of an exception. -/
abbrev Raised := { message : String // message ≠ "" }

/-- One failed cleanup action and its message. -/
structure CleanupError where
  action : String
  message : String
  action_ne : action ≠ ""
  message_ne : message ≠ ""
  deriving DecidableEq

/-- Actions, failures and verified postconditions of a physical cleanup. -/
structure CleanupResult where
  attemptedActions : List String
  errors : List CleanupError
  verifiedPostconditions : List String
  success : Bool
  sound : success = true → errors = []
  deriving DecidableEq

namespace CleanupResult

/-- `_empty_cleanup`. -/
def empty : CleanupResult where
  attemptedActions := []
  errors := []
  verifiedPostconditions := []
  success := true
  sound _ := rfl

/-- `_merge_cleanup` of two results. -/
def merge (a b : CleanupResult) : CleanupResult where
  attemptedActions := a.attemptedActions ++ b.attemptedActions
  errors := a.errors ++ b.errors
  verifiedPostconditions := a.verifiedPostconditions ++ b.verifiedPostconditions
  success := a.success && b.success
  sound h := by
    obtain ⟨ha, hb⟩ := Bool.and_eq_true_iff.mp h
    rw [a.sound ha, b.sound hb, List.append_nil]

/-- `_exception_cleanup`. -/
def ofException (action : String) (h : action ≠ "") (error : Raised) : CleanupResult where
  attemptedActions := [action]
  errors := [⟨action, error.1, h, error.2⟩]
  verifiedPostconditions := []
  success := false
  sound h := by cases h

/-- `_cleanup_error_text`. -/
def errorText (r : CleanupResult) : String :=
  if r.errors = [] then "cleanup failed: required postconditions were not verified"
  else "cleanup failed: " ++
    String.intercalate "; " (r.errors.map fun e => e.action ++ ": " ++ e.message)

@[simp] theorem merge_success (a b : CleanupResult) :
    (a.merge b).success = (a.success && b.success) := rfl

end CleanupResult

inductive AttemptClassification where
  | failure | completed
  deriving DecidableEq, Repr

/-- A phase observed during an active attempt. -/
structure AttemptEvent where
  phase : RuntimePhase
  product : Option String := none
  version : Option String := none
  publishable : phase ∈ [RuntimePhase.waitingForScreen, .handshaking, .streaming]

/-- The terminal evidence of an attempt, with its own checked cleanup. -/
structure AttemptResult where
  classification : AttemptClassification
  error : Option String
  product : Option String
  version : Option String
  streamingDuration : Rat
  cleanup : CleanupResult
  nonneg : 0 ≤ streamingDuration
  deriving DecidableEq

theorem zero_duration : (0 : Rat) ≤ 0 := Rat.le_refl

/-- The result recorded for an attempt that could not be created or raised. -/
def AttemptResult.ofException (error : Raised) (cleanup : CleanupResult) : AttemptResult where
  classification := .failure
  error := some error.1
  product := none
  version := none
  streamingDuration := 0
  cleanup := cleanup
  nonneg := zero_duration

/-- Python's `or` on an optional string: an empty string counts as absent. -/
def orElse (first second : Option String) : Option String :=
  if first.any (· ≠ "") then first else second

end HccastWired.Live
