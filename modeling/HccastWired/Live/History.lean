import HccastWired.Live.Supervisor

/-!
# Histories of the supervisor

What a log says about attempts, reconciliations and failed cleanups, and which
histories are safe for the device.
-/

namespace HccastWired.Live

/-- The attempts whose `run` is in progress. -/
def openRuns : List Event → List Nat
  | [] => []
  | .runStarted n :: rest => n :: openRuns rest
  | .runEnded n :: rest => (openRuns rest).erase n
  | _ :: rest => openRuns rest

/-- A reconciliation was called after the last attempt and after the worker began. -/
def calledFresh : List Event → Bool
  | [] => false
  | .reconcileCalled :: _ => true
  | .workerBegan :: _ => false
  | .installed _ :: _ => false
  | .runStarted _ :: _ => false
  | .runEnded _ :: _ => false
  | .ended _ _ _ _ :: _ => false
  | _ :: rest => calledFresh rest

/-- The latest reconciliation was called after the last attempt, and it succeeded. -/
def freshBaseline : List Event → Bool
  | [] => false
  | .reconcileReturned success :: rest => success && calledFresh rest
  | .reconcileCalled :: _ => false
  | .workerBegan :: _ => false
  | .installed _ :: _ => false
  | .runStarted _ :: _ => false
  | .runEnded _ :: _ => false
  | .ended _ _ _ _ :: _ => false
  | _ :: rest => freshBaseline rest

/-- What is still owed after a failed cleanup: first a generation change, then
a successful reconciliation. -/
inductive Debt where
  | clear | failed | changed
  deriving DecidableEq, Repr

def debt : List Event → Debt
  | [] => .clear
  | .ended _ _ _ cleanup :: rest => if cleanup.success then debt rest else .failed
  | .cleanupFailed :: _ => .failed
  | .generationChanged :: rest => if debt rest = .failed then .changed else debt rest
  | .reconcileReturned true :: rest => if debt rest = .changed then .clear else debt rest
  | _ :: rest => debt rest

/-- The generations in which an attempt completed. -/
def completedIn : List Event → List Int
  | [] => []
  | .ended _ generation (some result) _ :: rest =>
      if result.classification = .completed then generation :: completedIn rest
      else completedIn rest
  | _ :: rest => completedIn rest

/-- The attempt whose installation is the latest thing that happened to an attempt. -/
def lastInstalled : List Event → Option Nat
  | [] => none
  | .installed i :: _ => some i.attempt
  | .runStarted _ :: _ => none
  | .runEnded _ :: _ => none
  | .ended _ _ _ _ :: _ => none
  | _ :: rest => lastInstalled rest

/-- Every installation and every run in the history was safe when it happened. -/
def Sound : List Event → Prop
  | [] => True
  | .installed i :: rest =>
      (freshBaseline rest = true ∧ debt rest = .clear ∧ openRuns rest = [] ∧
        i.generation ∉ completedIn rest ∧
        i.closing = false ∧ i.mode ≠ .stopped ∧ i.appliedGeneration = i.generation) ∧ Sound rest
  | .runStarted n :: rest => (lastInstalled rest = some n ∧ openRuns rest = []) ∧ Sound rest
  | _ :: rest => Sound rest

/-- A part of a sound history that came first is sound. -/
theorem Sound.older {newer older : List Event} (h : Sound (newer ++ older)) : Sound older := by
  induction newer with
  | nil => exact h
  | cons e newer ih =>
      cases e with
      | installed i => exact ih h.2
      | runStarted n => exact ih h.2
      | _ => exact ih h

end HccastWired.Live
