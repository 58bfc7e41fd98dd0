import Mathlib

/-!
# Systems that take one action at a time

Every nondeterministic choice (which thread moves, what a call returns) is
part of the action, so a step is a partial function and a run can be executed.
-/

namespace HccastWired.Foundation

structure System (σ α : Type*) where
  step : σ → α → Option σ

namespace System

variable {σ α : Type*} (sys : System σ α)

/-- Execute a list of actions; an action that is not enabled stops the run. -/
def exec (s : σ) : List α → Option σ
  | [] => some s
  | a :: rest => (sys.step s a).bind fun t => exec t rest

/-- One step whose action meets a condition on the state before it. -/
def Next (ok : σ → α → Prop) (s t : σ) : Prop :=
  ∃ a, ok s a ∧ sys.step s a = some t

/-- A run all of whose steps meet the condition. -/
abbrev Reaches (ok : σ → α → Prop) : σ → σ → Prop :=
  Relation.ReflTransGen (sys.Next ok)

/-- The condition of an unrestricted run. -/
def Any : σ → α → Prop := fun _ _ => True

variable {sys}

/-- What holds at the start and survives every admitted step holds at the end of every run. -/
theorem Reaches.invariant {ok : σ → α → Prop} {P : σ → Prop}
    (preserved : ∀ s a t, P s → ok s a → sys.step s a = some t → P t) {s t : σ}
    (run : sys.Reaches ok s t) (initial : P s) : P t := by
  induction run with
  | refl => exact initial
  | tail _ last ih =>
      obtain ⟨a, ha, hstep⟩ := last
      exact preserved _ a _ ih ha hstep

/-- A run under a condition is a run. -/
theorem Reaches.weaken {ok ok' : σ → α → Prop} (imp : ∀ s a, ok s a → ok' s a) {s t : σ}
    (run : sys.Reaches ok s t) : sys.Reaches ok' s t :=
  Relation.ReflTransGen.mono (fun _ _ ⟨a, ha, hstep⟩ => ⟨a, imp _ a ha, hstep⟩) s t run

/-- An execution is an unrestricted run. -/
theorem reaches_of_exec {acts : List α} {s t : σ} (h : sys.exec s acts = some t) :
    sys.Reaches Any s t := by
  induction acts generalizing s with
  | nil =>
      obtain rfl := Option.some.inj h
      exact .refl
  | cons a rest ih =>
      obtain ⟨u, hu, hrest⟩ := Option.bind_eq_some_iff.mp h
      exact .head ⟨a, trivial, hu⟩ (ih hrest)

variable (sys) in
/-- The system that takes only actions that pass a test on the state before them. -/
def guard (ok : σ → α → Bool) : System σ α where
  step s a := if ok s a then sys.step s a else none

/-- An execution whose actions pass the test is a run under the condition. -/
theorem reaches_of_guard {ok : σ → α → Bool} {acts : List α} {s t : σ}
    (h : (sys.guard ok).exec s acts = some t) : sys.Reaches (fun s a => ok s a = true) s t := by
  refine Relation.ReflTransGen.mono (fun s t => ?_) s t (reaches_of_exec h)
  rintro ⟨a, -, hstep⟩
  simp only [guard] at hstep
  split at hstep
  · next hok => exact ⟨a, hok, hstep⟩
  · cases hstep

end System

end HccastWired.Foundation
