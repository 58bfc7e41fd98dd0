import HccastWired.Foundation.System

/-!
# Runs with their history

A run that keeps every state it passed and the action taken there, newest
first, for properties that compare a state with what happened before it.
-/

namespace HccastWired.Foundation.System

variable {σ α : Type*}

/-- A run with the states it left and the actions it took there. -/
inductive Path (sys : System σ α) (ok : σ → α → Prop) (s : σ) : List (σ × α) → σ → Prop where
  | nil : Path sys ok s [] s
  | snoc {past : List (σ × α)} {t u : σ} {a : α} (run : Path sys ok s past t) (ha : ok t a)
      (hstep : sys.step t a = some u) : Path sys ok s ((t, a) :: past) u

variable {sys : System σ α} {ok : σ → α → Prop}

/-- Every run has a history. -/
theorem Reaches.path {s t : σ} (run : sys.Reaches ok s t) : ∃ past, sys.Path ok s past t := by
  induction run with
  | refl => exact ⟨[], .nil⟩
  | tail _ last ih =>
      obtain ⟨past, hpast⟩ := ih
      obtain ⟨a, ha, hstep⟩ := last
      exact ⟨_, hpast.snoc ha hstep⟩

/-- An execution of admissible actions is a run with a history. -/
theorem path_of_exec {acts : List α} {s t : σ} (hok : ∀ u, ∀ a ∈ acts, ok u a)
    (h : sys.exec s acts = some t) : ∃ past, sys.Path ok s past t := by
  apply Reaches.path
  induction acts generalizing s with
  | nil =>
      obtain rfl := Option.some.inj h
      exact .refl
  | cons a rest ih =>
      obtain ⟨u, hu, hrest⟩ := Option.bind_eq_some_iff.mp h
      have htail := ih (fun u b hb => hok u b (List.mem_cons_of_mem _ hb)) hrest
      exact .head ⟨a, hok s a List.mem_cons_self, hu⟩ htail

/-- What holds at the start and survives every step holds of every history. -/
theorem Path.invariant {s t : σ} {past : List (σ × α)} {P : List (σ × α) → σ → Prop}
    (run : sys.Path ok s past t) (initial : P [] s)
    (preserved : ∀ past t a u, sys.Path ok s past t → P past t → ok t a →
      sys.step t a = some u → P ((t, a) :: past) u) : P past t := by
  induction run with
  | nil => exact initial
  | snoc run ha hstep ih => exact preserved _ _ _ _ run ih ha hstep

end HccastWired.Foundation.System
