import Mathlib

/-!
# Results that are a value or an error

How the error and the value of a composed result come from those of its parts.
-/

namespace HccastWired.Foundation

variable {ε ε' α β : Type} {x : Except ε α} {f : α → Except ε β} {g : ε → ε'} {e : ε} {e' : ε'}
  {a : α} {b : β}

theorem bind_ok_iff : (x >>= f) = .ok b ↔ ∃ a, x = .ok a ∧ f a = .ok b := by
  cases x with
  | ok a => simp [bind, Except.bind]
  | error e => simp [bind, Except.bind]

theorem bind_error_iff :
    (x >>= f) = .error e ↔ x = .error e ∨ ∃ a, x = .ok a ∧ f a = .error e := by
  cases x with
  | ok a => simp [bind, Except.bind]
  | error e' => simp [bind, Except.bind]

/-- What a map that returned holds comes from the elements, one by one. -/
theorem mem_of_mapM_ok {xs : List α} : ∀ {ys : List β}, xs.mapM f = .ok ys →
    ys.length = xs.length ∧ ∀ y ∈ ys, ∃ x ∈ xs, f x = .ok y := by
  induction xs with
  | nil =>
      intro ys h
      cases h
      exact ⟨rfl, fun y hy => absurd hy List.not_mem_nil⟩
  | cons x xs ih =>
      intro ys h
      rw [List.mapM_cons] at h
      obtain ⟨y, hy, h⟩ := bind_ok_iff.mp h
      obtain ⟨rest, hrest, h⟩ := bind_ok_iff.mp h
      cases h
      obtain ⟨hlength, hall⟩ := ih hrest
      refine ⟨congrArg Nat.succ hlength, List.forall_mem_cons.mpr ⟨?_, ?_⟩⟩
      · exact ⟨x, List.mem_cons_self, hy⟩
      · intro z hz
        obtain ⟨w, hw, hfw⟩ := hall z hz
        exact ⟨w, List.mem_cons_of_mem _ hw, hfw⟩

theorem mapError_ok_iff : x.mapError g = .ok a ↔ x = .ok a := by
  cases x with
  | ok b => simp [Except.mapError]
  | error e => simp [Except.mapError]

theorem mapError_error_iff : x.mapError g = .error e' ↔ ∃ e, x = .error e ∧ g e = e' := by
  cases x with
  | ok a => simp [Except.mapError]
  | error e => simp [Except.mapError]

end HccastWired.Foundation
