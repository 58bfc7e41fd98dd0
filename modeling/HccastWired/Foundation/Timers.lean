import Mathlib

/-!
# Timers of a main loop

Each armed timer is a source with a number of its own; the program keeps the numbers in one
handle for each kind of timer and removes a source by its number.
-/

namespace HccastWired.Foundation

/-- A timer that the loop will dispatch, no earlier than it is due. -/
structure Source (κ : Type*) where
  id : Nat
  callback : κ
  due : Nat
deriving DecidableEq

/-- The sources of a loop, and the handles of the program, 0 for none. -/
structure Timers (κ : Type*) where
  sources : List (Source κ) := []
  nextId : Nat := 1
  handle : κ → Nat := fun _ => 0

namespace Timers

def remove {κ : Type*} (t : Timers κ) (id : Nat) : Timers κ :=
  { t with sources := t.sources.filter fun s => decide (s.id ≠ id) }

/-- A source that goes on is due again. -/
def again {κ : Type*} (t : Timers κ) (id due : Nat) : Timers κ :=
  { t with sources := t.sources.map fun s => if s.id = id then { s with due } else s }

section Operations

variable {κ : Type*} [DecidableEq κ]

/-- A new source, whose number goes into the handle. -/
def arm (t : Timers κ) (c : κ) (due : Nat) : Timers κ where
  sources := ⟨t.nextId, c, due⟩ :: t.sources
  nextId := t.nextId + 1
  handle := Function.update t.handle c t.nextId

def forget (t : Timers κ) (c : κ) : Timers κ :=
  { t with handle := Function.update t.handle c 0 }

/-- Remove the source of a handle, if there is one. -/
def clear (t : Timers κ) (c : κ) : Timers κ :=
  if t.handle c = 0 then t else (t.remove (t.handle c)).forget c

end Operations

/-- Each source but the one that is being dispatched stands in its handle. -/
structure Tracked {κ : Type*} (t : Timers κ) (busy : Nat) : Prop where
  numbered : ∀ s ∈ t.sources, 0 < s.id ∧ s.id < t.nextId
  held : ∀ s ∈ t.sources, s.id ≠ busy → t.handle s.callback = s.id
  handles : ∀ c, t.handle c < t.nextId
  unique : ∀ s ∈ t.sources, ∀ s' ∈ t.sources, s.id = s'.id → s.callback = s'.callback

section Sources

variable {κ : Type*} {t : Timers κ} {busy : Nat} {c : κ}

theorem Tracked.empty : Tracked ({} : Timers κ) busy where
  numbered s hs := by cases hs
  held s hs := by cases hs
  handles _ := Nat.zero_lt_one
  unique s hs := by cases hs

/-- A handle that is clear has no source. -/
theorem Tracked.absent (h : Tracked t busy) (hc : t.handle c = 0) {s : Source κ}
    (hs : s ∈ t.sources) (hbusy : s.id ≠ busy) : s.callback ≠ c := by
  intro heq
  have hheld := h.held s hs hbusy
  rw [heq, hc] at hheld
  have := (h.numbered s hs).1
  omega

theorem mem_remove {s : Source κ} {id : Nat} :
    s ∈ (t.remove id).sources ↔ s ∈ t.sources ∧ s.id ≠ id := by
  simp [remove]

theorem Tracked.remove (h : Tracked t busy) (id : Nat) : Tracked (t.remove id) busy where
  numbered s hs := h.numbered s (mem_remove.mp hs).1
  held s hs hne := h.held s (mem_remove.mp hs).1 hne
  handles := h.handles
  unique s hs s' hs' := h.unique s (mem_remove.mp hs).1 s' (mem_remove.mp hs').1

/-- The dispatched source is gone. -/
theorem Tracked.removed (h : Tracked t busy) : Tracked (t.remove busy) 0 where
  numbered s hs := h.numbered s (mem_remove.mp hs).1
  held s hs _ := h.held s (mem_remove.mp hs).1 (mem_remove.mp hs).2
  handles := h.handles
  unique s hs s' hs' := h.unique s (mem_remove.mp hs).1 s' (mem_remove.mp hs').1

/-- Any source can be dispatched. -/
theorem Tracked.dispatch (h : Tracked t 0) (busy : Nat) : Tracked t busy where
  numbered := h.numbered
  held s hs _ := h.held s hs (Nat.ne_of_gt (h.numbered s hs).1)
  handles := h.handles
  unique := h.unique

theorem mem_again {s : Source κ} {id due : Nat} (hs : s ∈ (t.again id due).sources) :
    ∃ s' ∈ t.sources, s.id = s'.id ∧ s.callback = s'.callback ∧
      (s.due = s'.due ∨ (s.id = id ∧ s.due = due)) := by
  obtain ⟨s', hs', rfl⟩ := List.mem_map.mp hs
  refine ⟨s', hs', ?_⟩
  split
  · next hid => exact ⟨rfl, rfl, Or.inr ⟨hid, rfl⟩⟩
  · exact ⟨rfl, rfl, Or.inl rfl⟩

theorem Tracked.again (h : Tracked t busy) (id due : Nat) : Tracked (t.again id due) busy where
  numbered s hs := by
    obtain ⟨s', hs', hid, -⟩ := mem_again hs
    rw [hid]
    exact h.numbered s' hs'
  held s hs hne := by
    obtain ⟨s', hs', hid, hcallback, -⟩ := mem_again hs
    rw [hcallback, hid]
    exact h.held s' hs' (by rwa [← hid])
  handles := h.handles
  unique s hs u hu heq := by
    obtain ⟨s', hs', hid, hcallback, -⟩ := mem_again hs
    obtain ⟨u', hu', hid', hcallback', -⟩ := mem_again hu
    rw [hcallback, hcallback']
    exact h.unique s' hs' u' hu' (by rw [← hid, ← hid', heq])

end Sources

section Handles

variable {κ : Type*} [DecidableEq κ] {t : Timers κ} {busy : Nat} {c : κ}

theorem mem_arm {s : Source κ} {due : Nat} :
    s ∈ (t.arm c due).sources ↔ s = ⟨t.nextId, c, due⟩ ∨ s ∈ t.sources :=
  List.mem_cons

theorem handle_arm_self (due : Nat) : (t.arm c due).handle c = t.nextId := by
  simp [arm]

theorem handle_arm_ne {due : Nat} {c' : κ} (hne : c' ≠ c) :
    (t.arm c due).handle c' = t.handle c' := by
  simp [arm, hne]

theorem handle_forget_self : (t.forget c).handle c = 0 := by
  simp [forget]

theorem handle_forget_ne {c' : κ} (hne : c' ≠ c) : (t.forget c).handle c' = t.handle c' := by
  simp [forget, hne]

theorem handle_clear : (t.clear c).handle c = 0 := by
  unfold clear
  split
  · next hzero => exact hzero
  · exact handle_forget_self

theorem handle_clear_ne {c' : κ} (hne : c' ≠ c) : (t.clear c).handle c' = t.handle c' := by
  unfold clear
  split
  · rfl
  · exact handle_forget_ne hne

theorem mem_of_clear {s : Source κ} (hs : s ∈ (t.clear c).sources) : s ∈ t.sources := by
  unfold clear at hs
  split at hs
  · exact hs
  · exact (mem_remove.mp hs).1

/-- A timer can be armed when its handle is clear. -/
theorem Tracked.arm (h : Tracked t busy) (hc : t.handle c = 0)
    (due : Nat) : Tracked (t.arm c due) busy where
  numbered s hs := by
    obtain rfl | hs := mem_arm.mp hs
    · exact ⟨Nat.lt_of_le_of_lt (Nat.zero_le _) (h.handles c), Nat.lt_succ_self t.nextId⟩
    · obtain ⟨hpos, hlt⟩ := h.numbered s hs
      exact ⟨hpos, Nat.lt_succ_of_lt hlt⟩
  held s hs hne := by
    obtain rfl | hs := mem_arm.mp hs
    · exact handle_arm_self due
    · rw [handle_arm_ne (h.absent hc hs hne)]
      exact h.held s hs hne
  handles c' := by
    by_cases heq : c' = c
    · subst heq
      rw [handle_arm_self]
      exact Nat.lt_succ_self t.nextId
    · rw [handle_arm_ne heq]
      exact Nat.lt_succ_of_lt (h.handles c')
  unique s hs u hu heq := by
    obtain rfl | hs := mem_arm.mp hs <;> obtain rfl | hu := mem_arm.mp hu
    · rfl
    · exact absurd heq.symm (Nat.ne_of_lt (h.numbered u hu).2)
    · exact absurd heq (Nat.ne_of_lt (h.numbered s hs).2)
    · exact h.unique s hs u hu heq

theorem Tracked.forget (h : Tracked t busy) (hc : ∀ s ∈ t.sources, s.id ≠ busy → s.callback ≠ c) :
    Tracked (t.forget c) busy where
  numbered := h.numbered
  held s hs hne := by
    rw [handle_forget_ne (hc s hs hne)]
    exact h.held s hs hne
  handles c' := by
    have hpos : 0 < t.nextId := Nat.lt_of_le_of_lt (Nat.zero_le _) (h.handles c)
    by_cases heq : c' = c
    · subst heq
      rw [handle_forget_self]
      exact hpos
    · rw [handle_forget_ne heq]
      exact h.handles c'
  unique := h.unique

/-- The callback that is running forgets its own handle. -/
theorem Tracked.forgetOwn (h : Tracked t 0) {s : Source κ} (hs : s ∈ t.sources) :
    Tracked (t.forget s.callback) s.id := by
  apply (h.dispatch s.id).forget
  intro u hu hne heq
  have hheld := h.held u hu (Nat.ne_of_gt (h.numbered u hu).1)
  rw [heq, h.held s hs (Nat.ne_of_gt (h.numbered s hs).1)] at hheld
  exact hne hheld.symm

theorem Tracked.clear (h : Tracked t busy) : Tracked (t.clear c) busy := by
  unfold Timers.clear
  split
  · exact h
  · apply (h.remove (t.handle c)).forget
    intro s hs hne heq
    obtain ⟨hmem, hid⟩ := mem_remove.mp hs
    have hheld := h.held s hmem hne
    rw [heq] at hheld
    exact hid hheld.symm

end Handles

end Timers

end HccastWired.Foundation
