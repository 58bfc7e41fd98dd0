import Mathlib

/-!
# Groups and choices in the order of a list

Groups keep the order in which their keys first occur. A choice takes the first
of the best elements, whatever the comparison is. A map that can fail has the
images of all elements when it did not.
-/

namespace HccastWired.Foundation

section Groups

variable {α κ : Type*} [DecidableEq κ] (key : α → κ)

/-- The elements by their keys, in the order in which the keys first occur. -/
def groupBy (xs : List α) : List (List α) :=
  (xs.map key).eraseDups.map fun k => xs.filter fun x => decide (key x = k)

variable {key} {xs group : List α} {x y : α}

theorem mem_groupBy : group ∈ groupBy key xs ↔
    ∃ x ∈ xs, group = xs.filter fun y => decide (key y = key x) := by
  simp only [groupBy, List.mem_map, List.mem_eraseDups]
  constructor
  · rintro ⟨k, ⟨x, hx, rfl⟩, rfl⟩
    exact ⟨x, hx, rfl⟩
  · rintro ⟨x, hx, rfl⟩
    exact ⟨key x, ⟨x, hx, rfl⟩, rfl⟩

/-- A group holds all elements of the key of one of its elements. -/
theorem mem_group_iff (h : group ∈ groupBy key xs) (hx : x ∈ group) :
    y ∈ group ↔ y ∈ xs ∧ key y = key x := by
  obtain ⟨z, -, rfl⟩ := mem_groupBy.mp h
  have hkey : key x = key z := of_decide_eq_true (List.mem_filter.mp hx).2
  rw [List.mem_filter, hkey, decide_eq_true_iff]

/-- Each element is in the group of its key. -/
theorem exists_group (key : α → κ) (hx : x ∈ xs) : ∃ group ∈ groupBy key xs, x ∈ group :=
  ⟨_, mem_groupBy.mpr ⟨x, hx, rfl⟩, List.mem_filter.mpr ⟨hx, decide_eq_true rfl⟩⟩

end Groups

section Choice

variable {α : Type*} (better : α → α → Bool)

/-- The first element that no later one is better than. -/
def firstBest : List α → Option α
  | [] => none
  | x :: rest => some (rest.foldl (fun best y => if better y best then y else best) x)

variable {better} {xs : List α} {x : α}

theorem firstBest_mem (h : firstBest better xs = some x) : x ∈ xs := by
  cases xs with
  | nil => cases h
  | cons first rest =>
      have hfold : ∀ (rest : List α) (best : α),
          rest.foldl (fun best y => if better y best then y else best) best ∈ best :: rest := by
        intro rest
        induction rest with
        | nil => exact fun best => List.mem_cons_self
        | cons y rest ih =>
            intro best
            rw [List.foldl_cons]
            split
            · exact List.mem_cons_of_mem _ (ih y)
            · rcases List.mem_cons.mp (ih best) with heq | hmem
              · rw [heq]
                exact List.mem_cons_self
              · exact List.mem_cons_of_mem _ (List.mem_cons_of_mem _ hmem)
      cases Option.some.inj h
      exact hfold rest first

theorem firstBest_isSome (h : xs ≠ []) : ∃ x, firstBest better xs = some x := by
  cases xs with
  | nil => exact absurd rfl h
  | cons first rest => exact ⟨_, rfl⟩

theorem firstBest_nil : firstBest better ([] : List α) = none := rfl

theorem firstBest_append_singleton (better : α → α → Bool) (xs : List α) (x : α) :
    firstBest better (xs ++ [x]) =
      some (match firstBest better xs with
        | none => x
        | some best => if better x best then x else best) := by
  cases xs with
  | nil => rfl
  | cons first rest =>
      rw [List.cons_append, firstBest, List.foldl_append]
      rfl

/-- Where being better is having the greater key, the choice has a greater key
than all before it, and no smaller one than those behind it. -/
theorem firstBest_first {κ : Type*} [LinearOrder κ] (key : α → κ)
    (hbetter : ∀ x ∈ xs, ∀ y ∈ xs, better x y = true ↔ key y < key x)
    (h : firstBest better xs = some x) :
    ∃ before after, xs = before ++ x :: after ∧ (∀ y ∈ before, key y < key x) ∧
      ∀ y ∈ after, key y ≤ key x := by
  -- the induction is on the items seen so far
  induction xs using List.reverseRecOn generalizing x with
  | nil => cases h
  | append_singleton xs last ih =>
      have hseen : ∀ y ∈ xs, ∀ z ∈ xs, better y z = true ↔ key z < key y :=
        fun y hy z hz => hbetter y (List.mem_append_left _ hy) z (List.mem_append_left _ hz)
      rw [firstBest_append_singleton] at h
      cases hbest : firstBest better xs with
      | none =>
          have hnil : xs = [] := by
            by_contra hne
            obtain ⟨y, hy⟩ : ∃ y, firstBest better xs = some y := firstBest_isSome hne
            rw [hbest] at hy
            cases hy
          rw [hbest] at h
          cases h
          exact ⟨[], [], by rw [hnil], by simp, by simp⟩
      | some best =>
          rw [hbest] at h
          obtain ⟨before, after, hat, hbefore, hafter⟩ := ih hseen hbest
          have hmem : best ∈ xs := firstBest_mem hbest
          have hlast := hbetter last (List.mem_append_right _ List.mem_cons_self) best
            (List.mem_append_left _ hmem)
          by_cases hreplace : better last best = true
          · simp only [if_pos hreplace, Option.some.injEq] at h
            subst h
            have hlt := hlast.mp hreplace
            refine ⟨xs, [], rfl, ?_, by simp⟩
            intro y hy
            rw [hat, List.mem_append, List.mem_cons] at hy
            rcases hy with hy | rfl | hy
            · exact (hbefore y hy).trans hlt
            · exact hlt
            · exact (hafter y hy).trans_lt hlt
          · simp only [if_neg hreplace, Option.some.injEq] at h
            subst h
            refine ⟨before, after ++ [last], by rw [hat]; simp, hbefore, ?_⟩
            intro y hy
            rcases List.mem_append.mp hy with hy | hy
            · exact hafter y hy
            · rw [List.mem_singleton.mp hy]
              exact not_lt.mp fun hlt => hreplace (hlast.mpr hlt)

end Choice

section Map

variable {α β : Type*} {f : α → Option β} {xs : List α} {ys : List β}

/-- A map that failed nowhere has the image of each element, and nothing else. -/
theorem mem_of_mapM (h : xs.mapM f = some ys) :
    (∀ y ∈ ys, ∃ x ∈ xs, f x = some y) ∧ ∀ x ∈ xs, ∃ y ∈ ys, f x = some y := by
  induction xs generalizing ys with
  | nil =>
      rw [List.mapM_nil] at h
      cases h
      simp
  | cons x xs ih =>
      rw [List.mapM_cons] at h
      obtain ⟨y, hy, h⟩ := Option.bind_eq_some_iff.mp h
      obtain ⟨rest, hrest, h⟩ := Option.bind_eq_some_iff.mp h
      cases h
      obtain ⟨hback, hforth⟩ := ih hrest
      constructor
      · intro z hz
        rcases List.mem_cons.mp hz with rfl | hz
        · exact ⟨x, List.mem_cons_self, hy⟩
        · obtain ⟨w, hw, hfw⟩ := hback z hz
          exact ⟨w, List.mem_cons_of_mem _ hw, hfw⟩
      · intro z hz
        rcases List.mem_cons.mp hz with rfl | hz
        · exact ⟨y, List.mem_cons_self, hy⟩
        · obtain ⟨w, hw, hfw⟩ := hforth z hz
          exact ⟨w, List.mem_cons_of_mem _ hw, hfw⟩

end Map

/-- A result that is there was returned. -/
theorem ok_of_toOption {ε α : Type*} {x : Except ε α} {a : α} (h : x.toOption = some a) :
    x = .ok a := by
  cases x with
  | error e => cases h
  | ok b => exact congrArg Except.ok (Option.some.inj h)

end HccastWired.Foundation
