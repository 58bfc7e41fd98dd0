import Mathlib.Data.List.Infix

/-!
# A word in a sequence that arrives in parts

The first place of a word, and how much of a sequence has to be kept so that the word is
still found when the sequence goes on.
-/

namespace HccastWired.Foundation.WordSearch

variable {α : Type} {word xs ys : List α} {n : Nat}

theorem prefix_of_append (h : word <+: xs.drop n ++ ys) (hlength : n + word.length ≤ xs.length) :
    word <+: xs.drop n := by
  apply List.prefix_of_prefix_length_le h (List.prefix_append _ _)
  rw [List.length_drop]
  omega

/-- A suffix ends like the whole. -/
theorem drop_of_suffix (h : ys <:+ xs) (hn : n ≤ ys.length) :
    ys.drop (ys.length - n) = xs.drop (xs.length - n) := by
  obtain ⟨zs, rfl⟩ := h
  have hsplit : (zs ++ ys).length - n = zs.length + (ys.length - n) := by
    rw [List.length_append]
    omega
  rw [hsplit, List.drop_length_add_append]

/-- The first elements of the word, but not all, end the data. -/
def Held (word data : List α) (k : Nat) : Prop :=
  k < word.length ∧ word.take k <:+ data

theorem held_iff (hn : n < word.length) :
    Held word xs n ↔ n ≤ xs.length ∧ xs.drop (xs.length - n) = word.take n := by
  have hlength : (word.take n).length = n := List.length_take_of_le hn.le
  constructor
  · rintro ⟨-, hsuffix⟩
    have hle := hsuffix.length_le
    have hread := List.suffix_iff_eq_drop.mp hsuffix
    rw [hlength] at hle hread
    exact ⟨hle, hread.symm⟩
  · rintro ⟨-, hread⟩
    exact ⟨hn, hread ▸ List.drop_suffix _ _⟩

variable [DecidableEq α]

/-- `data.find(word)`. -/
def find (word : List α) : List α → Option Nat
  | [] => if word = [] then some 0 else none
  | a :: data => if word.isPrefixOf (a :: data) then some 0 else (find word data).map (· + 1)

/-- The longest part of the word, of at most so many elements, that the data ends with. -/
def overlapUpTo (word data : List α) : Nat → Nat
  | 0 => 0
  | n + 1 =>
      if data.drop (data.length - (n + 1)) = word.take (n + 1) then n + 1
      else overlapUpTo word data n

/-- The longest proper part of the word that the data ends with. -/
def overlap (word data : List α) : Nat :=
  overlapUpTo word data (min data.length (word.length - 1))

/-- The end of the data that may begin the word. -/
def kept (word data : List α) : List α :=
  data.drop (data.length - overlap word data)

section Find

theorem find_skip (h : ∀ j < n, ¬ word <+: xs.drop j) (hn : n ≤ xs.length) :
    find word xs = (find word (xs.drop n)).map (· + n) := by
  induction n generalizing xs with
  | zero => simp
  | succ n ih =>
    cases xs with
    | nil => simp at hn
    | cons a xs =>
      have hfirst : word.isPrefixOf (a :: xs) = false := by
        rw [← Bool.not_eq_true, List.isPrefixOf_iff_prefix]
        exact h 0 (Nat.succ_pos n)
      have hrest := @ih xs (fun j hj => h (j + 1) (by omega)) (Nat.le_of_succ_le_succ hn)
      rw [find, hfirst, if_neg (by decide), hrest, Option.map_map, List.drop_succ_cons]
      rfl

theorem find_prefix (h : word <+: xs) : find word xs = some 0 := by
  cases xs with
  | nil => rw [find, if_pos (List.prefix_nil.mp h)]
  | cons a xs => rw [find, if_pos (List.isPrefixOf_iff_prefix.mpr h)]

/-- The first place of the word is found. -/
theorem find_eq_some (hn : word <+: xs.drop n) (h : ∀ j < n, ¬ word <+: xs.drop j)
    (hlength : n ≤ xs.length) : find word xs = some n := by
  rw [find_skip h hlength, find_prefix hn, Option.map_some, Nat.zero_add]

theorem of_find_eq_some (h : find word xs = some n) :
    n ≤ xs.length ∧ word <+: xs.drop n ∧ ∀ j < n, ¬ word <+: xs.drop j := by
  induction xs generalizing n with
  | nil =>
    rw [find] at h
    split at h
    · next hword =>
      cases h
      simp [hword]
    · cases h
  | cons a xs ih =>
    rw [find] at h
    split at h
    · next hfirst =>
      cases h
      exact ⟨Nat.zero_le _, List.isPrefixOf_iff_prefix.mp hfirst, fun j hj => absurd hj (by omega)⟩
    · next hfirst =>
      obtain ⟨m, hm, rfl⟩ := Option.map_eq_some_iff.mp h
      obtain ⟨hle, hprefix, hearlier⟩ := ih hm
      refine ⟨Nat.succ_le_succ hle, hprefix, ?_⟩
      intro j hj
      cases j with
      | zero => rwa [List.isPrefixOf_iff_prefix] at hfirst
      | succ j => exact hearlier j (Nat.lt_of_succ_lt_succ hj)

theorem of_find_eq_none (h : find word xs = none) (n : Nat) : ¬ word <+: xs.drop n := by
  induction xs generalizing n with
  | nil =>
    rw [find] at h
    split at h
    · cases h
    · next hword => rwa [List.drop_nil, List.prefix_nil]
  | cons a xs ih =>
    rw [find] at h
    split at h
    · cases h
    · next hfirst =>
      cases n with
      | zero => rwa [List.isPrefixOf_iff_prefix] at hfirst
      | succ n => exact ih (Option.map_eq_none_iff.mp h) n

/-- A word with a place ends inside the sequence. -/
theorem end_le_of_find (h : find word xs = some n) : n + word.length ≤ xs.length := by
  obtain ⟨hle, hprefix, -⟩ := of_find_eq_some h
  have hlength := hprefix.length_le
  rw [List.length_drop] at hlength
  omega

/-- What follows does not change the first place of the word. -/
theorem find_append (h : find word xs = some n) (ys : List α) : find word (xs ++ ys) = some n := by
  obtain ⟨hle, hprefix, hearlier⟩ := of_find_eq_some h
  have hend := end_le_of_find h
  apply find_eq_some
  · rw [List.drop_append_of_le_length hle]
    exact hprefix.trans (List.prefix_append _ _)
  · intro j hj hplace
    rw [List.drop_append_of_le_length (by omega)] at hplace
    exact hearlier j hj (prefix_of_append hplace (by omega))
  · rw [List.length_append]
    omega

/-- A word without a proper part at both of its ends is first found where it is put behind
a sequence that does not hold it. -/
theorem find_put (hword : ∀ k < word.length, 0 < k → ¬ word.take k <:+ word)
    (h : find word xs = none) (ys : List α) : find word (xs ++ (word ++ ys)) = some xs.length := by
  apply find_eq_some
  · rw [List.drop_left]
    exact List.prefix_append _ _
  · intro j hj hplace
    rw [List.drop_append_of_le_length hj.le] at hplace
    by_cases hlength : j + word.length ≤ xs.length
    · exact of_find_eq_none h j (prefix_of_append hplace hlength)
    · -- The end of the word is read from the beginning of the word that was put there.
      apply hword (word.length - (xs.length - j)) (by omega) (by omega)
      have hread := List.prefix_iff_eq_take.mp hplace
      rw [List.take_append, List.length_drop, List.take_of_length_le (by rw [List.length_drop]; omega),
        List.take_append_of_le_length (by omega)] at hread
      exact ⟨_, hread.symm⟩
  · rw [List.length_append]
    omega

end Find

section Overlap

theorem overlapUpTo_le (word xs : List α) (n : Nat) : overlapUpTo word xs n ≤ n := by
  induction n with
  | zero => exact Nat.le_refl 0
  | succ n ih =>
    rw [overlapUpTo]
    split
    · exact Nat.le_refl _
    · exact ih.trans (Nat.le_succ n)

theorem overlap_le (word xs : List α) : overlap word xs ≤ xs.length :=
  (overlapUpTo_le word xs _).trans (Nat.min_le_left _ _)

theorem length_kept (word xs : List α) : (kept word xs).length = overlap word xs := by
  have hle := overlap_le word xs
  rw [kept, List.length_drop]
  omega

theorem kept_append_suffix (word xs ys : List α) : kept word xs ++ ys <:+ xs ++ ys := by
  obtain ⟨zs, hzs⟩ := List.drop_suffix (xs.length - overlap word xs) xs
  exact ⟨zs, by rw [kept, ← List.append_assoc, hzs]⟩

theorem overlapUpTo_held (hword : word ≠ []) (hxs : n ≤ xs.length) (hn : n < word.length) :
    Held word xs (overlapUpTo word xs n) ∧
      ∀ k ≤ n, Held word xs k → k ≤ overlapUpTo word xs n := by
  induction n with
  | zero =>
    constructor
    · exact ⟨List.length_pos_iff.mpr hword, by rw [overlapUpTo, List.take_zero]; exact List.nil_suffix⟩
    · intro k hk _
      exact hk
  | succ n ih =>
    obtain ⟨hheld, hmost⟩ := ih (by omega) (by omega)
    rw [overlapUpTo]
    split
    · next hread => exact ⟨(held_iff hn).mpr ⟨hxs, hread⟩, fun k hk _ => hk⟩
    · next hread =>
      refine ⟨hheld, ?_⟩
      intro k hk hkheld
      apply hmost k _ hkheld
      have hne : k ≠ n + 1 := by
        rintro rfl
        exact hread ((held_iff hn).mp hkheld).2
      omega

theorem overlap_held (hword : word ≠ []) (xs : List α) : Held word xs (overlap word xs) := by
  have hpos := List.length_pos_iff.mpr hword
  apply (overlapUpTo_held hword _ _).1
  · exact Nat.min_le_left _ _
  · omega

theorem le_overlap (hword : word ≠ []) (h : Held word xs n) : n ≤ overlap word xs := by
  have hpos := List.length_pos_iff.mpr hword
  have hle := ((held_iff h.1).mp h).1
  have hlt := h.1
  apply (overlapUpTo_held hword _ _).2 n _ h
  · exact Nat.min_le_left _ _
  · omega
  · omega

/-- The end of the data that is kept is enough to tell how the data ends later. -/
theorem held_kept (hword : word ≠ []) : Held word (kept word xs ++ ys) n ↔ Held word (xs ++ ys) n := by
  constructor
  · rintro ⟨hn, hsuffix⟩
    exact ⟨hn, hsuffix.trans (kept_append_suffix word xs ys)⟩
  · intro h
    have hn := h.1
    have hlength : (word.take n).length = n := List.length_take_of_le hn.le
    refine ⟨hn, ?_⟩
    apply List.suffix_of_suffix_length_le h.2 (kept_append_suffix word xs ys)
    rw [hlength, List.length_append, length_kept]
    by_contra hlong
    -- The part of the word that reaches into the earlier data would have been kept.
    obtain ⟨hle, hread⟩ := (held_iff hn).mp h
    rw [List.length_append] at hle hread
    rw [List.drop_append_of_le_length (by omega)] at hread
    have hearlier : Held word xs (n - ys.length) := by
      apply (held_iff (by omega)).mpr
      constructor
      · omega
      · have hshort := congrArg (List.take (n - ys.length)) hread
        rw [List.take_take, Nat.min_eq_left (Nat.sub_le _ _), List.take_left'] at hshort
        · rw [← hshort]
          congr 1
          omega
        · rw [List.length_drop]
          omega
    have hmost := le_overlap hword hearlier
    omega

theorem overlap_kept (hword : word ≠ []) (xs ys : List α) :
    overlap word (kept word xs ++ ys) = overlap word (xs ++ ys) := by
  apply Nat.le_antisymm
  · apply le_overlap hword
    exact (held_kept hword).mp (overlap_held hword _)
  · apply le_overlap hword
    exact (held_kept hword).mpr (overlap_held hword _)

/-- What is kept of the data and of what follows is kept of both together. -/
theorem kept_kept (hword : word ≠ []) (xs ys : List α) :
    kept word (kept word xs ++ ys) = kept word (xs ++ ys) := by
  rw [kept, drop_of_suffix (kept_append_suffix word xs ys) (overlap_le word _), overlap_kept hword]
  rfl

/-- The word is found behind data that does not hold it where it is found behind what is
kept of the data. -/
theorem find_kept (hword : word ≠ []) (h : find word xs = none) (ys : List α) :
    find word (xs ++ ys) =
      (find word (kept word xs ++ ys)).map (· + (xs.length - overlap word xs)) := by
  have hle := overlap_le word xs
  rw [kept, ← List.drop_append_of_le_length (Nat.sub_le _ _)]
  apply find_skip
  · intro j hj hplace
    rw [List.drop_append_of_le_length (by omega)] at hplace
    by_cases hlength : j + word.length ≤ xs.length
    · exact of_find_eq_none h j (prefix_of_append hplace hlength)
    · have hheld : Held word xs (xs.length - j) := by
        apply (held_iff (by omega)).mpr
        constructor
        · omega
        · have hread := congrArg (List.take (xs.length - j)) (List.prefix_iff_eq_take.mp hplace)
          rw [List.take_take, Nat.min_eq_left (by omega), List.take_left'] at hread
          · rw [hread]
            congr 1
            omega
          · rw [List.length_drop]
      have hmost := le_overlap hword hheld
      omega
  · rw [List.length_append]
    omega

end Overlap

end HccastWired.Foundation.WordSearch
