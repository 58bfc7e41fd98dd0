import HccastWired.Foundation.Grouping

/-!
# Evaluation that can raise

An expression of the interpreter returns a value or raises. Where every part of it
returns, the whole returns the value of the pure expression.
-/

namespace HccastWired.Foundation

/-- What an expression raises. -/
inductive Raised
  | value (text : String)
  | zeroDivision
  | type
  | key
  | index
  | overflow
  | emptySequence
  | statistics
deriving DecidableEq, Repr

abbrev Checked (α : Type) := Except Raised α

namespace Checked

variable {α β κ : Type}

/-- An operand, which may not be `None`. -/
def known : Option α → Checked α
  | some x => .ok x
  | none => .error .type

/-- `sequence[0]`. -/
def first : List α → Checked α
  | x :: _ => .ok x
  | [] => .error .index

/-- `table[key]`. -/
def entry [BEq κ] (table : List (κ × α)) (key : κ) : Checked α :=
  match table.lookup key with
  | some x => .ok x
  | none => .error .key

/-- `max` or `min`, by which of two values is better. -/
def extreme (better : α → α → Bool) (xs : List α) : Checked α :=
  match firstBest better xs with
  | some x => .ok x
  | none => .error .emptySequence

/-- `max` or `min` by a key, which is computed once for each value. -/
def extremeBy (key : α → Checked κ) (better : κ → κ → Bool) (xs : List α) : Checked α := do
  let keyed ← xs.mapM fun x => do return (x, ← key x)
  return (← extreme (fun a b => better a.2 b.2) keyed).1

/-- `max(xs, key=key) if xs else None`, and the same for `min`. -/
def extremeByOrNone (key : α → Checked κ) (better : κ → κ → Bool) (xs : List α) :
    Checked (Option α) :=
  if xs.isEmpty then .ok none else some <$> extremeBy key better xs

/-- `[x for x in xs if keep(x)]`. -/
def select (keep : α → Checked Bool) : List α → Checked (List α)
  | [] => .ok []
  | x :: xs => do
      let kept ← keep x
      let rest ← select keep xs
      return if kept then x :: rest else rest

/-- `any(test(x) for x in xs)`, which stops at the first one. -/
def anyOf (test : α → Checked Bool) : List α → Checked Bool
  | [] => .ok false
  | x :: xs => do if ← test x then return true else anyOf test xs

/-- `all(test(x) for x in xs)`, which stops at the first failure. -/
def allOf (test : α → Checked Bool) : List α → Checked Bool
  | [] => .ok true
  | x :: xs => do if ← test x then allOf test xs else return false

@[simp] theorem ok_bind (x : α) (f : α → Checked β) : ((Except.ok x : Checked α) >>= f) = f x := rfl

@[simp] theorem pure_eq (x : α) : (pure x : Checked α) = .ok x := rfl

@[simp] theorem known_some (x : α) : known (some x) = .ok x := rfl

variable {key : α → Checked κ} {value : α → κ} {better : κ → κ → Bool} {f : α → Checked β}
  {g : α → β} {test : α → Checked Bool} {p : α → Bool} {xs : List α} {x : α}

theorem mapM_ok (h : ∀ x ∈ xs, f x = .ok (g x)) : xs.mapM f = .ok (xs.map g) := by
  induction xs with
  | nil => rfl
  | cons x xs ih =>
      obtain ⟨hx, hxs⟩ := List.forall_mem_cons.mp h
      rw [List.mapM_cons, hx, ok_bind, ih hxs]
      rfl

theorem select_ok (h : ∀ x ∈ xs, test x = .ok (p x)) : select test xs = .ok (xs.filter p) := by
  induction xs with
  | nil => rfl
  | cons x xs ih =>
      obtain ⟨hx, hxs⟩ := List.forall_mem_cons.mp h
      rw [select, hx, ok_bind, ih hxs, ok_bind, List.filter_cons]
      rfl

theorem anyOf_ok (h : ∀ x ∈ xs, test x = .ok (p x)) : anyOf test xs = .ok (xs.any p) := by
  induction xs with
  | nil => rfl
  | cons x xs ih =>
      obtain ⟨hx, hxs⟩ := List.forall_mem_cons.mp h
      rw [anyOf, hx, ok_bind, List.any_cons]
      cases p x with
      | true => rfl
      | false => exact ih hxs

theorem allOf_ok (h : ∀ x ∈ xs, test x = .ok (p x)) : allOf test xs = .ok (xs.all p) := by
  induction xs with
  | nil => rfl
  | cons x xs ih =>
      obtain ⟨hx, hxs⟩ := List.forall_mem_cons.mp h
      rw [allOf, hx, ok_bind, List.all_cons]
      cases p x with
      | true => exact ih hxs
      | false => rfl

theorem extreme_ok {better : α → α → Bool} (h : firstBest better xs = some x) :
    extreme better xs = .ok x := by
  rw [extreme, h]

/-- The best image is the image of the best. -/
theorem firstBest_map (better : β → β → Bool) (g : α → β) (xs : List α) :
    firstBest better (xs.map g) = (firstBest (fun a b => better (g a) (g b)) xs).map g := by
  cases xs with
  | nil => rfl
  | cons x xs =>
      simp only [List.map_cons, firstBest, Option.map_some, Option.some.injEq]
      induction xs generalizing x with
      | nil => rfl
      | cons y xs ih =>
          simp only [List.map_cons, List.foldl_cons]
          rw [← ih]
          congr 1
          split <;> rfl

theorem firstBest_congr {worth worth' : α → α → Bool}
    (h : ∀ a ∈ xs, ∀ b ∈ xs, worth a b = worth' a b) : firstBest worth xs = firstBest worth' xs := by
  cases xs with
  | nil => rfl
  | cons first rest =>
      have hfold : ∀ (ys : List α) (best : α), best ∈ first :: rest → (∀ y ∈ ys, y ∈ first :: rest) →
          ys.foldl (fun best y => if worth y best then y else best) best =
            ys.foldl (fun best y => if worth' y best then y else best) best := by
        intro ys
        induction ys with
        | nil => exact fun best _ _ => rfl
        | cons y ys ih =>
            intro best hbest hys
            obtain ⟨hy, hrest⟩ := List.forall_mem_cons.mp hys
            rw [List.foldl_cons, List.foldl_cons, h y hy best hbest]
            apply ih _ _ hrest
            split
            · exact hy
            · exact hbest
      exact congrArg some (hfold rest first List.mem_cons_self
        fun y hy => List.mem_cons_of_mem _ hy)

theorem extremeBy_ok (hkey : ∀ x ∈ xs, key x = .ok (value x))
    (h : firstBest (fun a b => better (value a) (value b)) xs = some x) :
    extremeBy key better xs = .ok x := by
  have hkeyed : (xs.mapM fun x => do return (x, ← key x)) = .ok (xs.map fun x => (x, value x)) := by
    apply mapM_ok
    intro x hx
    rw [hkey x hx]
    rfl
  have hbest : firstBest (fun a b : α × κ => better a.2 b.2) (xs.map fun x => (x, value x)) =
      some (x, value x) := by
    rw [firstBest_map, h]
    rfl
  rw [extremeBy, hkeyed, ok_bind, extreme_ok hbest]
  rfl

/-- A choice among elements whose keys return. -/
theorem extremeBy_firstBest (better : κ → κ → Bool) (hkey : ∀ x ∈ xs, key x = .ok (value x))
    (hne : xs ≠ []) : ∃ x ∈ xs, firstBest (fun a b => better (value a) (value b)) xs = some x ∧
      extremeBy key better xs = .ok x := by
  obtain ⟨x, hx⟩ : ∃ x, firstBest (fun a b => better (value a) (value b)) xs = some x :=
    firstBest_isSome hne
  exact ⟨x, firstBest_mem hx, hx, extremeBy_ok hkey hx⟩

theorem extremeByOrNone_ok (better : κ → κ → Bool) (hkey : ∀ x ∈ xs, key x = .ok (value x)) :
    extremeByOrNone key better xs = .ok (firstBest (fun a b => better (value a) (value b)) xs) := by
  cases xs with
  | nil => rfl
  | cons x xs =>
      obtain ⟨y, -, hbest, heval⟩ := extremeBy_firstBest better hkey (List.cons_ne_nil x xs)
      rw [extremeByOrNone, if_neg (by simp), hbest, heval]
      rfl

end Checked

end HccastWired.Foundation
