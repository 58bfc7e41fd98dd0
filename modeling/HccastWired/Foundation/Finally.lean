import HccastWired.Foundation.Call

/-!
# Calls with cleanup

A task is a call whose error is an exception that handlers and `finally` clauses see,
or that it has not ended within its fuel, which they do not see. A triple says what holds
after a task that has ended, by a value or by an exception.
-/

namespace HccastWired.Foundation

inductive Halt (ε : Type)
  | raised (e : ε)
  | unfinished

abbrev Task (σ ε α : Type) : Type := Call σ (Halt ε) α

namespace Task

variable {σ ε α β : Type}

def raise (e : ε) : Task σ ε α := throw (.raised e)

def unfinished : Task σ ε α := throw .unfinished

def ofAnswer : Except ε α → Task σ ε α
  | .ok a => pure a
  | .error e => raise e

/-- The value or the exception of a task that has ended. -/
def settle (x : Task σ ε α) : Task σ ε (Except ε α) :=
  tryCatch (do
    let a ← x
    pure (.ok a)) fun
    | .raised e => pure (.error e)
    | .unfinished => unfinished

/-- `try: x finally: y`; an exception of the clause replaces that of the body. -/
def finallyDo (x : Task σ ε α) (y : Task σ ε β) : Task σ ε (α × β) := do
  let outcome ← settle x
  let b ← y
  let a ← ofAnswer outcome
  pure (a, b)

/-- `if condition: x`. -/
def when (condition : Bool) (x : Task σ ε Unit) : Task σ ε Unit :=
  if condition then x else pure ()

/-- `if condition: raise e`. -/
def refuse (condition : Bool) (e : ε) : Task σ ε Unit :=
  when condition (raise e)

/-- What a task that starts in a state with the first property ends in. -/
def Triple (P : σ → Prop) (x : Task σ ε α) (Q : α → σ → Prop) (F : ε → σ → Prop) : Prop :=
  ∀ s, P s → x.wp (fun _ => True) Q
    (fun e t =>
      match e with
      | .raised e => F e t
      | .unfinished => True) s

variable {P P' : σ → Prop} {x : Task σ ε α} {f : α → Task σ ε β} {Q Q' : α → σ → Prop}
  {R : β → σ → Prop} {F F' : ε → σ → Prop}

theorem Triple.pure {a : α} (h : ∀ s, P s → Q a s) : Triple P (pure a : Task σ ε α) Q F :=
  fun s hs => (Call.wp_pure a).mpr (h s hs)

theorem Triple.raise {e : ε} (h : ∀ s, P s → F e s) :
    Triple P (Task.raise e : Task σ ε α) Q F :=
  fun s hs => (Call.wp_throw _).mpr (h s hs)

theorem Triple.unfinished : Triple P (Task.unfinished : Task σ ε α) Q F :=
  fun _ _ => (Call.wp_throw _).mpr trivial

theorem Triple.ofAnswer {answer : Except ε α} (hok : ∀ a s, answer = .ok a → P s → Q a s)
    (herror : ∀ e s, answer = .error e → P s → F e s) :
    Triple P (Task.ofAnswer answer : Task σ ε α) Q F := by
  cases answer with
  | ok a => exact Triple.pure fun s hs => hok a s rfl hs
  | error e => exact Triple.raise fun s hs => herror e s rfl hs

theorem Triple.update {g : σ → σ} {Q : Unit → σ → Prop} (h : ∀ s, P s → Q () (g s)) :
    Triple P (Call.update g : Task σ ε Unit) Q F :=
  fun s hs => Call.wp_update.mpr ⟨trivial, h s hs⟩

theorem Triple.get {Q : σ → σ → Prop} (h : ∀ s, P s → Q s s) :
    Triple P (Call.get : Task σ ε σ) Q F :=
  fun s hs => Call.wp_get.mpr (h s hs)

theorem Triple.bind (hx : Triple P x Q F) (hf : ∀ a, Triple (Q a) (f a) R F) :
    Triple P (x >>= f) R F := by
  intro s hs
  apply Call.wp_bind.mpr
  exact (hx s hs).mono (fun a t ha => hf a t ha) fun _ _ he => he

theorem Triple.pureBind {a : α} (h : Triple P (f a) R F) :
    Triple P ((Pure.pure a : Task σ ε α) >>= f) R F := by
  intro s hs
  apply Call.wp_bind.mpr
  apply (Call.wp_pure a).mpr
  exact h s hs

/-- The state at a point of the task. -/
theorem Triple.bindGet {f : σ → Task σ ε β}
    (h : ∀ s, P s → Triple (fun t => t = s ∧ P t) (f s) R F) : Triple P (Call.get >>= f) R F := by
  intro s hs
  apply Call.wp_bind.mpr
  apply Call.wp_get.mpr
  exact h s hs s ⟨rfl, hs⟩

theorem Triple.conseq (h : Triple P x Q F) (hP : ∀ s, P' s → P s) (hQ : ∀ a s, Q a s → Q' a s)
    (hF : ∀ e s, F e s → F' e s) : Triple P' x Q' F' := by
  intro s hs
  refine (h s (hP s hs)).mono hQ ?_
  intro e t he
  cases e with
  | raised e => exact hF e t he
  | unfinished => trivial

theorem Triple.pre (h : Triple P x Q F) (hP : ∀ s, P' s → P s) : Triple P' x Q F :=
  h.conseq hP (fun _ _ hq => hq) fun _ _ hf => hf

theorem Triple.post (h : Triple P x Q F) (hQ : ∀ a s, Q a s → Q' a s) : Triple P x Q' F :=
  h.conseq (fun _ hp => hp) hQ fun _ _ hf => hf

theorem Triple.when {condition : Bool} {x : Task σ ε Unit} {Q : Unit → σ → Prop}
    (h : condition = true → Triple P x Q F) (hskip : condition = false → ∀ s, P s → Q () s) :
    Triple P (Task.when condition x) Q F := by
  cases condition with
  | true => exact h rfl
  | false => exact Triple.pure (hskip rfl)

theorem Triple.refuse {condition : Bool} {e : ε} {Q : Unit → σ → Prop}
    (h : condition = true → ∀ s, P s → F e s) (hskip : condition = false → ∀ s, P s → Q () s) :
    Triple P (Task.refuse condition e) Q F :=
  Triple.when (fun hc => Triple.raise (h hc)) hskip

/-- A fact about the state that a task starts in. -/
theorem Triple.given {p : Prop} (h : p → Triple P x Q F) : Triple (fun s => p ∧ P s) x Q F :=
  fun s hs => h hs.1 s hs.2

theorem Triple.settle (h : Triple P x Q F) :
    Triple P (Task.settle x)
      (fun outcome s =>
        match outcome with
        | .ok a => Q a s
        | .error e => F e s)
      F' := by
  intro s hs
  apply Call.wp_tryCatch.mpr
  apply Call.wp_bind.mpr
  refine (h s hs).mono (fun a t ha => (Call.wp_pure _).mpr ha) ?_
  intro e t he
  cases e with
  | raised e => exact (Call.wp_pure _).mpr he
  | unfinished => exact (Call.wp_throw _).mpr trivial

/-- The clause runs after the value of the body as after its exception. -/
theorem Triple.finallyDo {y : Task σ ε β} {S : α → β → σ → Prop} {E F : ε → σ → Prop}
    (hx : Triple P x Q E) (hok : ∀ a, Triple (Q a) y (S a) F)
    (herror : ∀ e, Triple (E e) y (fun _ => F e) F) :
    Triple P (Task.finallyDo x y) (fun p => S p.1 p.2) F := by
  refine Triple.bind hx.settle fun outcome => ?_
  cases outcome with
  | ok a =>
      refine Triple.bind (hok a) fun b => ?_
      exact @Triple.bind _ _ _ _ _ _ _ (fun a' t => a' = a ∧ S a b t) _ _
        (Triple.pure fun _ hs => ⟨rfl, hs⟩)
        fun a' => Triple.given fun ha => Triple.pure fun _ hs => ha ▸ hs
  | error e =>
      refine Triple.bind (herror e) fun b => ?_
      exact @Triple.bind _ _ _ _ _ _ _ (fun _ _ => False) _ _
        (Triple.raise fun _ hs => hs) fun a => Triple.pure fun _ hs => hs.elim

/-! ## Tasks without fuel -/

/-- A task that ends, from whatever state. -/
def Ends (x : Task σ ε α) : Prop :=
  ∀ s, x.wp (fun _ => True) (fun _ _ => True) (fun e _ => e ≠ .unfinished) s

theorem Ends.outcome (h : Ends x) (s : σ) : (x s).1 ≠ .error .unfinished :=
  fun houtcome => (h s).failed houtcome rfl

theorem Ends.pure (a : α) : Ends (pure a : Task σ ε α) :=
  fun _ => (Call.wp_pure a).mpr trivial

theorem Ends.raise (e : ε) : Ends (raise e : Task σ ε α) :=
  fun _ => (Call.wp_throw _).mpr (by simp)

theorem Ends.update (g : σ → σ) : Ends (Call.update g : Task σ ε Unit) :=
  fun _ => Call.wp_update.mpr ⟨trivial, trivial⟩

theorem Ends.get : Ends (Call.get : Task σ ε σ) :=
  fun _ => Call.wp_get.mpr trivial

theorem Ends.bind (hx : Ends x) (hf : ∀ a, Ends (f a)) : Ends (x >>= f) := by
  intro s
  apply Call.wp_bind.mpr
  exact (hx s).mono (fun a t _ => hf a t) fun _ _ he => he

theorem Ends.when {condition : Bool} {x : Task σ ε Unit} (h : Ends x) :
    Ends (when condition x) := by
  cases condition with
  | true => exact h
  | false => exact Ends.pure ()

theorem Ends.ite {condition : Prop} [Decidable condition] {x y : Task σ ε α} (hx : Ends x)
    (hy : Ends y) : Ends (if condition then x else y) := by
  split
  · exact hx
  · exact hy

theorem Ends.refuse (condition : Bool) (e : ε) : Ends (refuse condition e : Task σ ε Unit) :=
  Ends.when (Ends.raise e)

theorem Ends.ofAnswer (answer : Except ε α) : Ends (ofAnswer answer : Task σ ε α) := by
  cases answer with
  | ok a => exact Ends.pure a
  | error e => exact Ends.raise e

theorem Ends.settle (h : Ends x) : Ends (settle x) := by
  intro s
  apply Call.wp_tryCatch.mpr
  apply Call.wp_bind.mpr
  apply (h s).mono
  · exact fun a t _ => (Call.wp_pure _).mpr trivial
  · intro e t he
    cases e with
    | raised e => exact (Call.wp_pure _).mpr trivial
    | unfinished => exact absurd rfl he

theorem Ends.finallyDo {y : Task σ ε β} (hx : Ends x) (hy : Ends y) : Ends (finallyDo x y) := by
  apply Ends.bind hx.settle
  intro outcome
  apply Ends.bind hy
  intro b
  apply Ends.bind (Ends.ofAnswer outcome)
  exact fun a => Ends.pure (a, b)

end Task

end HccastWired.Foundation
