import HccastWired.Foundation.Finally

/-!
# Tasks that end

A total triple says that a task ends, by a value or by an exception, and what holds then.
-/

namespace HccastWired.Foundation

namespace Task

variable {σ ε α β : Type}

/-- A task that starts in a state with the first property ends, in one with the others. -/
def Total (P : σ → Prop) (x : Task σ ε α) (Q : α → σ → Prop) (F : ε → σ → Prop) : Prop :=
  ∀ s, P s → x.wp (fun _ => True) Q (fun halt t => ∃ e, halt = .raised e ∧ F e t) s

variable {P P' : σ → Prop} {x : Task σ ε α} {f : α → Task σ ε β} {Q Q' : α → σ → Prop}
  {R : β → σ → Prop} {F F' : ε → σ → Prop}

/-- A task that raises nothing returns. -/
theorem Total.returns {s : σ} (h : Total P x Q fun _ _ => False) (hs : P s) :
    ∃ a, (x s).1 = .ok a ∧ Q a (x.final s) :=
  Call.wp.returns ((h s hs).mono (fun _ _ ha => ha) (by
    rintro halt t ⟨e, -, he⟩
    exact he))

theorem Total.pure {a : α} (h : ∀ s, P s → Q a s) : Total P (pure a : Task σ ε α) Q F :=
  fun s hs => (Call.wp_pure a).mpr (h s hs)

theorem Total.raise {e : ε} (h : ∀ s, P s → F e s) : Total P (Task.raise e : Task σ ε α) Q F :=
  fun s hs => (Call.wp_throw _).mpr ⟨e, rfl, h s hs⟩

theorem Total.ofAnswer {answer : Except ε α} (hok : ∀ a s, P s → Q a s) (herror : ∀ e s, P s → F e s) :
    Total P (Task.ofAnswer answer : Task σ ε α) Q F := by
  cases answer with
  | ok a => exact Total.pure (hok a)
  | error e => exact Total.raise (herror e)

theorem Total.update {g : σ → σ} {Q : Unit → σ → Prop} (h : ∀ s, P s → Q () (g s)) :
    Total P (Call.update g : Task σ ε Unit) Q F :=
  fun s hs => Call.wp_update.mpr ⟨trivial, h s hs⟩

theorem Total.bind (hx : Total P x Q F) (hf : ∀ a, Total (Q a) (f a) R F) : Total P (x >>= f) R F := by
  intro s hs
  apply Call.wp_bind.mpr
  exact (hx s hs).mono (fun a t ha => hf a t ha) fun _ _ he => he

/-- The state at a point of the task. -/
theorem Total.bindGet {f : σ → Task σ ε β}
    (h : ∀ s, P s → Total (fun t => t = s ∧ P t) (f s) R F) : Total P (Call.get >>= f) R F := by
  intro s hs
  apply Call.wp_bind.mpr
  apply Call.wp_get.mpr
  exact h s hs s ⟨rfl, hs⟩

theorem Total.conseq (h : Total P x Q F) (hP : ∀ s, P' s → P s) (hQ : ∀ a s, Q a s → Q' a s)
    (hF : ∀ e s, F e s → F' e s) : Total P' x Q' F' := by
  intro s hs
  refine (h s (hP s hs)).mono hQ ?_
  rintro halt t ⟨e, rfl, he⟩
  exact ⟨e, rfl, hF e t he⟩

theorem Total.pre (h : Total P x Q F) (hP : ∀ s, P' s → P s) : Total P' x Q F :=
  h.conseq hP (fun _ _ hq => hq) fun _ _ hf => hf

theorem Total.post (h : Total P x Q F) (hQ : ∀ a s, Q a s → Q' a s) : Total P x Q' F :=
  h.conseq (fun _ hp => hp) hQ fun _ _ hf => hf

/-- A fact about the state that a task starts in. -/
theorem Total.given {p : Prop} (h : p → Total P x Q F) : Total (fun s => p ∧ P s) x Q F :=
  fun s hs => h hs.1 s hs.2

theorem Total.when {condition : Bool} {x : Task σ ε Unit} {Q : Unit → σ → Prop}
    (h : condition = true → Total P x Q F) (hskip : condition = false → ∀ s, P s → Q () s) :
    Total P (Task.when condition x) Q F := by
  cases condition with
  | true => exact h rfl
  | false => exact Total.pure (hskip rfl)

theorem Total.refuse {condition : Bool} {e : ε} {Q : Unit → σ → Prop} (h : ∀ s, P s → F e s)
    (hskip : condition = false → ∀ s, P s → Q () s) : Total P (Task.refuse condition e) Q F :=
  Total.when (fun _ => Total.raise h) hskip

theorem Total.settle (h : Total P x Q F) :
    Total P (Task.settle x)
      (fun outcome s =>
        match outcome with
        | .ok a => Q a s
        | .error e => F e s)
      F' := by
  intro s hs
  apply Call.wp_tryCatch.mpr
  apply Call.wp_bind.mpr
  refine (h s hs).mono (fun a t ha => (Call.wp_pure _).mpr ha) ?_
  rintro halt t ⟨e, rfl, he⟩
  exact (Call.wp_pure _).mpr he

theorem Total.forM {ι : Type} {f : ι → Task σ ε PUnit} (h : ∀ i, Total P (f i) (fun _ => P) F)
    (items : List ι) : Total P (items.forM f) (fun _ => P) F := by
  induction items with
  | nil => exact Total.pure fun _ hs => hs
  | cons i items ih =>
    rw [List.forM_eq_forM, List.forM_cons]
    exact Total.bind (h i) fun _ => ih

end Task

end HccastWired.Foundation
