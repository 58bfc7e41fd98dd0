import HccastWired.Foundation.System

/-!
# Coroutines that take turns

A coroutine performs effects; at one that suspends it gives up control, and any other task
may run before it is answered. Between two suspensions nothing else runs, so a condition on
the shared state that every task restores before it suspends holds whenever a task runs on.
-/

namespace HccastWired.Foundation

/-- A coroutine is done, or performs an effect and goes on with the answer. -/
inductive Coroutine (O : Type) (A : O → Type) (ρ : Type)
  | done (r : ρ)
  | perform (o : O) (next : A o → Coroutine O A ρ)

namespace Coroutine

variable {O : Type} {A : O → Type} {ρ τ : Type}

def bind : Coroutine O A ρ → (ρ → Coroutine O A τ) → Coroutine O A τ
  | .done r, f => f r
  | .perform o next, f => .perform o fun a => (next a).bind f

end Coroutine

/-- What the effects of tasks do to a shared state. A move says how the surroundings answer;
an effect that a task has to wait for is answered only when that is enabled. -/
structure Kernel (σ O : Type) (A : O → Type) (ρ μ : Type) where
  suspends : O → Bool
  /-- What the effect does at once. -/
  enter : Nat → O → σ → σ
  answer : Nat → (o : O) → μ → σ → Option (A o × σ)
  /-- The coroutine of a task that has been created. -/
  body : σ → Nat → Option (Coroutine O A ρ)
  finish : Nat → ρ → σ → σ

/-- The shared state, and what the tasks that have run go on with. -/
structure Tasks (σ O : Type) (A : O → Type) (ρ : Type) where
  shared : σ
  threads : Nat → Option (Coroutine O A ρ)

inductive Turn (ν μ : Type)
  /-- Something outside of the tasks. -/
  | outside (event : ν)
  /-- A task is answered by the first move, and its effects up to the next suspension by the others. -/
  | resume (task : Nat) (answer : μ) (moves : List μ)

namespace Kernel

variable {σ O : Type} {A : O → Type} {ρ μ ν : Type} (K : Kernel σ O A ρ μ)

/-- A task runs until it suspends or is done. -/
def run (task : Nat) : Coroutine O A ρ → List μ → σ → Option (σ × Coroutine O A ρ)
  | .done r, _, s => some (K.finish task r s, .done r)
  | .perform o next, moves, s =>
      if K.suspends o then some (K.enter task o s, .perform o next)
      else
        match moves with
        | [] => none
        | m :: moves => (K.answer task o m (K.enter task o s)).bind fun p => run task (next p.1) moves p.2

/-- What a task that does not run waits with. -/
def thread (w : Tasks σ O A ρ) (task : Nat) : Option (Coroutine O A ρ) :=
  (w.threads task).or (K.body w.shared task)

def resume (w : Tasks σ O A ρ) (task : Nat) (m : μ) (moves : List μ) : Option (Tasks σ O A ρ) :=
  match K.thread w task with
  | some (.perform o next) =>
      (K.answer task o m w.shared).bind fun p =>
        (K.run task (next p.1) moves p.2).map fun q =>
          ⟨q.1, fun i => if i = task then some q.2 else w.threads i⟩
  | _ => none

/-- The tasks take turns, and events from outside fall between them. -/
def system (outside : ν → σ → Option σ) : System (Tasks σ O A ρ) (Turn ν μ) where
  step w
    | .outside event => (outside event w.shared).map fun s => { w with shared := s }
    | .resume task m moves => K.resume w task m moves

section Conditions

variable (inv : σ → Prop) (rely : Nat → σ → σ → Prop)

/-- A coroutine keeps the invariant at every suspension, and what holds at its end. Others
change the state while the task is suspended only as its relation allows. -/
def wp (task : Nat) (post : τ → σ → Prop) : Coroutine O A τ → σ → Prop
  | .done r, s => post r s
  | .perform o next, s =>
      if K.suspends o then
        inv (K.enter task o s) ∧ ∀ s', rely task (K.enter task o s) s' → inv s' →
          ∀ m a t, K.answer task o m s' = some (a, t) → wp task post (next a) t
      else ∀ m a t, K.answer task o m (K.enter task o s) = some (a, t) → wp task post (next a) t

/-- A task that waits goes on well, whatever the others have done. -/
def Waits (task : Nat) (c : Coroutine O A ρ) (s : σ) : Prop :=
  match c with
  | .done _ => True
  | .perform o next => ∀ s', rely task s s' → inv s' →
      ∀ m a t, K.answer task o m s' = some (a, t) → K.wp inv rely task (fun _ => inv) (next a) t

/-- What others do, and what happens outside, changes the state as a task's relation allows. -/
structure Lawful (outside : ν → σ → Option σ) : Prop where
  refl : ∀ i s, rely i s s
  trans : ∀ i s t u, rely i s t → rely i t u → rely i s u
  enter : ∀ i task o s, i ≠ task → rely i s (K.enter task o s)
  answer : ∀ i task o m s a t, i ≠ task → K.answer task o m s = some (a, t) → rely i s t
  finish : ∀ task r s, inv s → inv (K.finish task r s) ∧ ∀ i, i ≠ task → rely i s (K.finish task r s)
  outside : ∀ event s t, inv s → outside event s = some t → inv t ∧ ∀ i, rely i s t

variable {K inv rely} {outside : ν → σ → Option σ} {task : Nat} {post : τ → σ → Prop}
  {c : Coroutine O A ρ} {s t : σ}

theorem wp_done (r : τ) (h : post r s) : K.wp inv rely task post (.done r : Coroutine O A τ) s :=
  h

theorem wp_goes {o : O} {next : A o → Coroutine O A τ} (hgoes : K.suspends o = false)
    (h : ∀ m a t, K.answer task o m (K.enter task o s) = some (a, t) → K.wp inv rely task post (next a) t) :
    K.wp inv rely task post (.perform o next) s := by
  rw [wp, hgoes, if_neg Bool.false_ne_true]
  exact h

theorem wp_suspends {o : O} {next : A o → Coroutine O A τ} (hsuspends : K.suspends o = true)
    (hinv : inv (K.enter task o s)) (h : ∀ s', rely task (K.enter task o s) s' → inv s' →
      ∀ m a t, K.answer task o m s' = some (a, t) → K.wp inv rely task post (next a) t) :
    K.wp inv rely task post (.perform o next) s := by
  rw [wp, if_pos hsuspends]
  exact ⟨hinv, h⟩

theorem wp_bind {c : Coroutine O A τ} {υ : Type} {f : τ → Coroutine O A υ} {post : υ → σ → Prop}
    (h : K.wp inv rely task (fun r => K.wp inv rely task post (f r)) c s) :
    K.wp inv rely task post (c.bind f) s := by
  induction c generalizing s with
  | done r => exact h
  | perform o next ih =>
    rw [wp] at h
    rw [Coroutine.bind, wp]
    split at h
    · next hsuspends =>
      rw [if_pos hsuspends]
      exact ⟨h.1, fun s' hrely hinv m a t ha => ih a (h.2 s' hrely hinv m a t ha)⟩
    · next hgoes =>
      rw [if_neg hgoes]
      exact fun m a t ha => ih a (h m a t ha)

theorem wp_mono {c : Coroutine O A τ} {post' : τ → σ → Prop} (h : K.wp inv rely task post c s)
    (hpost : ∀ r t, post r t → post' r t) : K.wp inv rely task post' c s := by
  induction c generalizing s with
  | done r => exact hpost r s h
  | perform o next ih =>
    rw [wp] at h ⊢
    split at h
    · next hsuspends =>
      rw [if_pos hsuspends]
      exact ⟨h.1, fun s' hrely hinv m a t ha => ih a (h.2 s' hrely hinv m a t ha)⟩
    · next hgoes =>
      rw [if_neg hgoes]
      exact fun m a t ha => ih a (h m a t ha)

/-- A task restores the invariant before it suspends. -/
theorem run_inv (hlaw : K.Lawful inv rely outside) {moves : List μ} {d : Coroutine O A ρ}
    (h : K.wp inv rely task (fun _ => inv) c s) (hrun : K.run task c moves s = some (t, d)) :
    inv t ∧ K.Waits inv rely task d t ∧ ∀ i, i ≠ task → rely i s t := by
  induction c generalizing s moves with
  | done r =>
    cases hrun
    obtain ⟨hinv, hrely⟩ := hlaw.finish task r s h
    exact ⟨hinv, trivial, hrely⟩
  | perform o next ih =>
    rw [wp] at h
    unfold run at hrun
    split at h
    · next hsuspends =>
      rw [if_pos hsuspends] at hrun
      cases hrun
      exact ⟨h.1, h.2, fun i hi => hlaw.enter i task o s hi⟩
    · next hgoes =>
      rw [if_neg hgoes] at hrun
      cases moves with
      | nil => cases hrun
      | cons m moves =>
        obtain ⟨⟨a, u⟩, hanswer, hrest⟩ := Option.bind_eq_some_iff.mp hrun
        obtain ⟨hinv, hwaits, hrely⟩ := ih a (h m a u hanswer) hrest
        refine ⟨hinv, hwaits, fun i hi => ?_⟩
        have hfirst := hlaw.trans i s _ u (hlaw.enter i task o s hi)
          (hlaw.answer i task o m _ a u hi hanswer)
        exact hlaw.trans i s u t hfirst (hrely i hi)

/-- The invariant holds, every task that waits goes on well, and the others are untouched. -/
structure Good (K : Kernel σ O A ρ μ) (inv : σ → Prop) (rely : Nat → σ → σ → Prop)
    (untouched : Nat → σ → Prop) (w : Tasks σ O A ρ) : Prop where
  invariant : inv w.shared
  waits : ∀ task c, w.threads task = some c → K.Waits inv rely task c w.shared
  untouched : ∀ task, w.threads task = none → untouched task w.shared

theorem Waits.later (hlaw : K.Lawful inv rely outside) (h : K.Waits inv rely task c s) (hst : rely task s t) :
    K.Waits inv rely task c t := by
  cases c with
  | done r => trivial
  | perform o next => exact fun s' hs' hinv m a u ha => h s' (hlaw.trans task s t s' hst hs') hinv m a u ha

variable {untouched : Nat → σ → Prop}

theorem step_good (hlaw : K.Lawful inv rely outside)
    (huntouched : ∀ i s t, rely i s t → untouched i s → untouched i t)
    (hbody : ∀ s task c, inv s → untouched task s → K.body s task = some c → K.Waits inv rely task c s)
    {w v : Tasks σ O A ρ} {turn : Turn ν μ} (hw : K.Good inv rely untouched w)
    (hstep : (K.system outside).step w turn = some v) : K.Good inv rely untouched v := by
  cases turn with
  | outside event =>
    obtain ⟨t, ht, rfl⟩ := Option.map_eq_some_iff.mp hstep
    obtain ⟨hinv, hrely⟩ := hlaw.outside event _ t hw.invariant ht
    exact ⟨hinv, fun i c hc => (hw.waits i c hc).later hlaw (hrely i),
      fun i hi => huntouched i _ t (hrely i) (hw.untouched i hi)⟩
  | resume task m moves =>
    change K.resume w task m moves = some v at hstep
    rw [resume] at hstep
    split at hstep
    · next o next hthread =>
      obtain ⟨⟨a, s⟩, hanswer, hrest⟩ := Option.bind_eq_some_iff.mp hstep
      obtain ⟨⟨t, d⟩, hrun, rfl⟩ := Option.map_eq_some_iff.mp hrest
      have hwaits : K.Waits inv rely task (.perform o next) w.shared := by
        rw [thread, Option.or_eq_some_iff] at hthread
        obtain hthread | ⟨hnone, hthread⟩ := hthread
        · exact hw.waits task _ hthread
        · exact hbody _ task _ hw.invariant (hw.untouched task hnone) hthread
      have hgoes := hwaits w.shared (hlaw.refl task _) hw.invariant m a s hanswer
      obtain ⟨hinv, hnext, hrely⟩ := run_inv hlaw hgoes hrun
      have hothers : ∀ i, i ≠ task → rely i w.shared t := fun i hi =>
        hlaw.trans i _ s t (hlaw.answer i task o m _ a s hi hanswer) (hrely i hi)
      refine ⟨hinv, fun i c hc => ?_, fun i hc => ?_⟩
      · change (if i = task then some d else w.threads i) = some c at hc
        split at hc
        · next heq =>
          cases hc
          exact heq ▸ hnext
        · next hother => exact (hw.waits i c hc).later hlaw (hothers i hother)
      · change (if i = task then some d else w.threads i) = none at hc
        split at hc
        · cases hc
        · next hother => exact huntouched i _ t (hothers i hother) (hw.untouched i hc)
    · cases hstep

/-- A condition that every task restores before it suspends holds in every state that is reached. -/
theorem reaches_inv (hlaw : K.Lawful inv rely outside)
    (huntouched : ∀ i s t, rely i s t → untouched i s → untouched i t)
    (hbody : ∀ s task c, inv s → untouched task s → K.body s task = some c → K.Waits inv rely task c s)
    {w v : Tasks σ O A ρ} (hinitial : inv w.shared) (hnone : ∀ task, w.threads task = none)
    (hfirst : ∀ task, untouched task w.shared) {ok : Tasks σ O A ρ → Turn ν μ → Prop}
    (hrun : (K.system outside).Reaches ok w v) : inv v.shared := by
  have hgood : K.Good inv rely untouched w := ⟨hinitial, fun task c hc => (by
    rw [hnone task] at hc
    cases hc), fun task _ => hfirst task⟩
  exact (hrun.invariant (P := K.Good inv rely untouched)
    (fun s a t hs _ hstep => step_good hlaw huntouched hbody hs hstep) hgood).invariant

end Conditions

end Kernel

/-- A coroutine that returns, or raises an exception. -/
def Proc (O : Type) (A : O → Type) (ε α : Type) : Type :=
  Coroutine O A (Except ε α)

namespace Proc

variable {σ O : Type} {A : O → Type} {ρ μ ε α β : Type}

def raise (e : ε) : Proc O A ε α :=
  Coroutine.done (.error e)

def ofAnswer (answer : Except ε α) : Proc O A ε α :=
  Coroutine.done answer

def andThen (x : Proc O A ε α) (f : α → Proc O A ε β) : Proc O A ε β :=
  Coroutine.bind x fun
    | .ok a => f a
    | .error e => raise e

instance : Monad (Proc O A ε) where
  pure a := ofAnswer (.ok a)
  bind := andThen

/-- One effect. -/
def effect (o : O) : Proc O A ε (A o) :=
  Coroutine.perform o fun a => ofAnswer (.ok a)

/-- The value or the exception. -/
def settle (x : Proc O A ε α) : Proc O A ε (Except ε α) :=
  Coroutine.bind x fun outcome => ofAnswer (.ok outcome)

/-- `try: x except: ..`. -/
def handle (x : Proc O A ε α) (handler : ε → Proc O A ε α) : Proc O A ε α := do
  match ← settle x with
  | .ok a => pure a
  | .error e => handler e

/-- `try: x finally: y`; an exception of the clause replaces that of the body. -/
def finallyDo (x : Proc O A ε α) (y : Proc O A ε Unit) : Proc O A ε α := do
  let outcome ← settle x
  y
  ofAnswer outcome

/-- `if condition: x`. -/
def when (condition : Bool) (x : Proc O A ε Unit) : Proc O A ε Unit :=
  if condition then x else pure ()

/-- `if condition: raise e`. -/
def refuse (condition : Bool) (e : ε) : Proc O A ε Unit :=
  when condition (raise e)

/-- The condition on the value, or on the exception. -/
def Ends (Q : α → σ → Prop) (F : ε → σ → Prop) (outcome : Except ε α) (s : σ) : Prop :=
  match outcome with
  | .ok a => Q a s
  | .error e => F e s

/-- A coroutine that starts in a state with the first condition keeps the invariant at every
suspension, and ends in a state with one of the others. -/
def Triple (K : Kernel σ O A ρ μ) (inv : σ → Prop) (rely : Nat → σ → σ → Prop) (task : Nat) (P : σ → Prop)
    (x : Proc O A ε α) (Q : α → σ → Prop) (F : ε → σ → Prop) : Prop :=
  ∀ s, P s → K.wp inv rely task (Ends Q F) x s

variable {K : Kernel σ O A ρ μ} {inv : σ → Prop} {rely : Nat → σ → σ → Prop} {task : Nat} {P P' : σ → Prop}
  {x : Proc O A ε α} {f : α → Proc O A ε β} {Q Q' : α → σ → Prop} {R : β → σ → Prop} {F F' : ε → σ → Prop}

theorem Triple.ofAnswer {answer : Except ε α} (h : ∀ s, P s → Ends Q F answer s) :
    Triple K inv rely task P (ofAnswer answer : Proc O A ε α) Q F :=
  fun s hs => Kernel.wp_done answer (h s hs)

theorem Triple.pure {a : α} (h : ∀ s, P s → Q a s) :
    Triple K inv rely task P (pure a : Proc O A ε α) Q F :=
  Triple.ofAnswer h

theorem Triple.raise {e : ε} (h : ∀ s, P s → F e s) :
    Triple K inv rely task P (Proc.raise e : Proc O A ε α) Q F :=
  Triple.ofAnswer h

theorem Triple.bind (hx : Triple K inv rely task P x Q F) (hf : ∀ a, Triple K inv rely task (Q a) (f a) R F) :
    Triple K inv rely task P (x >>= f) R F := by
  intro s hs
  refine Kernel.wp_bind (Kernel.wp_mono (hx s hs) ?_)
  intro outcome t ht
  cases outcome with
  | ok a => exact hf a t ht
  | error e => exact Kernel.wp_done _ ht

theorem Triple.conseq (h : Triple K inv rely task P x Q F) (hP : ∀ s, P' s → P s)
    (hQ : ∀ a s, Q a s → Q' a s) (hF : ∀ e s, F e s → F' e s) : Triple K inv rely task P' x Q' F' := by
  intro s hs
  refine Kernel.wp_mono (h s (hP s hs)) ?_
  intro outcome t ht
  cases outcome with
  | ok a => exact hQ a t ht
  | error e => exact hF e t ht

theorem Triple.post (h : Triple K inv rely task P x Q F) (hQ : ∀ a s, Q a s → Q' a s) :
    Triple K inv rely task P x Q' F :=
  h.conseq (fun _ hp => hp) hQ fun _ _ hf => hf

theorem Triple.settle (h : Triple K inv rely task P x Q F) :
    Triple K inv rely task P (Proc.settle x) (fun outcome => Ends Q F outcome) F' :=
  fun s hs => Kernel.wp_bind (Kernel.wp_mono (h s hs) fun _ _ ht => Kernel.wp_done _ ht)

theorem Triple.handle {handler : ε → Proc O A ε α} (h : Triple K inv rely task P x Q F)
    (hhandler : ∀ e, Triple K inv rely task (F e) (handler e) Q F') :
    Triple K inv rely task P (Proc.handle x handler) Q F' := by
  refine Triple.bind h.settle fun outcome => ?_
  cases outcome with
  | ok a => exact Triple.pure fun _ hs => hs
  | error e => exact hhandler e

/-- The clause runs after the value of the body as after its exception. -/
theorem Triple.finallyDo {y : Proc O A ε Unit} {S : α → σ → Prop} {E : ε → σ → Prop}
    (hx : Triple K inv rely task P x Q E) (hok : ∀ a, Triple K inv rely task (Q a) y (fun _ => S a) F)
    (herror : ∀ e, Triple K inv rely task (E e) y (fun _ => F e) F) :
    Triple K inv rely task P (Proc.finallyDo x y) S F := by
  refine Triple.bind hx.settle fun outcome => ?_
  cases outcome with
  | ok a => exact Triple.bind (hok a) fun _ => Triple.ofAnswer fun _ hs => hs
  | error e => exact Triple.bind (herror e) fun _ => Triple.ofAnswer fun _ hs => hs

theorem Triple.when {condition : Bool} {x : Proc O A ε Unit} {Q : Unit → σ → Prop}
    (h : condition = true → Triple K inv rely task P x Q F) (hskip : condition = false → ∀ s, P s → Q () s) :
    Triple K inv rely task P (Proc.when condition x) Q F := by
  cases condition with
  | true => exact h rfl
  | false => exact Triple.pure (hskip rfl)

theorem Triple.refuse {condition : Bool} {e : ε} {Q : Unit → σ → Prop}
    (h : condition = true → ∀ s, P s → F e s) (hskip : condition = false → ∀ s, P s → Q () s) :
    Triple K inv rely task P (Proc.refuse condition e) Q F :=
  Triple.when (fun hc => Triple.raise (h hc)) hskip

/-- An effect that does not suspend. -/
theorem Triple.now {o : O} {Q : A o → σ → Prop} (hgoes : K.suspends o = false)
    (h : ∀ s m a t, P s → K.answer task o m (K.enter task o s) = some (a, t) → Q a t) :
    Triple K inv rely task P (effect o : Proc O A ε (A o)) Q F :=
  fun s hs => Kernel.wp_goes hgoes fun m a t ha => Kernel.wp_done _ (h s m a t hs ha)

/-- An effect that suspends: the invariant is restored before, and holds after. -/
theorem Triple.wait {o : O} {Q : A o → σ → Prop} (hsuspends : K.suspends o = true)
    (hinv : ∀ s, P s → inv (K.enter task o s))
    (h : ∀ s s' m a t, P s → rely task (K.enter task o s) s' → inv s' →
      K.answer task o m s' = some (a, t) → Q a t) :
    Triple K inv rely task P (effect o : Proc O A ε (A o)) Q F :=
  fun s hs => Kernel.wp_suspends hsuspends (hinv s hs) fun s' hrely hs' m a t ha =>
    Kernel.wp_done _ (h s s' m a t hs hrely hs' ha)

/-- A task whose coroutine is an effect that suspends and then keeps the invariant. -/
theorem Triple.waits {α : Type} {K : Kernel σ O A (Except ε α) μ} {o : O} {f : A o → Proc O A ε α}
    {s : σ} (h : ∀ s' m a t, rely task s s' → inv s' → K.answer task o m s' = some (a, t) →
      ∃ P, P t ∧ Triple K inv rely task P (f a) (fun _ => inv) fun _ => inv) :
    K.Waits inv rely task (effect o >>= f : Proc O A ε α) s := by
  intro s' hrely hs' m a t ha
  obtain ⟨P, hP, htriple⟩ := h s' m a t hrely hs' ha
  refine Kernel.wp_mono (htriple t hP) ?_
  intro outcome u hu
  cases outcome with
  | ok value => exact hu
  | error e => exact hu

end Proc

end HccastWired.Foundation
