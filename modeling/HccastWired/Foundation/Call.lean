import Mathlib

/-!
# Calls that can be interrupted

A call has a value or an error, and passes through a state at every update it
makes. Interrupted, it leaves the last state it has passed through; whatever
holds of all of them holds then too.
-/

namespace HccastWired.Foundation

/-- The value of a call and the states after its updates, the oldest first. -/
def Call (σ ε α : Type) : Type :=
  σ → Except ε α × List σ

namespace Call

variable {σ ε α β : Type}

/-- The state after the first updates of a call. -/
def upTo (x : Call σ ε α) (updates : Nat) (s : σ) : σ :=
  ((x s).2.take updates).getLastD s

/-- The state after all of them. -/
def final (x : Call σ ε α) (s : σ) : σ :=
  (x s).2.getLastD s

def ofExcept (value : Except ε α) : Call σ ε α :=
  fun _ => (value, [])

def get : Call σ ε σ :=
  fun s => (.ok s, [])

def update (f : σ → σ) : Call σ ε Unit :=
  fun s => (.ok (), [f s])

def andThen (x : Call σ ε α) (f : α → Call σ ε β) : Call σ ε β := fun s =>
  match (x s).1 with
  | .ok a => ((f a (x.final s)).1, (x s).2 ++ (f a (x.final s)).2)
  | .error e => (.error e, (x s).2)

/-- The handler runs in the state the failed call has left. -/
def handle (x : Call σ ε α) (h : ε → Call σ ε α) : Call σ ε α := fun s =>
  match (x s).1 with
  | .ok a => (.ok a, (x s).2)
  | .error e => ((h e (x.final s)).1, (x s).2 ++ (h e (x.final s)).2)

instance : Monad (Call σ ε) where
  pure a := ofExcept (.ok a)
  bind := andThen

instance : MonadExceptOf ε (Call σ ε) where
  throw e := ofExcept (.error e)
  tryCatch := handle

/-- Interrupted or not, the call meets the crash condition; completed, it meets
the condition on its value or on its error. -/
def wp (crash : σ → Prop) (x : Call σ ε α) (post : α → σ → Prop) (fail : ε → σ → Prop)
    (s : σ) : Prop :=
  (∀ t ∈ (x s).2, crash t) ∧
    match (x s).1 with
    | .ok a => post a (x.final s)
    | .error e => fail e (x.final s)

variable {crash : σ → Prop} {x : Call σ ε α} {f : α → Call σ ε β} {post post' : α → σ → Prop}
  {fail fail' : ε → σ → Prop} {s : σ}

theorem upTo_of_length_le {updates : Nat} (h : (x s).2.length ≤ updates) :
    x.upTo updates s = x.final s := by
  rw [upTo, List.take_of_length_le h, final]

/-- What survives every update survives an interruption. -/
theorem wp.upTo (h : x.wp crash post fail s) (hs : crash s) (updates : Nat) :
    crash (x.upTo updates s) := by
  unfold Call.upTo
  cases hp : (x s).2.take updates with
  | nil => exact hs
  | cons t rest =>
      rw [List.getLastD_cons]
      have hmem : ∀ t ∈ (x s).2.take updates, crash t := fun t ht =>
        h.1 t (List.mem_of_mem_take ht)
      rw [hp] at hmem
      rcases rest.eq_nil_or_concat with rfl | ⟨front, last, rfl⟩
      · exact hmem t List.mem_cons_self
      · rw [List.concat_eq_append, List.getLastD_concat]
        exact hmem last (by simp)

theorem wp.ok (h : x.wp crash post fail s) {a : α} (ha : (x s).1 = .ok a) : post a (x.final s) := by
  have hv := h.2
  rw [ha] at hv
  exact hv

theorem wp.failed (h : x.wp crash post fail s) {e : ε} (he : (x s).1 = .error e) :
    fail e (x.final s) := by
  have hv := h.2
  rw [he] at hv
  exact hv

/-- A call whose errors are impossible returns. -/
theorem wp.returns (h : x.wp crash post (fun _ _ => False) s) :
    ∃ a, (x s).1 = .ok a ∧ post a (x.final s) := by
  cases hv : (x s).1 with
  | ok a => exact ⟨a, rfl, h.ok hv⟩
  | error e => exact (h.failed hv).elim

/-- A call that can neither update nor return fails and leaves everything as it is. -/
theorem wp.refused (h : x.wp (fun _ => False) (fun _ _ => False) fail s) :
    ∃ e, x s = (.error e, []) ∧ fail e s := by
  have hnone : (x s).2 = [] := List.eq_nil_iff_forall_not_mem.mpr h.1
  have hfinal : x.final s = s := by rw [final, hnone, List.getLastD_nil]
  cases hv : (x s).1 with
  | ok a => exact (h.ok hv).elim
  | error e => exact ⟨e, Prod.ext hv hnone, hfinal ▸ h.failed hv⟩

theorem wp.mono (h : x.wp crash post fail s) (hpost : ∀ a t, post a t → post' a t)
    (hfail : ∀ e t, fail e t → fail' e t) : x.wp crash post' fail' s := by
  refine ⟨h.1, ?_⟩
  cases hv : (x s).1 with
  | ok a => exact hpost a _ (h.ok hv)
  | error e => exact hfail e _ (h.failed hv)

theorem wp.weaken {crash' : σ → Prop} (h : x.wp crash post fail s)
    (hcrash : ∀ t, crash t → crash' t) : x.wp crash' post fail s :=
  ⟨fun t ht => hcrash t (h.1 t ht), h.2⟩

@[simp] theorem wp_pure (a : α) : (pure a : Call σ ε α).wp crash post fail s ↔ post a s := by
  simp [wp, pure, ofExcept, final]

@[simp] theorem wp_throw (e : ε) : (throw e : Call σ ε α).wp crash post fail s ↔ fail e s := by
  simp [wp, throw, throwThe, MonadExceptOf.throw, ofExcept, final]

@[simp] theorem wp_ofExcept (value : Except ε α) : (ofExcept value).wp crash post fail s ↔
    match value with
    | .ok a => post a s
    | .error e => fail e s := by
  simp [wp, ofExcept, final]

@[simp] theorem wp_get {post : σ → σ → Prop} :
    (get : Call σ ε σ).wp crash post fail s ↔ post s s := by
  simp [wp, get, final]

@[simp] theorem wp_update {g : σ → σ} {post : Unit → σ → Prop} :
    (update g : Call σ ε Unit).wp crash post fail s ↔ crash (g s) ∧ post () (g s) := by
  simp [wp, update, final]

theorem getLastD_append (a b : List σ) (s : σ) :
    (a ++ b).getLastD s = b.getLastD (a.getLastD s) := by
  rcases b.eq_nil_or_concat with rfl | ⟨front, last, rfl⟩
  · simp
  · rw [List.concat_eq_append, ← List.append_assoc, List.getLastD_concat, List.getLastD_concat]

@[simp] theorem wp_bind {post : β → σ → Prop} : (x >>= f).wp crash post fail s ↔
    x.wp crash (fun a t => (f a).wp crash post fail t) fail s := by
  simp only [wp, final, bind, andThen]
  cases hv : (x s).1 with
  | ok a => simp only [getLastD_append, List.forall_mem_append, and_assoc]
  | error e => rfl

@[simp] theorem wp_tryCatch {h : ε → Call σ ε α} : (tryCatch x h).wp crash post fail s ↔
    x.wp crash post (fun e t => (h e).wp crash post fail t) s := by
  simp only [wp, final, tryCatch, tryCatchThe, MonadExceptOf.tryCatch, handle]
  cases hv : (x s).1 with
  | ok a => rfl
  | error e => simp only [getLastD_append, List.forall_mem_append, and_assoc]

section Loops

variable {ι : Type}

/-- The invariant of a loop is about the items still to come. -/
theorem wp_foldlM {g : β → ι → Call σ ε β} {I : List ι → β → σ → Prop}
    (hstep : ∀ i rest b t, I (i :: rest) b t → (g b i).wp crash (I rest) fail t) :
    ∀ (items : List ι) (b : β) (t : σ), I items b t →
      (items.foldlM g b : Call σ ε β).wp crash (I []) fail t := by
  intro items
  induction items with
  | nil =>
      intro b t h
      rw [List.foldlM_nil]
      exact (wp_pure b).mpr h
  | cons i rest ih =>
      intro b t h
      rw [List.foldlM_cons]
      apply wp_bind.mpr
      exact (hstep i rest b t h).mono (fun b' t' h' => ih b' t' h') fun _ _ hfail => hfail

theorem wp_forM {g : ι → Call σ ε PUnit} {I : List ι → σ → Prop}
    (hstep : ∀ i rest t, I (i :: rest) t → (g i).wp crash (fun _ => I rest) fail t) :
    ∀ (items : List ι) (t : σ), I items t →
      (items.forM g : Call σ ε PUnit).wp crash (fun _ => I []) fail t := by
  intro items
  induction items with
  | nil =>
      intro t h
      exact (wp_pure _).mpr h
  | cons i rest ih =>
      intro t h
      rw [List.forM_eq_forM, List.forM_cons]
      apply wp_bind.mpr
      exact (hstep i rest t h).mono (fun _ t' h' => ih t' h') fun _ _ hfail => hfail

end Loops

end Call

end HccastWired.Foundation
