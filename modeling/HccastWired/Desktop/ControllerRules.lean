import HccastWired.Desktop.Controller

/-!
# Rules for the tasks of the controller

What a task does between two suspensions is quiet, unless it creates an operation or a
stream, begins a stream's connection or media, wants the stream again, or begins a trial.
-/

namespace HccastWired.Desktop.Controller

open Foundation

section Steps

/-- The calls that begin a stream. -/
def Await.begins : Await → Bool
  | .connect _ => true
  | .start _ _ => true
  | _ => false

/-- A task that is neither an operation nor a stream. -/
def Kind.isPlain : Kind → Bool
  | .guard _ _ => false
  | .stream _ => false
  | _ => true

/-- A call of the store that begins a trial. -/
def isBegin : StoreOperation → Bool
  | .beginTrial _ _ => true
  | _ => false

def Event.actor : Event → TaskId
  | .called task _ _ => task
  | .returned task _ => task
  | .created task _ _ => task
  | .switched task _ => task
  | .saved task _ _ _ => task

def Event.isQuiet : Event → Bool
  | .called _ call _ => !call.begins
  | .returned _ _ => true
  | .created _ _ kind => kind.isPlain
  | .switched _ desired => !desired
  | .saved _ _ _ _ => false

/-- The last value of `desired` in the history. -/
def lastSwitch : List Event → Option Bool
  | [] => none
  | .switched _ desired :: _ => some desired
  | _ :: log => lastSwitch log

/-- What other tasks do, and what happens outside. -/
structure Others (task : TaskId) (s t : State) : Prop where
  log : ∃ newer, t.log = newer ++ s.log ∧ ∀ e ∈ newer, e.actor ≠ task
  kinds : ∀ i k, s.kindOf i = some k → t.kindOf i = some k

/-- What a task does quietly. -/
structure Quiet (task : TaskId) (s t : State) : Prop where
  log : ∃ newer, t.log = newer ++ s.log ∧ ∀ e ∈ newer, e.isQuiet = true ∧ e.actor = task
  kinds : ∀ i k, s.kindOf i = some k → t.kindOf i = some k
  plain : ∀ i k, t.kindOf i = some k → s.kindOf i = some k ∨ k.isPlain = true
  host : t.host = s.host
  generation : s.generation ≤ t.generation
  desired : t.desired = true → s.desired = true ∧ lastSwitch t.log = lastSwitch s.log

/-- A change of the attributes that does not want the stream again. -/
def Harmless (f : Attributes → Attributes) : Prop :=
  ∀ a, a.generation ≤ (f a).generation ∧ ((f a).desired = true → a.desired = true)

variable {task other : TaskId} {s t u : State} {e : Event} {kind : Kind}

theorem Others.refl (task : TaskId) (s : State) : Others task s s :=
  ⟨⟨[], rfl, fun _ he => absurd he List.not_mem_nil⟩, fun _ _ h => h⟩

theorem Others.trans (h : Others task s t) (h' : Others task t u) : Others task s u := by
  obtain ⟨newer, hlog, hactor⟩ := h.log
  obtain ⟨newer', hlog', hactor'⟩ := h'.log
  refine ⟨⟨newer' ++ newer, by rw [hlog', hlog, List.append_assoc], fun e he => ?_⟩,
    fun i k hk => h'.kinds i k (h.kinds i k hk)⟩
  obtain he | he := List.mem_append.mp he
  · exact hactor' e he
  · exact hactor e he

theorem kinds_modify {tasks : List TaskRecord} {g : TaskRecord → TaskRecord} (hg : ∀ r, (g r).kind = r.kind)
    (i : TaskId) : ((tasks.modify task g)[i]?).map TaskRecord.kind = (tasks[i]?).map TaskRecord.kind := by
  rw [List.getElem?_modify]
  cases tasks[i]? with
  | none => rfl
  | some r =>
    split
    · exact congrArg some (hg r)
    · rfl

theorem kindOf_setCancelled (cancelled : Bool) (i : TaskId) :
    (s.setCancelled task cancelled).kindOf i = s.kindOf i :=
  @kinds_modify task s.tasks (fun r => { r with cancelled := cancelled }) (fun _ => rfl) i

theorem kindOf_setOutcome (outcome : Except Exn Unit) (i : TaskId) :
    (s.setOutcome task outcome).kindOf i = s.kindOf i :=
  @kinds_modify task s.tasks (fun r => { r with outcome := some outcome }) (fun _ => rfl) i

/-- A task is added at the end. -/
theorem kindOf_append {i : TaskId} {k : Kind} :
    ({ s with tasks := s.tasks ++ [⟨kind, false, none⟩] } : State).kindOf i = some k ↔
      s.kindOf i = some k ∨ (i = s.tasks.length ∧ k = kind) := by
  simp only [State.kindOf, List.getElem?_append, Option.map_eq_some_iff]
  by_cases hi : i < s.tasks.length
  · rw [if_pos hi]
    constructor
    · exact fun h => .inl h
    · rintro (h | ⟨rfl, -⟩)
      · exact h
      · exact absurd hi (Nat.lt_irrefl _)
  · rw [if_neg hi, List.getElem?_eq_none (not_lt.mp hi)]
    constructor
    · rintro ⟨r, hr, rfl⟩
      rw [List.getElem?_singleton] at hr
      split at hr
      · next hzero =>
        obtain rfl := Option.some.inj hr
        exact .inr ⟨Nat.le_antisymm (Nat.sub_eq_zero_iff_le.mp hzero) (not_lt.mp hi), rfl⟩
      · cases hr
    · rintro (⟨r, hr, -⟩ | ⟨rfl, rfl⟩)
      · cases hr
      · exact ⟨_, by rw [Nat.sub_self]; rfl, rfl⟩

/-- Only the events of others, or of nobody. -/
theorem others_of (hlog : t.log = s.log) (hkinds : ∀ i, t.kindOf i = s.kindOf i) : Others other s t :=
  ⟨⟨[], hlog, fun _ he => absurd he List.not_mem_nil⟩, fun i _ hk => hkinds i ▸ hk⟩

theorem others_record (hne : other ≠ e.actor) : Others other s (s.record e) := by
  refine ⟨⟨[e], rfl, fun e' he' => ?_⟩, fun _ _ hk => hk⟩
  cases List.mem_singleton.mp he'
  exact hne.symm

theorem enter_others (hne : other ≠ task) (o : Op) : Others other s (enter task o s) := by
  cases o with
  | call c => exact others_record hne
  | _ => exact Others.refl other s

theorem answer_others {enc : Encoding} {o : Op} {m : Move} {a : Answer o} (hne : other ≠ task)
    (h : answer enc task o m s = some (a, t)) : Others other s t := by
  have hcancel : ∀ i cancelled, Others other s (s.setCancelled i cancelled) := fun i cancelled =>
    others_of rfl fun j => kindOf_setCancelled cancelled j
  cases o with
  | read =>
    cases h
    exact Others.refl other s
  | write f =>
    cases h
    rw [writeStep]
    dsimp only
    split
    · exact others_of rfl fun _ => rfl
    · refine Others.trans (t := { s with toAttributes := f s.toAttributes }) (others_of rfl fun _ => rfl) ?_
      exact others_record hne
  | clock =>
    cases h
    exact Others.refl other s
  | store operation =>
    cases h
    exact (others_record (e := .saved task operation s.store _) hne).trans (others_of rfl fun _ => rfl)
  | create kind =>
    cases h
    refine (others_record (e := .created task s.tasks.length kind) hne).trans ⟨⟨[], rfl, ?_⟩, ?_⟩
    · exact fun _ he => absurd he List.not_mem_nil
    · exact fun i k hk => kindOf_append.mpr (.inl hk)
  | cancel i =>
    cases h
    exact hcancel i true
  | begin =>
    have hstep : beginStep task s = (a, t) := Option.some.inj h
    rw [beginStep] at hstep
    split at hstep
    · cases hstep
      exact hcancel task false
    · cases hstep
      exact Others.refl other s
  | call c =>
    have hstep : callStep task c m s = (a, t) := Option.some.inj h
    rw [callStep] at hstep
    split at hstep
    · cases hstep
      exact (hcancel task false).trans (others_record hne)
    · cases hstep
      exact hcancel task false
  | join joined shield =>
    change joinStep task joined shield s = some (a, t) at h
    rw [joinStep] at h
    split at h
    · cases h
      exact hcancel task false
    · split at h
      · cases h
        exact Others.refl other s
      · cases h
  | acquire =>
    change acquireStep task s = some (a, t) at h
    rw [acquireStep] at h
    split at h
    · cases h
      exact hcancel task false
    · split at h
      · cases h
      · cases h
        exact others_of rfl fun _ => rfl

theorem outside_others {event : Outside} (h : outside event s = some t) : Others other s t := by
  cases event with
  | request kind =>
    simp only [outside] at h
    split at h
    · cases h
      exact ⟨⟨[], rfl, fun _ he => absurd he List.not_mem_nil⟩, fun i k hk => kindOf_append.mpr (.inl hk)⟩
    · cases h
  | abandon i =>
    simp only [outside] at h
    split at h
    · cases h
      exact others_of rfl fun j => kindOf_setCancelled true j
    · cases h

end Steps

section Quiet

@[simp] theorem writeStep_attributes (task : TaskId) (f : Attributes → Attributes) (s : State) :
    (writeStep task f s).toAttributes = f s.toAttributes := by
  rw [writeStep]
  dsimp only
  split
  · rfl
  · rfl

@[simp] theorem writeStep_kindOf (task i : TaskId) (f : Attributes → Attributes) (s : State) :
    (writeStep task f s).kindOf i = s.kindOf i := by
  rw [writeStep]
  dsimp only
  split
  · rfl
  · rfl

variable {task : TaskId} {s t : State} {e : Event} {kind : Kind}

theorem lastSwitch_quiet (he : ∀ i desired, e ≠ .switched i desired) (log : List Event) :
    lastSwitch (e :: log) = lastSwitch log := by
  cases e with
  | switched i desired => exact absurd rfl (he i desired)
  | _ => rfl

theorem quiet_same (hlog : t.log = s.log) (hkinds : ∀ i, t.kindOf i = s.kindOf i) (hhost : t.host = s.host)
    (hgeneration : s.generation ≤ t.generation) (hdesired : t.desired = true → s.desired = true) :
    Quiet task s t where
  log := ⟨[], hlog, fun _ he => absurd he List.not_mem_nil⟩
  kinds i _ hk := hkinds i ▸ hk
  plain i _ hk := .inl (hkinds i ▸ hk)
  host := hhost
  generation := hgeneration
  desired h := ⟨hdesired h, congrArg lastSwitch hlog⟩

theorem quiet_cancel {i : TaskId} {cancelled : Bool} : Quiet task s (s.setCancelled i cancelled) :=
  quiet_same rfl (fun j => kindOf_setCancelled cancelled j) rfl (Nat.le_refl _) id

theorem quiet_record (hquiet : e.isQuiet = true) (hactor : e.actor = task)
    (he : ∀ i desired, e ≠ .switched i desired) : Quiet task s (s.record e) where
  log := ⟨[e], rfl, fun e' he' => by
    cases List.mem_singleton.mp he'
    exact ⟨hquiet, hactor⟩⟩
  kinds _ _ hk := hk
  plain _ _ hk := .inl hk
  host := rfl
  generation := Nat.le_refl _
  desired h := ⟨h, lastSwitch_quiet he s.log⟩

theorem quiet_write {f : Attributes → Attributes} (hf : Harmless f) : Quiet task s (writeStep task f s) := by
  obtain ⟨hgeneration, hdesired⟩ := hf s.toAttributes
  rw [writeStep]
  dsimp only
  split
  · exact quiet_same rfl (fun _ => rfl) rfl hgeneration hdesired
  · next hchanged =>
    have hcleared : (f s.toAttributes).desired = false := by
      rw [Bool.eq_false_iff]
      intro htrue
      exact hchanged (htrue.trans (hdesired htrue).symm)
    exact {
      log := ⟨[.switched task (f s.toAttributes).desired], rfl, fun e he => by
        cases List.mem_singleton.mp he
        exact ⟨by rw [Event.isQuiet, hcleared]; rfl, rfl⟩⟩
      kinds := fun _ _ hk => hk
      plain := fun _ _ hk => .inl hk
      host := rfl
      generation := hgeneration
      desired := fun htrue => by
        change (f s.toAttributes).desired = true at htrue
        rw [hcleared] at htrue
        cases htrue }

theorem quiet_create (hkind : kind.isPlain = true) : Quiet task s (createStep task kind s).2 where
  log := ⟨[.created task s.tasks.length kind], rfl, fun e he => by
    cases List.mem_singleton.mp he
    exact ⟨hkind, rfl⟩⟩
  kinds i k hk := kindOf_append.mpr (.inl hk)
  plain i k hk := by
    obtain hk | ⟨-, rfl⟩ := kindOf_append.mp hk
    · exact .inl hk
    · exact .inr hkind
  host := rfl
  generation := Nat.le_refl _
  desired h := ⟨h, rfl⟩

end Quiet

/-- A condition that a task keeps with all that it does quietly, and that others leave alone. -/
structure Steady (enc : Encoding) (inv : State → Prop) (task : TaskId) (P : State → Prop) : Prop where
  invariant : ∀ s, P s → inv s
  others : ∀ s t, P s → Others task s t → inv t → P t
  quiet : ∀ s t, P s → Quiet task s t → P t
  saved : ∀ s m operation, P s → isBegin operation = false → P (saveStep enc task m operation s).2

/-- A coroutine that keeps a condition. -/
def Tame {α : Type} (enc : Encoding) (inv : State → Prop) (task : TaskId) (P : State → Prop) (x : Act α) :
    Prop :=
  Proc.Triple (kernel enc) inv Others task P x (fun _ => P) fun _ => P

section Tame

variable {enc : Encoding} {inv : State → Prop} {task : TaskId} {P : State → Prop} {α β : Type} {x : Act α}
  {c : Await} {operation : StoreOperation} {kind : Kind}

theorem Tame.pure (a : α) : Tame enc inv task P (pure a : Act α) :=
  Proc.Triple.pure fun _ hs => hs

theorem Tame.ofAnswer (outcome : Except Exn α) : Tame enc inv task P (Proc.ofAnswer outcome : Act α) :=
  Proc.Triple.ofAnswer fun _ hs => by
    cases outcome with
    | ok a => exact hs
    | error e => exact hs

theorem Tame.raise (e : Exn) : Tame enc inv task P (Proc.raise e : Act α) :=
  Proc.Triple.raise fun _ hs => hs

theorem Tame.bind {f : α → Act β} (hx : Tame enc inv task P x) (hf : ∀ a, Tame enc inv task P (f a)) :
    Tame enc inv task P (x >>= f) :=
  Proc.Triple.bind hx hf

theorem Tame.when {condition : Bool} {x : Act Unit} (h : condition = true → Tame enc inv task P x) :
    Tame enc inv task P (Proc.when condition x) :=
  Proc.Triple.when h fun _ _ hs => hs

theorem Tame.refuse (condition : Bool) (e : Exn) : Tame enc inv task P (Proc.refuse condition e) :=
  Tame.when fun _ => Tame.raise e

theorem Tame.settle (h : Tame enc inv task P x) : Tame enc inv task P (Proc.settle x) := by
  refine (Proc.Triple.settle h).post ?_
  intro outcome s hs
  cases outcome with
  | ok a => exact hs
  | error e => exact hs

theorem Tame.handle {handler : Exn → Act α} (h : Tame enc inv task P x)
    (hhandler : ∀ e, Tame enc inv task P (handler e)) : Tame enc inv task P (Proc.handle x handler) :=
  Proc.Triple.handle h hhandler

theorem Tame.finallyDo {y : Act Unit} (hx : Tame enc inv task P x) (hy : Tame enc inv task P y) :
    Tame enc inv task P (Proc.finallyDo x y) :=
  Proc.Triple.finallyDo hx (fun _ => hy) fun _ => hy

theorem Tame.suppressCancelled {x : Act Unit} (h : Tame enc inv task P x) :
    Tame enc inv task P (suppressCancelled x) :=
  Tame.handle h fun e => by
    cases e with
    | cancelled => exact Tame.pure ()
    | error text => exact Tame.raise _

/-- What is read is the state at that point. -/
theorem read_triple {F : Exn → State → Prop} :
    Proc.Triple (kernel enc) inv Others task P read (fun a s => P s ∧ s = a) F :=
  Proc.Triple.now rfl fun s m a t hs ha => by
    cases ha
    exact ⟨hs, rfl⟩

theorem Tame.read : Tame enc inv task P read :=
  read_triple.post fun _ _ hs => hs.1

theorem Tame.clock : Tame enc inv task P clock :=
  Proc.Triple.now rfl fun s m a t hs ha => by
    cases ha
    exact hs

variable (hP : Steady enc inv task P)
include hP

theorem Steady.write {f : Attributes → Attributes} (hf : Harmless f) : Tame enc inv task P (write f) :=
  Proc.Triple.now rfl fun s m a t hs ha => by
    cases ha
    exact hP.quiet s _ hs (quiet_write hf)

theorem Steady.create (hkind : kind.isPlain = true) : Tame enc inv task P (create kind) :=
  Proc.Triple.now rfl fun s m a t hs ha => by
    cases ha
    exact hP.quiet s _ hs (quiet_create hkind)

theorem Steady.cancel (i : TaskId) : Tame enc inv task P (cancel i) :=
  Proc.Triple.now rfl fun s m a t hs ha => by
    cases ha
    exact hP.quiet s _ hs quiet_cancel

theorem Steady.store (hoperation : isBegin operation = false) : Tame enc inv task P (store operation) := by
  refine Proc.Triple.bind (Q := fun _ => P) (Proc.Triple.now rfl fun s m a t hs ha => ?_) fun outcome =>
    Tame.ofAnswer outcome
  cases ha
  exact hP.saved s m operation hs hoperation

/-- How a call is answered. -/
theorem Steady.answered {s t : State} {m : Move} {a : Except Exn c.Reply} (hs : P s)
    (ha : callStep task c m s = (a, t)) : P t := by
  rw [callStep] at ha
  have hcancel : P (s.setCancelled task false) := hP.quiet s _ hs quiet_cancel
  split at ha
  · cases ha
    exact hP.quiet _ _ hcancel (quiet_record rfl rfl fun i desired he => by cases he)
  · cases ha
    exact hcancel

theorem Steady.call (hc : c.begins = false) : Tame enc inv task P (call c) := by
  have hcalled : ∀ s, P s → P (enter task (.call c) s) := fun s hs =>
    hP.quiet s _ hs (quiet_record (by rw [Event.isQuiet, hc]; rfl) rfl fun i desired he => by cases he)
  refine Proc.Triple.bind (Q := fun _ => P) (Proc.Triple.wait rfl (fun s hs => hP.invariant _ (hcalled s hs))
    fun s s' m a t hs hothers hs' ha => ?_) fun outcome => Tame.ofAnswer outcome
  exact hP.answered (hP.others _ s' (hcalled s hs) hothers hs') (Option.some.inj ha)

theorem Steady.join (joined : TaskId) (shield : Bool) : Tame enc inv task P (join joined shield) := by
  refine Proc.Triple.bind (Q := fun _ => P) (Proc.Triple.wait rfl (fun s hs => hP.invariant s hs)
    fun s s' m a t hs hothers hs' ha => ?_) fun outcome => Tame.ofAnswer outcome
  have hlater : P s' := hP.others s s' hs hothers hs'
  change joinStep task joined shield s' = some (a, t) at ha
  rw [joinStep] at ha
  split at ha
  · cases ha
    exact hP.quiet s' _ hlater quiet_cancel
  · split at ha
    · cases ha
      exact hlater
    · cases ha

theorem Steady.withLock {x : Act Unit} (hx : Tame enc inv task P x) : Tame enc inv task P (withLock x) := by
  refine Proc.Triple.bind (Q := fun _ => P) (Proc.Triple.wait rfl (fun s hs => hP.invariant s hs)
    fun s s' m a t hs hothers hs' ha => ?_) fun outcome => Tame.bind (Tame.ofAnswer outcome) fun _ =>
      Tame.finallyDo hx (hP.write fun a => ⟨Nat.le_refl _, id⟩)
  have hlater : P s' := hP.others s s' hs hothers hs'
  change acquireStep task s' = some (a, t) at ha
  rw [acquireStep] at ha
  split at ha
  · cases ha
    exact hP.quiet s' _ hlater quiet_cancel
  · split at ha
    · cases ha
    · cases ha
      exact hP.quiet s' _ hlater (quiet_same rfl (fun _ => rfl) rfl (Nat.le_refl _) id)

end Tame

section Coroutines

variable {enc : Encoding} {inv : State → Prop} {task : TaskId} {P : State → Prop}

/-- A change that leaves the generation and `desired` alone. -/
theorem harmless_of {f : Attributes → Attributes} (hgeneration : ∀ a, (f a).generation = a.generation)
    (hdesired : ∀ a, (f a).desired = a.desired) : Harmless f :=
  fun a => ⟨(hgeneration a).ge, fun h => hdesired a ▸ h⟩

theorem harmless_forget {p : Attributes → Prop} [DecidablePred p] {f : Attributes → Attributes}
    (hf : Harmless f) : Harmless fun a => if p a then f a else a := by
  intro a
  dsimp only
  split
  · exact hf a
  · exact ⟨Nat.le_refl _, id⟩

variable (hP : Steady enc inv task P)
include hP

theorem Steady.assign {f : Attributes → Attributes} (hgeneration : ∀ a, (f a).generation = a.generation)
    (hdesired : ∀ a, (f a).desired = a.desired) : Tame enc inv task P (Controller.write f) :=
  hP.write (harmless_of hgeneration hdesired)

theorem Steady.releaseNetwork : Tame enc inv task P releaseNetwork :=
  Tame.bind (hP.call rfl) fun _ => Tame.refuse _ _

theorem Steady.cancelOperation : Tame enc inv task P cancelOperation := by
  refine Tame.bind Tame.read fun s => Tame.bind (Tame.when fun _ => ?_) fun _ => ?_
  · exact Tame.bind (hP.cancel _) fun _ => Tame.suppressCancelled (hP.join _ _)
  · exact hP.write (harmless_forget (harmless_of (fun _ => rfl) fun _ => rfl))

theorem Steady.stopHeartbeat (me : TaskId) : Tame enc inv task P (stopHeartbeat me) := by
  refine Tame.bind Tame.read fun s => Tame.when fun _ => ?_
  refine Tame.bind (hP.cancel _) fun _ => Tame.bind (Tame.suppressCancelled (hP.join _ _)) fun _ => ?_
  exact hP.write (harmless_forget (harmless_of (fun _ => rfl) fun _ => rfl))

theorem Steady.joinStream (joined : TaskId) : Tame enc inv task P (joinStream joined) := by
  refine Tame.bind Tame.read fun s => Tame.bind (Tame.when fun _ => hP.cancel _) fun _ => ?_
  refine Tame.bind (Tame.settle (hP.join _ _)) fun _ => ?_
  exact hP.write (harmless_forget (harmless_of (fun _ => rfl) fun _ => rfl))

theorem Steady.cleanupStream (me : TaskId) : Tame enc inv task P (cleanupStream me) := by
  refine Tame.bind (hP.stopHeartbeat me) fun _ => Tame.bind Tame.read fun s => ?_
  refine Tame.bind (Tame.when fun _ => hP.joinStream _) fun _ => ?_
  exact Tame.finallyDo (hP.call rfl) (Tame.when fun _ => hP.releaseNetwork)

theorem Steady.stopStream : Tame enc inv task P stopStream := by
  refine Tame.bind Tame.read fun s => Tame.bind (Tame.when fun _ => ?_) fun _ => ?_
  · exact Tame.bind (hP.create rfl) fun _ => hP.assign (fun _ => rfl) fun _ => rfl
  · exact Tame.bind Tame.read fun _ => hP.join _ _

theorem Steady.dropTrial : Tame enc inv task P dropTrial :=
  Tame.bind Tame.read fun _ => Tame.when fun _ => Tame.bind (hP.store rfl) fun _ => Tame.pure ()

theorem Steady.stop (message : String) : Tame enc inv task P (stop message) := by
  refine Tame.bind (hP.write fun a => ⟨Nat.le_refl _, fun h => by cases h⟩) fun _ => ?_
  refine Tame.bind hP.stopStream fun _ => Tame.bind hP.releaseNetwork fun _ => ?_
  exact Tame.bind hP.dropTrial fun _ => hP.assign (fun _ => rfl) fun _ => rfl

theorem Steady.restoreDefaults : Tame enc inv task P restoreDefaults := by
  refine Tame.bind (hP.stop _) fun _ => Tame.bind (hP.store rfl) fun _ => ?_
  exact hP.assign (fun _ => rfl) fun _ => rfl

theorem Steady.discover : Tame enc inv task P discover := by
  refine Tame.bind (hP.assign (fun _ => rfl) fun _ => rfl) fun _ => ?_
  refine Tame.finallyDo ?_ hP.releaseNetwork
  refine Tame.bind hP.releaseNetwork fun _ => Tame.bind (hP.call rfl) fun _ => ?_
  exact hP.assign (fun _ => rfl) fun _ => rfl

/-- A heartbeat's end, and the store calls of a tick and of a selection. -/
theorem Steady.recordStable : Tame enc inv task P recordStable := by
  refine Tame.bind Tame.clock fun now => Tame.bind Tame.read fun s => Tame.when fun _ => ?_
  exact Tame.bind (hP.store rfl) fun _ => hP.assign (fun _ => rfl) fun _ => rfl

theorem Steady.renewLease : Tame enc inv task P renewLease := by
  refine Tame.bind Tame.clock fun now => Tame.bind Tame.read fun s => Tame.when fun _ => ?_
  refine Tame.bind Tame.clock fun now => ?_
  refine Tame.bind (hP.assign (fun _ => rfl) fun _ => rfl) fun _ => ?_
  exact Tame.bind (hP.create rfl) fun _ => hP.assign (fun _ => rfl) fun _ => rfl

theorem Steady.select (payload : PyValue) : Tame enc inv task P (select payload) := by
  refine Tame.bind Tame.read fun s => Tame.bind (Tame.refuse _ _) fun _ => ?_
  refine Tame.bind (Tame.refuse _ _) fun _ => ?_
  split
  · exact Tame.raise _
  · exact Tame.bind (hP.store rfl) fun _ => Tame.pure ()

theorem Steady.failTrial : Tame enc inv task P failTrial := by
  refine Tame.bind Tame.read fun s => Tame.when fun _ => Tame.bind (hP.store rfl) fun _ => ?_
  exact hP.assign (fun _ => rfl) fun _ => rfl

theorem Steady.abandon : Tame enc inv task P abandon :=
  Tame.bind (hP.call rfl) fun _ => Tame.bind hP.releaseNetwork fun _ => Tame.raise _

theorem Steady.fail (attempts : Nat) (release : Bool) (text : String) :
    Tame enc inv task P (fail attempts release text) := by
  refine Tame.bind (hP.assign (fun _ => rfl) fun _ => rfl) fun _ => ?_
  refine Tame.bind (hP.call rfl) fun _ => Tame.bind (Tame.when fun _ => hP.releaseNetwork) fun _ => ?_
  refine Tame.bind (hP.store rfl) fun _ => Tame.bind hP.failTrial fun _ => Tame.bind Tame.read fun s => ?_
  split
  · refine Tame.bind (hP.write fun a => ⟨Nat.le_refl _, fun h => by cases h⟩) fun _ => Tame.pure _
  · refine Tame.bind (hP.assign (fun _ => rfl) fun _ => rfl) fun _ => ?_
    exact Tame.bind (hP.call rfl) fun _ => Tame.pure _

end Coroutines

end HccastWired.Desktop.Controller
