import HccastWired.Desktop.StreamAuthority
import HccastWired.Desktop.TrialProvenance

/-!
# Every run of the controller

Each task of the controller restores the authority of the stream and the account of the
trials before it gives up control, so both hold in every state that is reached.
-/

namespace HccastWired.Desktop.Controller

open Foundation

variable {enc : Encoding} {task : TaskId} {kind : Kind} {action : Action} {g : Nat} {profile : Profile}
  {s t : State} {P : State → Prop}

/-- What holds whenever a task runs on. -/
structure Sound (enc : Encoding) (s : State) : Prop where
  authority : Authority s
  trials : Trials enc s

section Conditions

/-- The task is of this kind. -/
structure Running (enc : Encoding) (task : TaskId) (kind : Kind) (s : State) : Prop where
  sound : Sound enc s
  kind : s.kindOf task = some kind

/-- The operation has not created its stream. -/
structure Fresh (enc : Encoding) (task : TaskId) (action : Action) (g : Nat) (s : State) : Prop where
  running : Running enc task (.guard action g) s
  none : ∀ j, .created task j (.stream g) ∉ s.log

/-- The stream has started the media with the profile last. -/
structure Starting (enc : Encoding) (task : TaskId) (g : Nat) (profile : Profile) (s : State) : Prop where
  running : Running enc task (.stream g) s
  started : ∃ newer older link gate, s.log = newer ++ .called task (.start link profile) gate :: older ∧
    ∀ link' profile' gate', .called task (.start link' profile') gate' ∉ newer

/-- The stream has shown the profile. -/
structure Showing (enc : Encoding) (task : TaskId) (g : Nat) (profile : Profile) (s : State) : Prop where
  running : Running enc task (.stream g) s
  shown : Shown task profile s.log

theorem Sound.quiet (h : Sound enc s) (hquiet : Quiet task s t) : Sound enc t :=
  ⟨h.authority.calm hquiet.calm, h.trials.quiet hquiet⟩

theorem Sound.saved {m : Move} {operation : StoreOperation} (h : Sound enc s)
    (hoperation : isBegin operation = false) : Sound enc (saveStep enc task m operation s).2 :=
  ⟨h.authority.calm calm_save, h.trials.saved hoperation⟩

theorem running_steady : Steady enc (Sound enc) task (Running enc task kind) where
  invariant _ h := h.sound
  others _ _ h hothers hinv := ⟨hinv, hothers.kinds task kind h.kind⟩
  quiet _ _ h hquiet := ⟨h.sound.quiet hquiet, hquiet.kinds task kind h.kind⟩
  saved _ _ _ h hoperation := ⟨h.sound.saved hoperation, h.kind⟩

theorem fresh_steady : Steady enc (Sound enc) task (Fresh enc task action g) where
  invariant _ h := h.running.sound
  others s t h hothers hinv := by
    refine ⟨running_steady.others s t h.running hothers hinv, fun j hj => ?_⟩
    obtain ⟨newer, hlog, hactor⟩ := hothers.log
    rw [hlog] at hj
    obtain hj | hj := List.mem_append.mp hj
    · exact hactor _ hj rfl
    · exact h.none j hj
  quiet s t h hquiet := by
    refine ⟨running_steady.quiet s t h.running hquiet, fun j hj => ?_⟩
    obtain ⟨newer, hlog, hnewer⟩ := hquiet.log
    rw [hlog] at hj
    obtain hj | hj := List.mem_append.mp hj
    · exact Bool.false_ne_true (hnewer _ hj).1
    · exact h.none j hj
  saved s m operation h hoperation := by
    refine ⟨running_steady.saved s m operation h.running hoperation, fun j hj => ?_⟩
    obtain heq | hj := List.mem_cons.mp hj
    · cases heq
    · exact h.none j hj

/-- The events of others and quiet ones start no media for the task. -/
theorem Starting.append {newer : List Event} (h : Starting enc task g profile s)
    (hrunning : Running enc task (.stream g) t) (hlog : t.log = newer ++ s.log)
    (hnewer : ∀ link profile gate, .called task (.start link profile) gate ∉ newer) :
    Starting enc task g profile t := by
  obtain ⟨newer', older, link, gate, hstarted, hlast⟩ := h.started
  refine ⟨hrunning, newer ++ newer', older, link, gate, ?_, fun link' profile' gate' hmem => ?_⟩
  · rw [hlog, hstarted, List.append_assoc]
  · obtain hmem | hmem := List.mem_append.mp hmem
    · exact hnewer link' profile' gate' hmem
    · exact hlast link' profile' gate' hmem

theorem starting_steady : Steady enc (Sound enc) task (Starting enc task g profile) where
  invariant _ h := h.running.sound
  others s t h hothers hinv := by
    obtain ⟨newer, hlog, hactor⟩ := hothers.log
    exact h.append (running_steady.others s t h.running hothers hinv) hlog
      fun link profile gate hmem => hactor _ hmem rfl
  quiet s t h hquiet := by
    obtain ⟨newer, hlog, hnewer⟩ := hquiet.log
    exact h.append (running_steady.quiet s t h.running hquiet) hlog
      fun link profile gate hmem => Bool.false_ne_true (hnewer _ hmem).1
  saved s m operation h hoperation := by
    refine @Starting.append enc task g profile s _ [_] h
      (running_steady.saved s m operation h.running hoperation) rfl ?_
    intro link profile gate hmem
    cases List.mem_singleton.mp hmem

end Conditions

section Operations

/-- The rule of the controller's tasks. -/
abbrev Goes (enc : Encoding) (task : TaskId) {α : Type} (P : State → Prop) (x : Act α) (Q : α → State → Prop)
    (F : Exn → State → Prop) : Prop :=
  Proc.Triple (kernel enc) (Sound enc) Others task P x Q F

theorem write_at {f : Attributes → Attributes} {F : Exn → State → Prop} :
    Goes enc task (fun s => P s) (write f) (fun _ t => ∃ s, P s ∧ t = writeStep task f s) F :=
  Proc.Triple.now rfl fun s m a t hs ha => by
    cases ha
    exact ⟨s, hs, rfl⟩

theorem create_at {new : Kind} {F : Exn → State → Prop} {Q : State → Prop}
    (h : ∀ s, P s → Q (createStep task new s).2) : Goes enc task P (create new) (fun _ => Q) F :=
  Proc.Triple.now rfl fun s m a t hs ha => by
    cases ha
    exact h s hs

/-- A launch is the operation of a new generation. -/
theorem launch_triple : Tame enc (Sound enc) task (Running enc task kind) (launch action) := by
  refine Proc.Triple.bind read_triple fun s => ?_
  refine Proc.Triple.bind (Q := fun _ t => Running enc task kind t ∧ t = s) (Proc.Triple.refuse
    (fun _ t ht => ht.1) fun _ _ ht => ht) fun _ => ?_
  have hbump : Harmless fun a => { a with generation := a.generation + 1 } := fun a => ⟨Nat.le_succ _, id⟩
  refine Proc.Triple.bind (Q := fun _ t => Running enc task kind t ∧ t.generation = s.generation + 1 ∧
    ∀ i a g, t.kindOf i = some (.guard a g) → g < t.generation) ?_ fun _ => ?_
  · refine write_at.post ?_
    rintro _ t ⟨_, ⟨hrunning, rfl⟩, rfl⟩
    have hgeneration : ∀ u : State, (writeStep task (fun a => { a with generation := a.generation + 1 }) u).generation =
        u.generation + 1 := fun u => congrArg Attributes.generation (writeStep_attributes task _ u)
    refine ⟨running_steady.quiet _ _ hrunning (quiet_write hbump), hgeneration _, fun i a g hk => ?_⟩
    rw [writeStep_kindOf] at hk
    rw [hgeneration]
    exact Nat.lt_succ_of_le (hrunning.sound.authority.operations i a g hk)
  refine Proc.Triple.bind (Q := fun _ => Running enc task kind) (create_at ?_) fun created => ?_
  · rintro t ⟨hrunning, hgeneration, hfresh⟩
    rw [← hgeneration]
    refine ⟨⟨hrunning.sound.authority.add (fun a g he => ?_) fun g he => (by cases he),
      hrunning.sound.trials.create⟩, kindOf_append.mpr (.inl hrunning.kind)⟩
    cases he
    exact ⟨Nat.le_refl _, fun i b hk => Nat.lt_irrefl _ (hfresh i b _ hk)⟩
  · exact running_steady.assign (fun _ => rfl) fun _ => rfl

theorem fresh_tame {α : Type} {x : Act α} (h : Tame enc (Sound enc) task (Fresh enc task action g) x) :
    Goes enc task (Fresh enc task action g) x (fun _ => Fresh enc task action g)
      fun _ => Running enc task (.guard action g) :=
  h.conseq (fun _ hs => hs) (fun _ _ hs => hs) fun _ _ hs => hs.running

/-- An operation creates its stream, if it can stream. -/
theorem startIfCan_triple {f : Attributes → Attributes} (hf : Harmless f) :
    Goes enc task (Fresh enc task action g) (startIfCan g f) (fun _ => Running enc task (.guard action g))
      fun _ => Running enc task (.guard action g) := by
  refine Proc.Triple.bind (fresh_tame Tame.read) fun s => ?_
  refine Proc.Triple.when (fun _ => ?_) fun _ _ hs => hs.running
  refine Proc.Triple.bind (fresh_tame (fresh_steady.write hf)) fun _ => ?_
  refine Proc.Triple.bind (Q := fun _ => Running enc task (.guard action g)) (create_at ?_) fun created => ?_
  · intro t ht
    refine ⟨⟨ht.running.sound.authority.add (fun a g he => by cases he) fun g he => ?_,
      ht.running.sound.trials.create⟩, kindOf_append.mpr (.inl ht.running.kind)⟩
    cases he
    exact ⟨⟨action, ht.running.kind⟩, ht.none⟩
  · exact running_steady.assign (fun _ => rfl) fun _ => rfl

theorem fresh_running {α : Type} {x : Act α} (h : Tame enc (Sound enc) task (Fresh enc task action g) x) :
    Goes enc task (Fresh enc task action g) x (fun _ => Running enc task (.guard action g))
      fun _ => Running enc task (.guard action g) :=
  h.conseq (fun _ hs => hs) (fun _ _ hs => hs.running) fun _ _ hs => hs.running

theorem perform_triple : Goes enc task (Fresh enc task action g) (perform g action)
    (fun _ => Running enc task (.guard action g)) fun _ => Running enc task (.guard action g) := by
  cases action with
  | stop message => exact fresh_running (fresh_steady.stop message)
  | restoreDefaults => exact fresh_running fresh_steady.restoreDefaults
  | discover => exact fresh_running fresh_steady.discover
  | start =>
    refine Proc.Triple.bind (fresh_tame fresh_steady.stopStream) fun _ => ?_
    refine Proc.Triple.bind (fresh_tame Tame.read) fun s => ?_
    refine Proc.Triple.when (fun _ => ?_) fun _ _ hs => hs.running
    refine Proc.Triple.bind (fresh_tame fresh_steady.releaseNetwork) fun _ => ?_
    exact startIfCan_triple fun _ => ⟨Nat.le_refl _, id⟩
  | changeProfile profile =>
    refine Proc.Triple.bind (fresh_tame fresh_steady.stopStream) fun _ => ?_
    exact startIfCan_triple (harmless_of (fun _ => rfl) fun _ => rfl)
  | revert =>
    refine Proc.Triple.bind (fresh_tame (fresh_steady.assign (fun _ => rfl) fun _ => rfl))
      fun _ => ?_
    have hend : Tame enc (Sound enc) task (Running enc task (.guard .revert g))
        (write fun s => { s with reverting := false }) :=
      running_steady.assign (fun _ => rfl) fun _ => rfl
    refine Proc.Triple.finallyDo ?_ (fun _ => hend) fun _ => hend
    refine Proc.Triple.bind (fresh_tame fresh_steady.stopStream) fun _ => ?_
    refine Proc.Triple.bind (fresh_tame fresh_steady.dropTrial) fun _ => ?_
    refine Proc.Triple.bind (fresh_tame (fresh_steady.assign (fun _ => rfl) fun _ => rfl))
      fun _ => ?_
    exact startIfCan_triple fun _ => ⟨Nat.le_refl _, id⟩

theorem guard_triple : Goes enc task (Fresh enc task action g) (guard action g)
    (fun _ => Running enc task (.guard action g)) fun _ => Running enc task (.guard action g) := by
  refine Proc.Triple.handle perform_triple fun e => ?_
  cases e with
  | cancelled => exact Tame.raise _
  | error text =>
    exact running_steady.write (harmless_forget (harmless_of (fun _ => rfl) fun _ => rfl))

end Operations

section Streams

/-- The stream can go on, and nothing has run since that was checked. -/
structure Able (enc : Encoding) (task : TaskId) (g : Nat) (s : State) : Prop where
  running : Running enc task (.stream g) s
  can : s.canStream g = true

theorem checkStream_able :
    Goes enc task P (checkStream g) (fun _ s => P s ∧ s.canStream g = true) fun _ => P := by
  refine Proc.Triple.bind read_triple fun s => ?_
  refine Proc.Triple.refuse (fun _ t ht => ht.1) ?_
  rintro hc t ⟨ht, rfl⟩
  exact ⟨ht, Bool.not_eq_false' _ ▸ hc⟩

/-- The receiver is chosen without giving up control. -/
theorem choose_able : Goes enc task (Able enc task g) choose (fun _ => Able enc task g)
    fun _ => Running enc task (.stream g) := by
  refine Proc.Triple.bind (Q := fun _ => Able enc task g) (read_triple.post fun _ _ hs => hs.1) fun s => ?_
  split
  · split
    · exact Proc.Triple.pure fun _ hs => hs
    · exact Proc.Triple.raise fun _ hs => hs.running
  · split
    · refine Proc.Triple.bind (Q := fun _ => Able enc task g) ?_ fun _ => Proc.Triple.pure fun _ hs => hs
      refine Proc.Triple.bind (Q := fun _ => Able enc task g) (Proc.Triple.now rfl fun s m a t hs ha => ?_)
        fun outcome => ?_
      · cases ha
        exact ⟨running_steady.saved s m _ hs.running rfl, hs.can⟩
      · refine Proc.Triple.ofAnswer fun s hs => ?_
        cases outcome with
        | ok a => exact hs
        | error e => exact hs.running
    · exact Proc.Triple.raise fun _ hs => hs.running

theorem prepare_triple : Goes enc task (Running enc task (.stream g)) (prepare g)
    (fun _ => Able enc task g) fun _ => Running enc task (.stream g) := by
  have hS : Steady enc (Sound enc) task (Running enc task (.stream g)) := running_steady
  refine Proc.Triple.bind (hS.assign (fun _ => rfl) fun _ => rfl) fun _ => ?_
  refine Proc.Triple.bind (hS.call rfl) fun candidates => ?_
  refine Proc.Triple.bind (hS.assign (fun _ => rfl) fun _ => rfl) fun _ => ?_
  refine Proc.Triple.bind (checkStream_able.post fun _ s hs =>
    (⟨hs.1, hs.2⟩ : Able enc task g s)) fun _ => ?_
  refine Proc.Triple.bind choose_able fun peer => ?_
  refine Proc.Triple.bind (Q := fun _ => Able enc task g) (write_at.post ?_) fun _ =>
    Proc.Triple.pure fun _ hs => hs
  rintro _ t ⟨s, hs, rfl⟩
  refine ⟨hS.quiet _ _ hs.running (quiet_write (harmless_of (fun _ => rfl) fun _ => rfl)), ?_⟩
  have hcan := hs.can
  rw [State.canStream] at hcan ⊢
  rw [writeStep_attributes]
  exact hcan

/-- The stream begins the connection, or the media. -/
theorem begin_triple {c : Await} (hP : Steady enc (Sound enc) task P)
    (h : ∀ s, Sound enc (enter task (.call c) s) → Able enc task g s → P (enter task (.call c) s)) :
    Goes enc task (Able enc task g) (call c) (fun _ => P) fun _ => P := by
  have hcalled : ∀ s, Able enc task g s → P (enter task (.call c) s) := fun s hs =>
    h s ⟨hs.running.sound.authority.begins hs.running.kind hs.can,
      hs.running.sound.trials.record fun i operation b a he => by cases he⟩ hs
  refine Proc.Triple.bind (Q := fun _ => P) (Proc.Triple.wait rfl (fun s hs => hP.invariant _ (hcalled s hs))
    fun s s' m a t hs hothers hs' ha => ?_) fun outcome => Tame.ofAnswer outcome
  exact hP.answered (hP.others _ s' (hcalled s hs) hothers hs') (Option.some.inj ha)

theorem connect_triple (candidate : String) : Goes enc task (Able enc task g) (call (.connect candidate))
    (fun _ => Running enc task (.stream g)) fun _ => Running enc task (.stream g) :=
  begin_triple running_steady fun _ hsound hs => ⟨hsound, hs.running.kind⟩

theorem start_triple (link : PyValue) : Goes enc task (Able enc task g) (call (.start link profile))
    (fun _ => Starting enc task g profile) fun _ => Starting enc task g profile :=
  begin_triple starting_steady fun s hsound hs => ⟨⟨hsound, hs.running.kind⟩, [], s.log, link, _, rfl,
    fun _ _ _ hmem => absurd hmem List.not_mem_nil⟩

/-- The media have become ready. -/
theorem ready_triple : Goes enc task (Starting enc task g profile) (call .ready)
    (fun _ => Showing enc task g profile) fun _ => Running enc task (.stream g) := by
  have hS : Steady enc (Sound enc) task (Starting enc task g profile) := starting_steady
  have hcalled : ∀ s, Starting enc task g profile s → Starting enc task g profile (enter task (.call .ready) s) :=
    fun s hs => hS.quiet s _ hs (quiet_record rfl rfl fun i desired he => by cases he)
  refine Proc.Triple.bind (Q := fun outcome s => Running enc task (.stream g) s ∧ ∀ a, outcome = .ok a →
    Showing enc task g profile s) (Proc.Triple.wait rfl (fun s hs => hS.invariant _ (hcalled s hs))
    fun s s' m a t hs hothers hs' ha => ?_) fun outcome => ?_
  · have hlater : Starting enc task g profile s' := hS.others _ s' (hcalled s hs) hothers hs'
    have hstep : callStep task .ready m s' = (a, t) := Option.some.inj ha
    have hcancel : Starting enc task g profile (s'.setCancelled task false) := hS.quiet _ _ hlater quiet_cancel
    rw [callStep] at hstep
    split at hstep
    · cases hstep
      have hrunning := running_steady.quiet _ _ hcancel.running
        (quiet_record (e := .returned task .ready) rfl rfl fun i desired he => by cases he)
      refine ⟨hrunning, fun _ _ => ⟨hrunning, ?_⟩⟩
      obtain ⟨newer, older, link, gate, hlog, hlast⟩ := hcancel.started
      exact ⟨[], newer, older, link, gate, congrArg (List.cons _) hlog, hlast⟩
    · cases hstep
      exact ⟨hcancel.running, fun _ he => by cases he⟩
  · refine Proc.Triple.ofAnswer fun s hs => ?_
    cases outcome with
    | ok a => exact hs.2 a rfl
    | error e => exact hs.1

/-- A trial is begun for the profile that is shown. -/
theorem beginTrial_triple : Goes enc task (Showing enc task g profile) (beginTrial profile)
    (fun _ => Running enc task (.stream g)) fun _ => Running enc task (.stream g) := by
  refine Proc.Triple.bind (Q := fun _ => Showing enc task g profile) (read_triple.post fun _ _ hs => hs.1)
    fun s => ?_
  refine Proc.Triple.when (fun _ => ?_) fun _ _ hs => hs.running
  refine Proc.Triple.bind (Q := fun _ => Showing enc task g profile) (Proc.Triple.now rfl fun s m a t hs ha => ?_)
    fun now => ?_
  · cases ha
    exact hs
  refine Proc.Triple.bind (Q := fun _ => Running enc task (.stream g)) ?_ fun _ => Tame.pure ()
  refine Proc.Triple.bind (Q := fun _ => Running enc task (.stream g)) (Proc.Triple.now rfl
    fun s m a t hs ha => ?_) fun outcome => Tame.ofAnswer outcome
  cases ha
  exact ⟨⟨hs.running.sound.authority.calm calm_save, hs.running.sound.trials.begin hs.shown⟩, hs.running.kind⟩

theorem present_triple (peer : Peer) (link : PyValue) : Goes enc task (Running enc task (.stream g))
    (present g peer link) (fun _ => Running enc task (.stream g)) fun _ => Running enc task (.stream g) := by
  have hS : Steady enc (Sound enc) task (Running enc task (.stream g)) := running_steady
  refine Proc.Triple.bind (checkStream_able.post fun _ s hs =>
    (⟨hs.1, hs.2⟩ : Able enc task g s)) fun _ => ?_
  refine Proc.Triple.bind (Q := fun _ => Able enc task g) (read_triple.post fun _ _ hs => hs.1) fun s => ?_
  refine Proc.Triple.bind ((start_triple link).conseq (fun _ hs => hs) (fun _ _ hs => hs)
    fun _ _ hs => hs.running) fun _ => ?_
  refine Proc.Triple.bind (Q := fun _ => Starting enc task g s.nextProfile) (checkStream_able.conseq
    (fun _ hs => hs) (fun _ _ hs => hs.1) fun _ _ hs => hs.running) fun _ => ?_
  refine Proc.Triple.bind ready_triple fun _ => ?_
  refine Proc.Triple.bind (Q := fun _ => Showing enc task g s.nextProfile) (checkStream_able.conseq
    (fun _ hs => hs) (fun _ _ hs => hs.1) fun _ _ hs => hs.running) fun _ => ?_
  refine Proc.Triple.bind beginTrial_triple fun _ => ?_
  refine Tame.bind Tame.clock fun now => ?_
  refine Tame.bind (hS.assign (fun _ => rfl) fun _ => rfl) fun _ => ?_
  exact Tame.bind (hS.call rfl) fun _ => Tame.raise _

theorem attempt_triple : Tame enc (Sound enc) task (Running enc task (.stream g)) (attempt g) := by
  refine Proc.Triple.bind prepare_triple.settle fun prepared => ?_
  cases prepared with
  | error e => exact Proc.Triple.pure fun _ hs => hs
  | ok peer =>
    refine Proc.Triple.bind (connect_triple peer.id).settle fun connected => ?_
    cases connected with
    | error e => exact Proc.Triple.pure fun _ hs => hs
    | ok link => exact Tame.bind (Tame.settle (present_triple peer link)) fun outcome => Tame.pure _

theorem turn_triple (attempts : Nat) :
    Tame enc (Sound enc) task (Running enc task (.stream g)) (turn g attempts) := by
  refine Tame.finallyDo (Tame.bind attempt_triple fun ended => ?_)
    (running_steady.assign (fun _ => rfl) fun _ => rfl)
  split
  · exact running_steady.abandon
  · exact running_steady.fail _ _ _
  · exact Tame.pure _

theorem stream_triple : Tame enc (Sound enc) task (Running enc task (.stream g)) (stream g) := by
  have hloop : ∀ left, Tame enc (Sound enc) task (Running enc task (.stream g)) (streamLoop g left) := by
    intro left
    induction left with
    | zero => exact Tame.pure ()
    | succ left ih =>
      refine Tame.bind Tame.read fun s => ?_
      split
      · refine Tame.bind (turn_triple _) fun again => ?_
        split
        · exact ih
        · exact Tame.pure ()
      · exact Tame.pure ()
  exact Tame.bind (hloop 3) fun _ => running_steady.releaseNetwork

end Streams

section Requests

/-- A launch that wants the stream is left to the requests that may. -/
theorem launchStart_triple (hwants : kind.wants = true) :
    Tame enc (Sound enc) task (Running enc task kind) launchStart := by
  refine Tame.bind launch_triple fun _ => write_at.post ?_
  rintro _ t ⟨s, hs, rfl⟩
  have hauthority := hs.sound.authority.want (f := fun a => { a with desired := true }) hs.kind hwants
    (fun _ => rfl) fun _ => rfl
  refine ⟨⟨hauthority, hs.sound.trials.write⟩, ?_⟩
  rw [writeStep_kindOf]
  exact hs.kind

theorem heartbeat_triple : Tame enc (Sound enc) task (Running enc task kind) (heartbeat task g) := by
  have hS : Steady enc (Sound enc) task (Running enc task kind) := running_steady
  refine Tame.finallyDo (Tame.handle (hS.call rfl) fun e => ?_)
    (hS.write (harmless_forget (harmless_of (fun _ => rfl) fun _ => rfl)))
  cases e with
  | cancelled => exact Tame.raise _
  | error text =>
    refine Tame.bind Tame.read fun s => Tame.when fun _ => ?_
    refine Tame.bind (hS.write fun a => ⟨Nat.le_succ _, fun h => by cases h⟩) fun _ => ?_
    exact hS.withLock (Tame.bind hS.cancelOperation fun _ => launch_triple)

theorem applyProfile_triple (payload : PyValue) :
    Tame enc (Sound enc) task (Running enc task kind) (applyProfile payload) := by
  refine Tame.bind Tame.read fun s => Tame.bind (Tame.refuse _ _) fun _ => ?_
  refine Tame.bind (Tame.refuse _ _) fun _ => ?_
  split
  · exact Tame.raise _
  · exact Tame.bind (Tame.refuse _ _) fun _ => launch_triple

theorem confirmProfile_triple : Tame enc (Sound enc) task (Running enc task kind) confirmProfile := by
  have hS : Steady enc (Sound enc) task (Running enc task kind) := running_steady
  refine Tame.bind Tame.clock fun now => Tame.bind Tame.read fun s => ?_
  refine Tame.bind (Tame.when fun _ => Tame.bind launch_triple fun _ => Tame.raise _) fun _ => ?_
  refine Tame.bind ?_ fun kept => Tame.bind (Tame.refuse _ _) fun _ =>
    hS.assign (fun _ => rfl) fun _ => rfl
  rw [keepTrial]
  split
  · exact hS.store rfl
  · exact Tame.pure _

theorem commandLocked_triple (verb : Verb) (payload : PyValue) :
    Tame enc (Sound enc) task (Running enc task (.command verb payload)) (commandLocked verb payload) := by
  have hS : Steady enc (Sound enc) task (Running enc task (.command verb payload)) := running_steady
  refine Tame.bind Tame.read fun s => Tame.bind (Tame.refuse _ _) fun _ => Tame.bind (Tame.refuse _ _) fun _ => ?_
  cases verb with
  | about => exact Tame.pure ()
  | stop => exact Tame.bind hS.cancelOperation fun _ => launch_triple
  | restoreDefaults => exact Tame.bind hS.cancelOperation fun _ => launch_triple
  | start =>
    exact Tame.bind (Tame.refuse _ _) fun _ => Tame.bind (Tame.refuse _ _) fun _ => launchStart_triple rfl
  | discover => exact Tame.bind (Tame.refuse _ _) fun _ => launch_triple
  | select => exact hS.select payload
  | applyProfile => exact applyProfile_triple payload
  | confirmProfile => exact confirmProfile_triple
  | revertProfile =>
    refine Tame.bind (hS.write fun a => ⟨Nat.le_succ _, id⟩) fun _ => ?_
    exact Tame.bind hS.cancelOperation fun _ => launch_triple
  | other text => exact Tame.raise _

theorem command_triple (verb : Verb) (payload : PyValue) :
    Tame enc (Sound enc) task (Running enc task (.command verb payload)) (command verb payload) := by
  have hS : Steady enc (Sound enc) task (Running enc task (.command verb payload)) := running_steady
  refine Tame.bind Tame.read fun s => Tame.bind (Tame.when fun _ => ?_) fun _ =>
    hS.withLock (commandLocked_triple verb payload)
  exact hS.write fun a => ⟨Nat.le_succ _, fun h => by cases h⟩

theorem tick_triple : Tame enc (Sound enc) task (Running enc task kind) tick := by
  have hS : Steady enc (Sound enc) task (Running enc task kind) := running_steady
  refine Tame.bind Tame.read fun s => Tame.when fun _ => Tame.bind ?_ fun _ =>
    Tame.bind hS.renewLease fun _ => hS.recordStable
  exact Tame.bind Tame.clock fun now => Tame.bind Tame.read fun s => Tame.when fun _ => launch_triple

theorem sessionChanged_triple (active : Bool) :
    Tame enc (Sound enc) task (Running enc task (.sessionChanged active)) (sessionChanged active) := by
  have hS : Steady enc (Sound enc) task (Running enc task (.sessionChanged active)) := running_steady
  refine Tame.bind Tame.read fun s => Tame.when fun _ => ?_
  refine Tame.bind (hS.assign (fun _ => rfl) fun _ => rfl) fun _ => ?_
  cases active with
  | true =>
    refine hS.withLock (Tame.bind Tame.read fun s => Tame.when fun _ => ?_)
    refine Tame.bind (hS.assign (fun _ => rfl) fun _ => rfl) fun _ => ?_
    exact Tame.bind hS.cancelOperation fun _ => launchStart_triple rfl
  | false =>
    refine Tame.bind (hS.write fun a => ⟨Nat.le_succ _, fun h => by cases h⟩) fun _ => ?_
    exact hS.withLock (Tame.bind hS.cancelOperation fun _ => hS.stop _)

theorem shutdown_triple : Tame enc (Sound enc) task (Running enc task kind) shutdown := by
  have hS : Steady enc (Sound enc) task (Running enc task kind) := running_steady
  refine Tame.bind (hS.write fun a => ⟨Nat.le_succ _, fun h => by cases h⟩) fun _ => ?_
  exact hS.withLock (Tame.bind hS.cancelOperation fun _ => Tame.bind hS.stopStream fun _ => hS.releaseNetwork)

end Requests

section Runs

/-- No other task has acted for it. -/
def Untouched (task : TaskId) (s : State) : Prop :=
  ∀ e ∈ s.log, e.actor ≠ task

/-- A task that has not run yet keeps what holds whenever a task runs on. -/
theorem code_triple {s : State} (hs : Running enc task kind s) (huntouched : Untouched task s) :
    ∃ P, P s ∧ Proc.Triple (kernel enc) (Sound enc) Others task P (code task kind) (fun _ => Sound enc)
      fun _ => Sound enc := by
  have hsound : ∀ {α : Type} {k : Kind} {x : Act α}, Tame enc (Sound enc) task (Running enc task k) x →
      Proc.Triple (kernel enc) (Sound enc) Others task (Running enc task k) x (fun _ => Sound enc)
        fun _ => Sound enc :=
    fun h => h.conseq (fun _ h => h) (fun _ _ h => h.sound) fun _ _ h => h.sound
  cases kind with
  | command verb payload => exact ⟨_, hs, hsound (command_triple verb payload)⟩
  | tick => exact ⟨_, hs, hsound tick_triple⟩
  | sessionChanged active => exact ⟨_, hs, hsound (sessionChanged_triple active)⟩
  | shutdown => exact ⟨_, hs, hsound shutdown_triple⟩
  | guard action g =>
    exact ⟨Fresh enc task action g, ⟨hs, fun j hj => huntouched _ hj rfl⟩,
      guard_triple.conseq (fun _ h => h) (fun _ _ h => h.sound) fun _ _ h => h.sound⟩
  | stream g => exact ⟨_, hs, hsound stream_triple⟩
  | cleanup => exact ⟨_, hs, hsound (running_steady.cleanupStream task)⟩
  | heartbeat g => exact ⟨_, hs, hsound heartbeat_triple⟩

theorem untouched_later (h : Others task s t) (huntouched : Untouched task s) : Untouched task t := by
  intro e he
  obtain ⟨newer, hlog, hactor⟩ := h.log
  rw [hlog] at he
  obtain he | he := List.mem_append.mp he
  · exact hactor e he
  · exact huntouched e he

/-- The first turn of a task. -/
theorem body_waits {c : Act Unit} (huntouched : Untouched task s) (hbody : body s task = some c) :
    (kernel enc).Waits (Sound enc) Others task c s := by
  obtain ⟨kind, hkind, rfl⟩ := Option.map_eq_some_iff.mp hbody
  refine Proc.Triple.waits fun s' m a t hothers hs' ha => ?_
  have hlater : Running enc task kind s' := ⟨hs', hothers.kinds task kind hkind⟩
  have hstep : beginStep task s' = (a, t) := Option.some.inj ha
  rw [beginStep] at hstep
  split at hstep
  · cases hstep
    refine ⟨Sound enc, (running_steady.quiet s' _ hlater quiet_cancel).sound, ?_⟩
    exact Proc.Triple.bind (Q := fun _ _ => False) (Proc.Triple.ofAnswer fun _ h => h) fun _ _ hs => hs.elim
  · cases hstep
    obtain ⟨P, hP, htriple⟩ := code_triple hlater (untouched_later hothers huntouched)
    exact ⟨P, hP, Proc.Triple.bind (Q := fun _ => P) (Proc.Triple.ofAnswer fun _ h => h) fun _ =>
      htriple⟩

theorem lawful : (kernel enc).Lawful (Sound enc) Others outside where
  refl := Others.refl
  trans _ _ _ _ h h' := h.trans h'
  enter _ _ o _ hne := enter_others hne o
  answer _ _ _ _ _ _ _ hne h := answer_others hne h
  finish i outcome s hs := by
    have hkinds : ∀ j, (s.setOutcome i outcome).kindOf j = s.kindOf j := fun j => kindOf_setOutcome outcome j
    refine ⟨⟨hs.authority.calm (calm_same rfl hkinds rfl rfl), ?_⟩, fun j _ => others_of rfl hkinds⟩
    exact @Trials.append enc s _ [] hs.trials rfl rfl fun _ he => absurd he List.not_mem_nil
  outside event s t hs h := by
    exact ⟨⟨hs.authority.calm (calm_outside h), hs.trials.outside h⟩, fun i => outside_others h⟩

/-- Whatever the tasks, the callers, the network and the media do, the authority and the
account are restored. -/
theorem controller_sound {faults : FileOp → Bool} {path : PathNode} {backups : String → PathNode} {host : Host}
    {w : Tasks State Op Answer (Except Exn Unit)}
    (hcreate : StateStore.create enc faults path backups = .ok host)
    (hrun : (controller enc).Reaches System.Any (start host) w) : Sound enc w.shared :=
  Kernel.reaches_inv lawful (fun _ _ _ => untouched_later) (fun _ _ _ _ huntouched hbody =>
    body_waits huntouched hbody)
    ⟨authority_initial host, trials_initial (create_inv hcreate) (create_pending hcreate)⟩ (fun _ => rfl)
    (fun _ _ he => absurd he List.not_mem_nil) hrun

/-- In every run a connection or the media are only begun by the one stream of the current
generation, while it is wanted and the session is unlocked. -/
theorem stream_gated {faults : FileOp → Bool} {path : PathNode} {backups : String → PathNode} {host : Host}
    {w : Tasks State Op Answer (Except Exn Unit)}
    (hcreate : StateStore.create enc faults path backups = .ok host)
    (hrun : (controller enc).Reaches System.Any (start host) w) : Gated w.shared.log ∧ Wanted w.shared :=
  have hsound := controller_sound hcreate hrun
  ⟨hsound.authority.gated, hsound.authority.wanted⟩

/-- In every run the kept settings change only to the defaults, to the known good ones, or to
those of a trial that was shown and kept in time. -/
theorem trials_accounted {faults : FileOp → Bool} {path : PathNode} {backups : String → PathNode} {host : Host}
    {w : Tasks State Op Answer (Except Exn Unit)}
    (hcreate : StateStore.create enc faults path backups = .ok host)
    (hrun : (controller enc).Reaches System.Any (start host) w) : Accounted w.shared.log :=
  (controller_sound hcreate hrun).trials.accounted

end Runs

section Sample

/-- One display is found, and what is asked of the network and the media is done. -/
def sampleMove : Move :=
  ⟨0, none, fun _ => false, .ok [⟨"p2p", "EBPSI-A1", "02:00:00:00:00:01"⟩], .ok (.dict []), .ok true, .ok ()⟩

def sampleTurn (task : TaskId) : Turn Outside Move :=
  .resume task sampleMove (List.replicate 12 sampleMove)

/-- A start: the command, its operation, the cleanup, and the stream up to its connection. -/
def sampleTurns : List (Turn Outside Move) :=
  .outside (.request (.command .start (.dict []))) :: [0, 0, 1, 2, 2, 1, 1, 3, 3].map sampleTurn

def sampleHost : Host := ⟨.initial, .absent, fun _ => .absent, none, 0⟩

theorem sampleHost_created :
    StateStore.create sampleEncoding (fun _ => false) .absent (fun _ => .absent) = .ok sampleHost :=
  rfl

/-- The display is selected, and then connected to. -/
def connectsSelected : List Event → Bool
  | .called _ (.connect "p2p") gate :: .saved _ (.selectDevice _ _) _ after :: _ =>
      gate.kind = some (.stream gate.generation) && after.selectedDevice = some sampleDevice
  | _ => false

theorem sample_runs : (((controller sampleEncoding).exec (start sampleHost) sampleTurns).any
    fun w => connectsSelected w.shared.log) = true := by
  decide +kernel

theorem sample_reaches : ∃ w, (controller sampleEncoding).Reaches System.Any (start sampleHost) w ∧
    connectsSelected w.shared.log = true := by
  obtain ⟨w, hexec, hconnects⟩ := (Option.any_eq_true _ _).mp sample_runs
  exact ⟨w, System.reaches_of_exec hexec, hconnects⟩

theorem stream_gated_started : ∃ w, (controller sampleEncoding).Reaches System.Any (start sampleHost) w ∧
    connectsSelected w.shared.log = true ∧ Gated w.shared.log ∧ Wanted w.shared := by
  obtain ⟨w, hrun, hconnects⟩ := sample_reaches
  exact ⟨w, hrun, hconnects, stream_gated sampleHost_created hrun⟩

theorem trials_accounted_started : ∃ w, (controller sampleEncoding).Reaches System.Any (start sampleHost) w ∧
    connectsSelected w.shared.log = true ∧ Accounted w.shared.log := by
  obtain ⟨w, hrun, hconnects⟩ := sample_reaches
  exact ⟨w, hrun, hconnects, trials_accounted sampleHost_created hrun⟩

end Sample

end HccastWired.Desktop.Controller
