import HccastWired.Live.Checkpoint

/-!
# A checkpoint run releases the hardware

Whatever the calls outside return or raise, an attempt that was begun is stopped and the
helpers of a soak are told to end, unless a health check raises in the polling loop. No
other exception gets past the cleanup.
-/

namespace HccastWired.Live

open Foundation

namespace Checkpoint

/-! ## The attempt's thread -/

/-- The calls of `attempt.run` that a thread at this stage has made. -/
def WorkerStage.calls : WorkerStage → Nat
  | absent => 0
  | started => 0
  | running => 1
  | settled => 1
  | ended => 1

/-- The thread calls `attempt.run` once, when it has begun. -/
def Worker.Counted (w : Worker) : Prop :=
  w.runs = w.stage.calls

/-- The property survives the moves of the attempt's thread. -/
def Moving (A : Worker → AttemptLedger → Prop) : Prop :=
  ∀ w l move, A w l → A (w.move move) l

theorem move_counted (w : Worker) (move : WorkerMove) (h : w.Counted) : (w.move move).Counted := by
  unfold Worker.Counted at h ⊢
  cases move with
  | begins =>
      by_cases hstage : w.stage = .started
      · simp [Worker.move, hstage, h, WorkerStage.calls]
      · simpa [Worker.move, hstage] using h
  | publishes event emitted now =>
      by_cases hstage : w.stage = .running
      · simpa [Worker.move, hstage] using h
      · simpa [Worker.move, hstage] using h
  | settles outcome =>
      by_cases hstage : w.stage = .running
      · cases outcome <;> simp [Worker.move, hstage, h, WorkerStage.calls]
      · simpa [Worker.move, hstage] using h
  | ends =>
      by_cases hstage : w.stage = .settled
      · simp [Worker.move, hstage, h, WorkerStage.calls]
      · simpa [Worker.move, hstage] using h

/-- A thread that is not alive stays so. -/
theorem move_alive (w : Worker) (move : WorkerMove) (h : w.alive = false) :
    (w.move move).alive = false := by
  have hstage : w.stage = .absent ∨ w.stage = .ended := by
    cases hw : w.stage <;> simp_all [Worker.alive]
  cases move <;> obtain hstage | hstage := hstage <;> simpa [Worker.move, hstage] using h

/-- The recorder has been told to stop exactly where a poll of its `close` has returned. -/
structure Helped (b : Bench) : Prop where
  told : b.helpers.told = true ↔ true ∈ b.helpers.closePolls
  cached : (b.telemetry.bind (·.result)).isSome = true → b.helpers.told = true

/-- What is said of the attempt, and of what was asked of the helpers, of the recorder and
of whether there is a server. -/
structure Held (A : Worker → AttemptLedger → Prop)
    (G : HelperLedger → Option Telemetry → Bool → Prop) (b : Bench) : Prop where
  attempt : A b.worker b.attempt
  helped : Helped b
  helpers : G b.helpers b.telemetry b.server.isSome

section Steps

variable {env : Answers} {A : Worker → AttemptLedger → Prop}
  {G G' : HelperLedger → Option Telemetry → Bool → Prop} {F : String → Bench → Prop}

theorem Moving.all (h : Moving A) {w : Worker} {l : AttemptLedger} (moves : List WorkerMove)
    (hA : A w l) : A (moves.foldl Worker.move w) l := by
  induction moves generalizing w with
  | nil => exact hA
  | cons move moves ih => exact ih (h w l move hA)

/-- The answers are asked for while the thread moves; the main thread's things stay. -/
theorem triple_tick (hA : Moving A) :
    Task.Triple (Held A G) (tick env) (fun _ => Held A G) F := by
  unfold tick
  refine Task.Triple.bind (Q := fun before b => b = before ∧ Held A G b)
    (Task.Triple.get fun b hb => ⟨rfl, hb⟩) fun before => ?_
  refine Task.Triple.bind (Q := fun _ => Held A G)
    (Task.Triple.update ?_) fun _ => Task.Triple.pure fun _ hb => hb
  rintro b ⟨-, hb⟩
  exact ⟨hA.all _ hb.attempt, ⟨hb.helped.told, hb.helped.cached⟩, hb.helpers⟩

/-- A call outside whose answer is returned or raised. -/
theorem triple_answer {α : Type} (hA : Moving A) (answer : Nat → Except String α) :
    Task.Triple (Held A G) (tick env >>= fun i => Task.ofAnswer (answer i)) (fun _ => Held A G)
      fun _ => Held A G := by
  refine Task.Triple.bind (triple_tick hA) fun i => ?_
  exact Task.Triple.ofAnswer (fun _ _ _ hb => hb) fun _ _ _ hb => hb

/-! ## The helpers -/

/-- `close` of the server has been called whatever comes of it. -/
theorem triple_closeServer (hA : Moving A) (hG : ∀ l t s, G l t s → G' { l with closeCalled := true } t s) :
    Task.Triple (Held A G) (closeServer env) (fun _ => Held A G') fun _ => Held A G' := by
  unfold closeServer noteHelpers
  refine Task.Triple.bind (Q := fun _ => Held A G') (Task.Triple.update ?_) fun _ => ?_
  · intro b hb
    exact ⟨hb.attempt, ⟨hb.helped.told, hb.helped.cached⟩, hG _ _ _ hb.helpers⟩
  refine Task.Triple.bind (Q := fun before b => b = before ∧ Held A G' b)
    (Task.Triple.get fun b hb => ⟨rfl, hb⟩) fun before => ?_
  cases hserver : before.server with
  | none => exact Task.Triple.pure fun _ hb => hb.2
  | some server =>
      simp only
      split
      · exact Task.Triple.pure fun _ hb => hb.2
      · refine Task.Triple.bind (Q := fun _ => Held A G') (Task.Triple.when ?_ ?_) fun _ => ?_
        · exact fun _ => (triple_answer hA env.shutdown).pre fun _ hb => hb.2
        · exact fun _ _ hb => hb.2
        refine Task.Triple.bind (triple_tick hA) fun i => ?_
        refine Task.Triple.bind (Q := fun _ => Held A G')
          (Task.Triple.ofAnswer (fun _ _ _ hb => hb) fun _ _ _ hb => hb) fun _ => ?_
        refine Task.Triple.bind (Q := fun _ => Held A G') (Task.Triple.when ?_ ?_) fun _ => ?_
        · intro _
          refine Task.Triple.bind (triple_tick hA) fun i => ?_
          exact Task.Triple.refuse (fun _ _ hb => hb) fun _ _ hb => hb
        · exact fun _ _ hb => hb
        · apply Task.Triple.update
          intro b hb
          refine ⟨hb.attempt, ⟨hb.helped.told, hb.helped.cached⟩, ?_⟩
          simpa using hb.helpers

/-- Closing the log touches nothing but the recorder. -/
theorem triple_closeLog (hA : Moving A) (hG : ∀ l t f s, G l t s → G l (Option.map f t) s) :
    Task.Triple (Held A G) (closeLog env) (fun _ => Held A G) fun _ => Held A G := by
  have hflush : Task.Triple (Held A G) (do
      let b ← Call.get
      Task.refuse (b.telemetry.any (·.logClosed)) "I/O operation on closed file"
      let i ← tick env
      Task.ofAnswer (env.flush i)) (fun _ => Held A G) fun _ => Held A G := by
    refine Task.Triple.bind (Q := fun _ => Held A G)
      (Task.Triple.get fun b hb => hb) fun b => ?_
    exact Task.Triple.bind (Q := fun _ => Held A G)
      (Task.Triple.refuse (fun _ _ hb => hb) fun _ _ hb => hb) fun _ => triple_answer hA env.flush
  have hclose : Task.Triple (Held A G) (do
      let b ← Call.get
      Task.when (!b.telemetry.any (·.logClosed)) (do
        Call.update fun b =>
          { b with telemetry := b.telemetry.map fun t => { t with logClosed := true } }
        let i ← tick env
        Task.ofAnswer (env.closeLog i))) (fun _ => Held A G) fun _ => Held A G := by
    refine Task.Triple.bind (Q := fun _ => Held A G)
      (Task.Triple.get fun b hb => hb) fun b => ?_
    refine Task.Triple.when ?_ fun _ _ hb => hb
    intro _
    refine Task.Triple.bind (Q := fun _ => Held A G) (Task.Triple.update ?_) fun _ =>
      triple_answer hA env.closeLog
    intro b hb
    refine ⟨hb.attempt, ⟨hb.helped.told, ?_⟩, hG _ _ _ _ hb.helpers⟩
    intro hresult
    apply hb.helped.cached
    cases ht : b.telemetry with
    | none => simp [ht] at hresult
    | some t => simpa [ht] using hresult
  unfold closeLog
  refine Task.Triple.bind (Q := fun _ => Held A G) ?_ fun _ => Task.Triple.pure fun _ hb => hb
  exact Task.Triple.finallyDo (S := fun _ _ => Held A G) hflush (fun _ => hclose) fun _ => hclose

/-- The process is told to stop before anything can be raised. -/
theorem triple_stopProcess (hA : Moving A) {P : Bench → Prop}
    (hP : ∀ b, P b → Held A G { b with helpers := { b.helpers with told := true } }) :
    Task.Triple P (stopProcess env) (fun _ => Held A G) fun _ => Held A G := by
  unfold stopProcess noteHelpers
  refine Task.Triple.bind (Q := fun _ => Held A G) (Task.Triple.update hP) fun _ => ?_
  refine Task.Triple.bind (triple_tick hA) fun i => ?_
  split
  · exact Task.Triple.pure fun _ hb => hb
  · exact Task.Triple.pure fun _ hb => hb
  · exact Task.Triple.raise fun _ hb => hb

/-- Where `close` of the recorder returns, its result is kept; where it raises, the
process has been told to stop unless the poll has raised. -/
theorem triple_closeTelemetry (hA : Moving A)
    (hG : ∀ l l' t t' s, l'.closeCalled = l.closeCalled → t'.isSome = t.isSome → G l t s → G l' t' s)
    (hsome : ∀ l t s, G l t s → t.isSome = true) :
    Task.Triple (Held A G) (closeTelemetry env)
      (fun result => Held A fun l t s => G l t s ∧ t.bind (·.result) = some result)
      fun _ => Held A G := by
  unfold closeTelemetry
  refine Task.Triple.bind (Q := fun before b => b = before ∧ Held A G b)
    (Task.Triple.get fun b hb => ⟨rfl, hb⟩) fun before => ?_
  cases hresult : before.telemetry.bind (·.result) with
  | some result =>
      apply Task.Triple.pure
      rintro b ⟨rfl, hb⟩
      exact ⟨hb.attempt, hb.helped, hb.helpers, hresult⟩
  | none =>
      simp only
      refine Task.Triple.bind ((triple_tick hA).pre fun _ hb => hb.2) fun i => ?_
      let told : HelperLedger → Option Telemetry → Bool → Prop := fun l t s =>
        l.told = true ∧ true ∈ l.closePolls ∧ G l t s
      have hmap : ∀ l t f s, told l t s → told l (Option.map f t) s := fun l t f s h =>
        ⟨h.1, h.2.1, hG _ _ _ _ _ rfl (by simp) h.2.2⟩
      have hplain : ∀ b, Held A told b → Held A G b := fun b hb =>
        ⟨hb.attempt, hb.helped, hb.helpers.2.2⟩
      unfold noteHelpers
      cases hpoll : env.poll i with
      | error text =>
          refine Task.Triple.bind (Q := fun _ => Held A G) (Task.Triple.update ?_) fun _ => ?_
          · intro b hb
            refine ⟨hb.attempt, ⟨?_, hb.helped.cached⟩, hG b.helpers _ b.telemetry _ _ rfl rfl hb.helpers⟩
            simpa [Except.toOption] using hb.helped.told
          · exact Task.Triple.bind (Q := fun _ _ => False) (Task.Triple.raise fun _ hb => hb)
              fun _ _ hb => hb.elim
      | ok polled =>
          refine Task.Triple.bind
            (Q := fun _ b => Held A G { b with helpers := { b.helpers with told := true } } ∧
              true ∈ b.helpers.closePolls) (Task.Triple.update ?_) fun _ => ?_
          · intro b hb
            have hmem : true ∈ b.helpers.closePolls ++ [true] := by simp
            exact ⟨⟨hb.attempt, ⟨⟨fun _ => hmem, fun _ => rfl⟩, fun _ => rfl⟩,
              hG b.helpers _ b.telemetry _ _ rfl rfl hb.helpers⟩, hmem⟩
          refine Task.Triple.pureBind ?_
          have hstop := @triple_stopProcess env A told hA
            (fun b => Held A G { b with helpers := { b.helpers with told := true } } ∧
              true ∈ b.helpers.closePolls)
            fun b hb => ⟨hb.1.attempt, hb.1.helped, rfl, hb.2, hb.1.helpers⟩
          have hlog := @triple_closeLog env A told hA hmap
          refine Task.Triple.bind
            ((Task.Triple.finallyDo (S := fun _ _ => Held A told) hstop (fun _ => hlog)
              fun _ => hlog).conseq (fun _ hb => hb) (fun _ _ hb => hb) fun _ b hb => hplain b hb)
            fun p => ?_
          refine Task.Triple.bind
            (Q := fun _ => Held A fun l t s => G l t s ∧ t.bind (·.result) = some
              (telemetryResult polled.isNone p.1.1 p.1.2)) (Task.Triple.update ?_) fun _ =>
            Task.Triple.pure fun _ hb => hb
          intro b hb
          obtain ⟨htold, hpolls, hkept⟩ := hb.helpers
          refine ⟨hb.attempt, ⟨hb.helped.told, fun _ => htold⟩,
            hG b.helpers _ b.telemetry _ _ rfl (by simp) hkept, ?_⟩
          obtain ⟨recorder, hrecorder⟩ := Option.isSome_iff_exists.mp (hsome _ _ _ hkept)
          simp [hrecorder]

end Steps

/-! ## The attempt -/

/-- No attempt was begun. -/
structure Fresh (created : Bool) (w : Worker) (l : AttemptLedger) : Prop where
  stage : w.stage = .absent
  counted : w.Counted
  created : l.created = created
  begun : l.begun = false
  stopped : l.stopped = false
  health : l.healthRaised = false

/-- The attempt has begun and was not asked to stop. -/
structure Begun (healthRaised : Bool) (w : Worker) (l : AttemptLedger) : Prop where
  stage : w.stage ≠ .absent
  counted : w.Counted
  created : l.created = true
  begun : l.begun = true
  stopped : l.stopped = false
  health : l.healthRaised = healthRaised

/-- `attempt.stop` was called after the attempt had begun. -/
structure Stopped (w : Worker) (l : AttemptLedger) : Prop where
  stage : w.stage ≠ .absent
  counted : w.Counted
  created : l.created = true
  begun : l.begun = true
  stopped : l.stopped = true
  released : l.released = true
  health : l.healthRaised = false

/-- How `run_once` leaves an attempt, and nothing afterwards changes it: it was stopped
unless a health check has raised. -/
structure Settled (w : Worker) (l : AttemptLedger) : Prop where
  counted : w.Counted
  begun : l.begun = true → w.stage ≠ .absent
  created : l.created = true → l.begun = true
  stopped : l.healthRaised = false → l.created = true → l.stopped = true
  released : l.healthRaised = false → l.begun = true → l.released = true
  raised : l.healthRaised = true → l.created = true ∧ l.stopped = false

theorem Fresh.settled {w : Worker} {l : AttemptLedger} (h : Fresh false w l) : Settled w l := by
  constructor
  · exact h.counted
  · simp [h.begun]
  · simp [h.created]
  · simp [h.created]
  · simp [h.begun]
  · simp [h.health]

theorem Begun.settled {w : Worker} {l : AttemptLedger} (h : Begun true w l) : Settled w l := by
  constructor
  · exact h.counted
  · exact fun _ => h.stage
  · exact fun _ => h.begun
  · simp [h.health]
  · simp [h.health]
  · exact fun _ => ⟨h.created, h.stopped⟩

theorem Stopped.settled {w : Worker} {l : AttemptLedger} (h : Stopped w l) : Settled w l := by
  constructor
  · exact h.counted
  · exact fun _ => h.stage
  · exact fun _ => h.begun
  · exact fun _ _ => h.stopped
  · exact fun _ _ => h.released
  · simp [h.health]

theorem move_stage (w : Worker) (move : WorkerMove) :
    ((w.move move).stage = .absent ↔ w.stage = .absent) := by
  cases move <;> simp only [Worker.move] <;> split <;> simp_all
  split <;> simp

theorem moving_fresh (created : Bool) : Moving (Fresh created) := fun w _ move h =>
  ⟨(move_stage w move).mpr h.stage, move_counted w move h.counted, h.created, h.begun, h.stopped,
    h.health⟩

theorem moving_begun (healthRaised : Bool) : Moving (Begun healthRaised) := fun w _ move h =>
  ⟨fun habsent => h.stage ((move_stage w move).mp habsent), move_counted w move h.counted,
    h.created, h.begun, h.stopped, h.health⟩

theorem moving_stopped : Moving Stopped := fun w _ move h =>
  ⟨fun habsent => h.stage ((move_stage w move).mp habsent), move_counted w move h.counted,
    h.created, h.begun, h.stopped, h.released, h.health⟩

theorem moving_settled : Moving Settled := fun w _ move h =>
  ⟨move_counted w move h.counted,
    fun hbegun habsent => h.begun hbegun ((move_stage w move).mp habsent), h.created, h.stopped,
    h.released, h.raised⟩

/-- The attempt as `run_once` reports it. -/
structure Reported (result : CheckpointResult) (w : Worker) (l : AttemptLedger) : Prop where
  settled : Settled w l
  cleanup : l.cleanup = some result.cleanup
  dead : result.workerAlive = false → w.alive = false

theorem moving_reported (result : CheckpointResult) : Moving (Reported result) := fun w l move h =>
  ⟨moving_settled w l move h.settled, h.cleanup, fun hdead => move_alive w move (h.dead hdead)⟩

section Attempt

variable {env : Answers} {G : HelperLedger → Option Telemetry → Bool → Prop}
  {health : CheckpointCall (Option String)}

theorem Held.weaken {A A' : Worker → AttemptLedger → Prop} {b : Bench} (h : Held A G b)
    (hA : ∀ w l, A w l → A' w l) : Held A' G b :=
  ⟨hA _ _ h.attempt, h.helped, h.helpers⟩

/-- The loop leaves the attempt running, whatever its reason. -/
theorem triple_pollLoop {d : Durations} {started : Rat}
    (hhealth : Task.Triple (Held (Begun false) G) health (fun _ => Held (Begun false) G)
      fun _ => Held (Begun true) G) (rounds : Nat) :
    Task.Triple (Held (Begun false) G) (pollLoop env d health started rounds)
      (fun _ => Held (Begun false) G) fun _ => Held (Begun true) G := by
  have hinterrupt : ∀ reason : String, Task.Triple (Held (Begun false) G) (do
      interrupt
      pure reason) (fun _ => Held (Begun false) G) fun _ => Held (Begun true) G := by
    intro reason
    refine Task.Triple.bind (Q := fun _ => Held (Begun false) G) (Task.Triple.update ?_) fun _ =>
      Task.Triple.pure fun _ hb => hb
    exact fun b hb => ⟨hb.attempt, ⟨hb.helped.told, hb.helped.cached⟩, hb.helpers⟩
  induction rounds with
  | zero => exact Task.Triple.unfinished
  | succ rounds ih =>
      unfold pollLoop
      refine Task.Triple.bind (triple_tick (moving_begun false)) fun _ => ?_
      refine Task.Triple.bind (Q := fun _ => Held (Begun false) G)
        (Task.Triple.get fun _ hb => hb) fun b => ?_
      split
      · exact Task.Triple.pure fun _ hb => hb
      refine Task.Triple.bind (triple_tick (moving_begun false)) fun i => ?_
      simp only
      split
      · exact hinterrupt _
      refine Task.Triple.bind hhealth fun failure => ?_
      cases failure with
      | some failure => exact hinterrupt failure
      | none =>
          refine Task.Triple.bind (Q := fun _ => Held (Begun false) G)
            (Task.Triple.get fun _ hb => hb) fun b => ?_
          split
          · exact hinterrupt _
          split
          · exact hinterrupt _
          · exact ih

theorem triple_join {A : Worker → AttemptLedger → Prop} {condition : Bench → Bool}
    {F : String → Bench → Prop} (hA : Moving A) :
    Task.Triple (Held A G) (join env condition) (fun _ => Held A G) F := by
  unfold join
  refine Task.Triple.bind (triple_tick hA) fun _ => ?_
  refine Task.Triple.bind (Q := fun _ => Held A G) (Task.Triple.get fun _ hb => hb) fun b => ?_
  refine Task.Triple.when (fun _ => ?_) fun _ _ hb => hb
  exact Task.Triple.bind (triple_tick hA) fun _ => Task.Triple.pure fun _ hb => hb

/-- Stopping an attempt counts when it is called, also where it raises. -/
theorem triple_stopAttempt :
    Task.Triple (Held (Begun false) G) (stopAttempt env)
      (fun cleanup => Held (fun w l => Stopped w l ∧ l.cleanup = some cleanup) G)
      fun _ => Held Stopped G := by
  unfold stopAttempt noteAttempt
  refine Task.Triple.bind (Q := fun _ => Held Stopped G) (Task.Triple.update ?_) fun _ => ?_
  · intro b hb
    obtain ⟨hstage, hcounted, hcreated, hbegun, -, hhealth⟩ := hb.attempt
    exact ⟨⟨hstage, hcounted, hcreated, hbegun, rfl, rfl, hhealth⟩,
      ⟨hb.helped.told, hb.helped.cached⟩, hb.helpers⟩
  refine Task.Triple.bind (triple_tick moving_stopped) fun i => ?_
  refine Task.Triple.bind (Q := fun _ => Held Stopped G)
    (Task.Triple.ofAnswer (fun _ _ _ hb => hb) fun _ _ _ hb => hb) fun cleanup => ?_
  refine Task.Triple.bind
    (Q := fun _ => Held (fun w l => Stopped w l ∧ l.cleanup = some cleanup) G)
    (Task.Triple.update ?_) fun _ => Task.Triple.pure fun _ hb => hb
  intro b hb
  obtain ⟨hstage, hcounted, hcreated, hbegun, hstopped, hreleased, hhealth⟩ := hb.attempt
  exact ⟨⟨⟨hstage, hcounted, hcreated, hbegun, hstopped, hreleased, hhealth⟩, rfl⟩,
    ⟨hb.helped.told, hb.helped.cached⟩, hb.helpers⟩

/-- `run_once` reports an attempt that was stopped, or raises and leaves it so unless a
health check has raised. -/
theorem triple_runOnce {d : Durations}
    (hhealth : Task.Triple (Held (Begun false) G) health (fun _ => Held (Begun false) G)
      fun _ => Held (Begun true) G) (rounds : Nat) :
    Task.Triple (Held (Fresh false) G) (runOnce env d health rounds)
      (fun result b => Held (Reported result) G b ∧ result.telemetry = none)
      fun _ => Held Settled G := by
  unfold runOnce
  split
  · exact Task.Triple.raise fun _ hb => hb.weaken fun _ _ h => h.settled
  unfold createAttempt noteAttempt startWorker
  refine Task.Triple.bind (Q := fun _ => Held (Fresh true) G) ?_ fun _ => ?_
  · refine Task.Triple.bind (triple_tick (moving_fresh false)) fun i => ?_
    refine Task.Triple.bind (Q := fun _ => Held (Fresh false) G)
      (Task.Triple.ofAnswer (fun _ _ _ hb => hb) fun _ _ _ hb =>
        hb.weaken fun _ _ h => h.settled) fun _ => Task.Triple.update ?_
    intro b hb
    obtain ⟨hstage, hcounted, -, hbegun, hstopped, hraised⟩ := hb.attempt
    exact ⟨⟨hstage, hcounted, rfl, hbegun, hstopped, hraised⟩,
      ⟨hb.helped.told, hb.helped.cached⟩, hb.helpers⟩
  refine Task.Triple.bind (triple_tick (moving_fresh true)) fun i => ?_
  refine Task.Triple.bind (Q := fun _ => Held (Begun false) G) (Task.Triple.update ?_) fun _ => ?_
  · intro b hb
    obtain ⟨hstage, hcounted, hcreated, -, hstopped, hraised⟩ := hb.attempt
    refine ⟨⟨by simp, ?_, hcreated, rfl, hstopped, hraised⟩,
      ⟨hb.helped.told, hb.helped.cached⟩, hb.helpers⟩
    unfold Worker.Counted at hcounted ⊢
    rw [hcounted, hstage]
    rfl
  refine Task.Triple.bind ((triple_pollLoop hhealth rounds).conseq (fun _ hb => hb)
    (fun _ _ hb => hb) fun _ _ hb => hb.weaken fun _ _ h => h.settled) fun reason => ?_
  refine Task.Triple.bind (triple_join (moving_begun false)) fun _ => ?_
  refine Task.Triple.bind (triple_stopAttempt.conseq (fun _ hb => hb) (fun _ _ hb => hb)
    fun _ _ hb => hb.weaken fun _ _ h => h.settled) fun cleanup => ?_
  have hmoving : Moving fun w l => Stopped w l ∧ l.cleanup = some cleanup := fun w l move h =>
    ⟨moving_stopped w l move h.1, h.2⟩
  refine Task.Triple.bind (triple_join hmoving) fun _ => ?_
  refine Task.Triple.bind (triple_tick hmoving) fun _ => ?_
  refine Task.Triple.bind (Q := fun _ => Held _ G) (Task.Triple.get fun _ hb => hb) fun _ => ?_
  refine Task.Triple.bind (triple_tick hmoving) fun _ => ?_
  apply Task.Triple.bindGet
  intro b hb
  apply Task.Triple.pure
  rintro t ⟨rfl, ht⟩
  exact ⟨⟨⟨ht.attempt.1.settled, ht.attempt.2, fun hdead => hdead⟩, ht.helped, ht.helpers⟩, rfl⟩

theorem triple_reconcile {A : Worker → AttemptLedger → Prop} (hA : Moving A)
    (hreleased : ∀ w l, A w l → A w { l with released := true })
    (hcleanup : ∀ w l c, A w l → A w { l with cleanup := c }) :
    Task.Triple (Held A G) (reconcileStopped env)
      (fun cleanup => Held (fun w l => A w l ∧ l.cleanup = some cleanup) G)
      fun _ => Held A G := by
  unfold reconcileStopped noteAttempt
  refine Task.Triple.bind (Q := fun _ => Held A G) (Task.Triple.update ?_) fun _ => ?_
  · exact fun b hb =>
      ⟨hreleased _ _ hb.attempt, ⟨hb.helped.told, hb.helped.cached⟩, hb.helpers⟩
  refine Task.Triple.bind (triple_tick hA) fun i => ?_
  refine Task.Triple.bind (Q := fun _ => Held A G)
    (Task.Triple.ofAnswer (fun _ _ _ hb => hb) fun _ _ _ hb => hb) fun cleanup => ?_
  refine Task.Triple.bind
    (Q := fun _ => Held (fun w l => A w l ∧ l.cleanup = some cleanup) G)
    (Task.Triple.update ?_) fun _ => Task.Triple.pure fun _ hb => hb
  exact fun b hb => ⟨⟨hcleanup _ _ _ hb.attempt, rfl⟩, ⟨hb.helped.told, hb.helped.cached⟩,
    hb.helpers⟩

/-- The health check of a soak raises only with the poll of the recorder's process. -/
theorem triple_soakHealth :
    Task.Triple (Held (Begun false) G) (soakHealth env) (fun _ => Held (Begun false) G)
      fun _ => Held (Begun true) G := by
  unfold soakHealth pollServer pollTelemetry noteAttempt
  refine Task.Triple.bind (Q := fun _ => Held (Begun false) G) ?_ fun failure => ?_
  · refine Task.Triple.bind (triple_tick (moving_begun false)) fun i => ?_
    exact Task.Triple.bind (Q := fun _ => Held (Begun false) G) (Task.Triple.get fun _ hb => hb)
      fun b => Task.Triple.pure fun _ hb => hb
  cases failure with
  | some failure => exact Task.Triple.pure fun _ hb => hb
  | none =>
      refine Task.Triple.bind (triple_tick (moving_begun false)) fun i => ?_
      simp only
      split
      · refine Task.Triple.bind (Q := fun _ => Held (Begun true) G) (Task.Triple.update ?_)
          fun _ => Task.Triple.raise fun _ hb => hb
        intro b hb
        obtain ⟨hstage, hcounted, hcreated, hbegun, hstopped, -⟩ := hb.attempt
        exact ⟨⟨hstage, hcounted, hcreated, hbegun, hstopped, rfl⟩,
          ⟨hb.helped.told, hb.helped.cached⟩, hb.helpers⟩
      · exact Task.Triple.pure fun _ hb => hb
      · exact Task.Triple.pure fun _ hb => hb

/-- There is a recorder. -/
def Present : HelperLedger → Option Telemetry → Bool → Prop := fun _ t _ => t.isSome = true

/-- The `finally` clause of a soak calls both closes. -/
theorem triple_soakClose {A : Worker → AttemptLedger → Prop} (hA : Moving A) :
    Task.Triple (Held A Present) (Task.finallyDo (closeTelemetry env) (closeServer env))
      (fun p => Held A fun l t _ => l.closeCalled = true ∧ t.bind (·.result) = some p.1)
      fun _ => Held A fun l _ _ => l.closeCalled = true := by
  have htelemetry := @triple_closeTelemetry env A Present hA
    (fun _ _ _ _ _ _ hsome h => hsome.trans h) fun _ _ _ h => h
  refine Task.Triple.finallyDo
    (S := fun result _ => Held A fun l t _ =>
      l.closeCalled = true ∧ t.bind (·.result) = some result) htelemetry (fun result => ?_) fun _ => ?_
  · refine (triple_closeServer hA ?_).conseq (fun _ hb => hb) (fun _ _ hb => hb) ?_
    · exact fun l t s h => ⟨rfl, h.2⟩
    · exact fun _ b hb => ⟨hb.attempt, hb.helped, hb.helpers.1⟩
  · exact triple_closeServer hA fun _ _ _ _ => rfl

theorem triple_startServer {A : Worker → AttemptLedger → Prop} (hA : Moving A)
    (hG : ∀ l t s s', G l t s → G l t s') :
    Task.Triple (Held A G) (startServer env) (fun _ => Held A G) fun _ => Held A G := by
  unfold startServer
  apply Task.Triple.bindGet
  intro before _
  cases before.server with
  | none => exact Task.Triple.pure fun _ hb => hb.2
  | some server =>
      simp only
      split
      · exact Task.Triple.raise fun _ hb => hb.2
      split
      · exact Task.Triple.pure fun _ hb => hb.2
      · refine Task.Triple.bind (Q := fun _ => Held A G) (Task.Triple.update ?_) fun _ =>
          triple_answer hA env.startServerThread
        exact fun b hb => ⟨hb.2.attempt, ⟨hb.2.helped.told, hb.2.helped.cached⟩,
          hG _ _ _ _ hb.2.helpers⟩

/-- A soak that returns has its telemetry, and both helpers were told to end in any case. -/
theorem triple_runDemoSoak {d : Durations} (rounds : Nat) :
    Task.Triple (Held (Fresh false) Present) (runDemoSoak env d rounds)
      (fun result => Held (Reported result) fun l t _ =>
        l.closeCalled = true ∧ t.bind (·.result) = result.telemetry ∧ result.telemetry.isSome = true)
      fun _ => Held Settled fun l _ _ => l.closeCalled = true := by
  unfold runDemoSoak
  have hbody : Task.Triple (Held (Fresh false) Present) (do
      startServer env
      runOnce env d (soakHealth env) rounds)
      (fun result => Held (Reported result) Present) fun _ => Held Settled Present := by
    refine Task.Triple.bind ((triple_startServer (moving_fresh false) fun _ _ _ _ h => h).conseq
      (fun _ hb => hb) (fun _ _ hb => hb) fun _ _ hb => hb.weaken fun _ _ h => h.settled)
      fun _ => ?_
    exact (triple_runOnce triple_soakHealth rounds).post fun _ _ hb => hb.1
  refine Task.Triple.bind (Task.Triple.finallyDo
    (S := fun result p => Held (Reported result) fun l t _ =>
      l.closeCalled = true ∧ t.bind (·.result) = some p.1) hbody (fun result => ?_) fun _ => ?_)
    fun outcome => ?_
  · exact (triple_soakClose (moving_reported result)).conseq (fun _ hb => hb) (fun _ _ hb => hb)
      fun _ _ hb => hb.weaken fun _ _ h => h.settled
  · exact (triple_soakClose moving_settled).conseq (fun _ hb => hb)
      (fun _ b hb => ⟨hb.attempt, hb.helped, hb.helpers.1⟩) fun _ _ hb => hb
  · obtain ⟨result, telemetryResult, _⟩ := outcome
    apply Task.Triple.pure
    intro b hb
    exact ⟨⟨hb.attempt.settled, hb.attempt.cleanup, hb.attempt.dead⟩, hb.helped, hb.helpers.1,
      hb.helpers.2, rfl⟩

/-- At the end of a soak the server's `close` has been called if there is a server; the
other operations have no helpers. -/
def Closed (operation : Operation) : HelperLedger → Option Telemetry → Bool → Prop := fun l t s =>
  (s = true → l.closeCalled = true) ∧ (operation ≠ .runDemoSoak → t = none)

/-- The last cleanup succeeded, the attempt's thread has ended, and so did the telemetry
with success if there is one. -/
structure Succeeded (b : Bench) : Prop where
  cleanup : ∃ cleanup, b.attempt.cleanup = some cleanup ∧ cleanup.success = true
  dead : b.worker.alive = false
  telemetry : ∀ t, b.telemetry = some t → ∃ result, t.result = some result ∧ result.success = true

/-- The exit code 0 is one of a result whose parts succeeded. -/
theorem verdict_zero {result : CheckpointResult} {b : Bench} (hb : Held (Reported result) G b)
    (ht : b.telemetry.bind (·.result) = result.telemetry) (hsome : b.telemetry.isSome = true →
      result.telemetry.isSome = true) (h : verdict result = 0) : Succeeded b := by
  have hall : result.cleanup.success = true ∧ result.workerAlive = false ∧
      result.telemetry.all (·.success) = true := by
    unfold verdict at h
    split at h
    · next hand => simpa [and_assoc] using hand
    · cases h
  obtain ⟨hcleanup, halive, htelemetry⟩ := hall
  refine ⟨⟨result.cleanup, hb.attempt.cleanup, hcleanup⟩, hb.attempt.dead halive, ?_⟩
  intro t hrecorder
  rw [hrecorder, Option.bind_some] at ht
  obtain ⟨r, hr⟩ := Option.isSome_iff_exists.mp (hsome (by rw [hrecorder]; rfl))
  rw [hr] at ht htelemetry
  exact ⟨r, ht, by simpa using htelemetry⟩

theorem Bench.initial_held : Held (Fresh false) (fun _ t s => t = none ∧ s = false) Bench.initial :=
  ⟨⟨rfl, rfl, rfl, rfl, rfl, rfl⟩, ⟨by simp [Bench.initial], by simp [Bench.initial]⟩, rfl, rfl⟩

/-- The handler of a soak calls both closes, as far as none raises, and then reconciles. -/
theorem triple_handler :
    Task.Triple (Held Settled fun l t _ => t.isSome = true → l.closeCalled = true) (do
        let b ← Call.get
        Task.when b.telemetry.isSome (do
          let _ ← closeTelemetry env
          pure ())
        Task.when b.server.isSome (closeServer env)
        let _ ← reconcileStopped env
        pure 1)
      (fun code b => Held Settled (Closed .runDemoSoak) b ∧ code = 1)
      fun _ => Held Settled (Closed .runDemoSoak) := by
  have hclosed : ∀ b, Held Settled (fun l _ _ => l.closeCalled = true) b →
      Held Settled (Closed .runDemoSoak) b := fun b hb =>
    ⟨hb.attempt, hb.helped, fun _ => hb.helpers, by simp⟩
  apply Task.Triple.bindGet
  intro before _
  refine Task.Triple.bind
    (Q := fun _ => Held Settled fun _ _ s => s = before.server.isSome) ?_ fun _ => ?_
  · apply Task.Triple.when
    · intro hsome
      have hclose := @triple_closeTelemetry env Settled
        (fun l t s => l.closeCalled = true ∧ t.isSome = true ∧ s = before.server.isSome)
        moving_settled
        (fun l l' t t' s hl ht h => ⟨hl.trans h.1, ht.trans h.2.1, h.2.2⟩) fun l t s h => h.2.1
      refine Task.Triple.bind (Q := fun _ => Held Settled fun _ _ s => s = before.server.isSome)
        (hclose.conseq ?_ ?_ ?_) fun _ => Task.Triple.pure fun _ hb => hb
      · rintro b ⟨rfl, hb⟩
        exact ⟨hb.attempt, hb.helped, hb.helpers hsome, hsome, rfl⟩
      · exact fun _ b hb => ⟨hb.attempt, hb.helped, hb.helpers.1.2.2⟩
      · exact fun _ b hb => hclosed b ⟨hb.attempt, hb.helped, hb.helpers.1⟩
    · rintro - b ⟨rfl, hb⟩
      exact ⟨hb.attempt, hb.helped, rfl⟩
  refine Task.Triple.bind (Q := fun _ => Held Settled (Closed .runDemoSoak)) ?_ fun _ => ?_
  · apply Task.Triple.when
    · intro _
      exact (triple_closeServer moving_settled fun _ _ _ _ => rfl).conseq (fun _ hb => hb)
        (fun _ b hb => hclosed b hb) fun _ b hb => hclosed b hb
    · intro hnone b hb
      refine ⟨hb.attempt, hb.helped, ?_, by simp⟩
      rw [hb.helpers, hnone]
      simp
  · refine Task.Triple.bind (triple_reconcile moving_settled ?_ ?_) fun _ =>
      Task.Triple.pure fun b hb => ⟨⟨hb.attempt.1, hb.helped, hb.helpers⟩, rfl⟩
    · exact fun w l h => ⟨h.counted, h.begun, h.created, h.stopped, fun _ _ => rfl, h.raised⟩
    · exact fun w l c h => ⟨h.counted, h.begun, h.created, h.stopped, h.released, h.raised⟩

/-- A soak whose helpers cannot be opened has begun no attempt. -/
theorem triple_soakBody {d : Durations} (rounds : Nat) :
    Task.Triple (Held (Fresh false) fun _ t _ => t = none) (do
        openServer env
        startTelemetry env
        runDemoSoak env d rounds)
      (fun result => Held (Reported result) fun l t _ => l.closeCalled = true ∧
        t.bind (·.result) = result.telemetry ∧ result.telemetry.isSome = true)
      fun _ => Held Settled fun l t _ => t.isSome = true → l.closeCalled = true := by
  have hnone : ∀ b, Held (Fresh false) (fun _ t _ => t = none) b →
      Held Settled (fun l t _ => t.isSome = true → l.closeCalled = true) b := by
    intro b hb
    refine ⟨hb.attempt.settled, hb.helped, ?_⟩
    rw [hb.helpers]
    simp
  unfold openServer startTelemetry
  refine Task.Triple.bind (Q := fun _ => Held (Fresh false) fun _ t _ => t = none) ?_ fun _ => ?_
  · refine Task.Triple.bind (triple_tick (moving_fresh false)) fun i => ?_
    refine Task.Triple.bind (Q := fun _ => Held (Fresh false) fun _ t _ => t = none)
      (Task.Triple.ofAnswer (fun _ _ _ hb => hb) fun _ b _ hb => hnone b hb) fun _ =>
      Task.Triple.update ?_
    exact fun b hb => ⟨hb.attempt, ⟨hb.helped.told, hb.helped.cached⟩, hb.helpers⟩
  refine Task.Triple.bind (Q := fun _ => Held (Fresh false) Present) ?_ fun _ => ?_
  · refine Task.Triple.bind (triple_tick (moving_fresh false)) fun i => ?_
    refine Task.Triple.bind (Q := fun _ => Held (Fresh false) fun _ t _ => t = none)
      (Task.Triple.ofAnswer (fun _ _ _ hb => hb) fun _ b _ hb => hnone b hb) fun _ =>
      Task.Triple.update ?_
    exact fun b hb => ⟨hb.attempt, ⟨hb.helped.told, by simp⟩, rfl⟩
  · exact (triple_runDemoSoak rounds).conseq (fun _ hb => hb) (fun _ _ hb => hb)
      fun _ b hb => ⟨hb.attempt, hb.helped, fun _ => hb.helpers⟩

/-- Every operation leaves the attempt settled and its helpers closed. -/
theorem triple_main (operation : Operation) (rounds : Nat) :
    Task.Triple (fun b => b = Bench.initial) (main env operation rounds)
      (fun code b => Held Settled (Closed operation) b ∧ (code = 0 → Succeeded b))
      fun _ => Held Settled (Closed operation) := by
  have hstart : ∀ b, b = Bench.initial →
      Held (Fresh false) (fun _ t s => t = none ∧ s = false) b := fun b hb =>
    hb ▸ Bench.initial_held
  have hclosed : ∀ (op : Operation) (A : Worker → AttemptLedger → Prop) b,
      Held A (fun _ t s => t = none ∧ s = false) b → (∀ w l, A w l → Settled w l) →
      Held Settled (Closed op) b := by
    intro op A b hb hA
    refine ⟨hA _ _ hb.attempt, hb.helped, ?_, fun _ => hb.helpers.1⟩
    rw [hb.helpers.2]
    simp
  have hreconcile : ∀ op, Task.Triple (fun b => b = Bench.initial) (do
      let cleanup ← reconcileStopped env
      pure (if cleanup.success then 0 else 1))
      (fun code b => Held Settled (Closed op) b ∧ (code = 0 → Succeeded b))
      fun _ => Held Settled (Closed op) := by
    intro op
    refine Task.Triple.bind (((triple_reconcile (moving_fresh false) ?_ ?_).pre hstart).conseq
      (fun _ hb => hb) (fun _ _ hb => hb) fun _ b hb => hclosed op _ b hb fun _ _ h => h.settled)
      fun cleanup => Task.Triple.pure ?_
    · exact fun w l h => ⟨h.stage, h.counted, h.created, h.begun, h.stopped, h.health⟩
    · exact fun w l c h => ⟨h.stage, h.counted, h.created, h.begun, h.stopped, h.health⟩
    · intro b hb
      refine ⟨hclosed op _ b hb fun _ _ h => h.1.settled, fun hcode => ⟨⟨cleanup, hb.attempt.2, ?_⟩,
        ?_, ?_⟩⟩
      · by_contra hfailed
        simp [hfailed] at hcode
      · simp [Worker.alive, hb.attempt.1.stage]
      · simp [hb.helpers.1]
  have honce : ∀ op d, Task.Triple (fun b => b = Bench.initial) (do
      let result ← runOnce env d (pure none) rounds
      pure (verdict result))
      (fun code b => Held Settled (Closed op) b ∧ (code = 0 → Succeeded b))
      fun _ => Held Settled (Closed op) := by
    intro op d
    refine Task.Triple.bind (((triple_runOnce (Task.Triple.pure fun _ hb => hb) rounds).pre
      hstart).conseq (fun _ hb => hb) (fun _ _ hb => hb) fun _ b hb =>
        hclosed op _ b hb fun _ _ h => h) fun result => Task.Triple.pure ?_
    rintro b ⟨hb, hnone⟩
    refine ⟨hclosed op _ b hb fun _ _ h => h.settled, fun hcode => verdict_zero hb ?_ ?_ hcode⟩
    · rw [hb.helpers.1, hnone]
      rfl
    · simp [hb.helpers.1]
  cases operation with
  | reconcileOnly => exact hreconcile _
  | verifyStopped => exact hreconcile _
  | runOnce => exact honce _ _
  | runKioskOnce => exact honce _ _
  | runDemoSoak =>
      have hbody : Task.Triple (fun b => b = Bench.initial) (do
          openServer env
          startTelemetry env
          runDemoSoak env (operationPolicy .runDemoSoak) rounds)
          (fun result => Held (Reported result) fun l t _ => l.closeCalled = true ∧
            t.bind (·.result) = result.telemetry ∧ result.telemetry.isSome = true)
          fun _ => Held Settled fun l t _ => t.isSome = true → l.closeCalled = true :=
        (triple_soakBody rounds).pre fun b hb =>
          have held := hstart b hb
          ⟨held.attempt, held.helped, held.helpers.1⟩
      refine Task.Triple.bind hbody.settle fun outcome => ?_
      cases outcome with
      | error e => exact triple_handler.post fun code b hb => ⟨hb.1, by simp [hb.2]⟩
      | ok result =>
          apply Task.Triple.pure
          intro b hb
          exact ⟨⟨hb.attempt.settled, hb.helped, fun _ => hb.helpers.1, by simp⟩,
            fun hcode => verdict_zero hb hb.helpers.2.1 (fun _ => hb.helpers.2.2) hcode⟩

end Attempt

/-! ## Every run -/

/-- An attempt that was created was asked to stop, and its thread has called
`attempt.run` once or is about to. -/
def AttemptReleased (b : Bench) : Prop :=
  b.attempt.created = true →
    b.attempt.stopped = true ∧
      (b.worker.runs = 1 ∨ (b.worker.stage = .started ∧ b.worker.runs = 0))

/-- What a soak has started was told to end. -/
structure SoakReleased (b : Bench) : Prop where
  telemetry : b.telemetry.isSome = true → b.helpers.told = true
  server : b.server.isSome = true → b.helpers.closeCalled = true
  attempt : b.attempt.begun = true → b.attempt.released = true

/-- No health check has raised, and a poll with which the recorder's `close` begins has
returned. -/
structure PollsReturned (b : Bench) : Prop where
  health : b.attempt.healthRaised = false
  closing : b.telemetry.isSome = true → true ∈ b.helpers.closePolls

theorem Settled.attemptReleased {b : Bench} (h : Settled b.worker b.attempt)
    (hhealth : b.attempt.healthRaised = false) : AttemptReleased b := by
  intro hcreated
  refine ⟨h.stopped hhealth hcreated, ?_⟩
  have hbegun := h.begun (h.created hcreated)
  have hcounted : b.worker.runs = b.worker.stage.calls := h.counted
  cases hstage : b.worker.stage with
  | absent => exact absurd hstage hbegun
  | started => exact Or.inr ⟨rfl, by rw [hcounted, hstage]; rfl⟩
  | _ => exact Or.inl (by rw [hcounted, hstage]; rfl)

theorem Held.released_iff {operation : Operation} {b : Bench}
    (h : Held Settled (Closed operation) b) :
    (AttemptReleased b ∧ (operation = .runDemoSoak → SoakReleased b)) ↔ PollsReturned b := by
  constructor
  · rintro ⟨hattempt, hsoak⟩
    constructor
    · by_contra hraised
      obtain ⟨hcreated, hstopped⟩ := h.attempt.raised (by simpa using hraised)
      rw [(hattempt hcreated).1] at hstopped
      cases hstopped
    · intro hsome
      by_cases hop : operation = .runDemoSoak
      · exact h.helped.told.mp ((hsoak hop).telemetry hsome)
      · rw [h.helpers.2 hop] at hsome
        cases hsome
  · rintro ⟨hhealth, hclosing⟩
    refine ⟨h.attempt.attemptReleased hhealth, fun _ => ⟨?_, h.helpers.1, h.attempt.released hhealth⟩⟩
    exact fun hsome => h.helped.told.mpr (hclosing hsome)

/-- In every run of every operation that has ended, by its exit code or by an exception,
the attempt and the helpers were told to end exactly if no health check has raised and a
poll of the recorder's `close` has returned; the exit code 0 means success in any case. -/
theorem hardware_released (env : Answers) (operation : Operation) (rounds : Nat)
    (hended : (main env operation rounds Bench.initial).1 ≠ .error .unfinished) :
    let b := (main env operation rounds).final Bench.initial
    ((AttemptReleased b ∧ (operation = .runDemoSoak → SoakReleased b)) ↔ PollsReturned b) ∧
      ((main env operation rounds Bench.initial).1 = .ok 0 → Succeeded b) := by
  have run := @triple_main env operation rounds Bench.initial rfl
  intro b
  cases houtcome : (main env operation rounds Bench.initial).1 with
  | ok code =>
      obtain ⟨hheld, hcode⟩ := run.ok houtcome
      exact ⟨hheld.released_iff, fun heq => hcode (Except.ok.inj heq)⟩
  | error halt =>
      cases halt with
      | unfinished => exact absurd houtcome hended
      | raised text =>
          have hheld := run.failed houtcome
          exact ⟨hheld.released_iff, fun heq => by cases heq⟩

/-- Answers under which nothing fails; the attempt ends as soon as it begins. -/
def calm : Answers where
  moves _ := [.begins, .settles (.error "no display"), .ends]
  clock _ := 0
  externalInterrupt _ := false
  create _ := .ok ()
  stop _ := .ok CleanupResult.empty
  reconcile _ := .ok CleanupResult.empty
  bindServer _ := .ok ()
  startServerThread _ := .ok ()
  serverAlive _ := false
  shutdown _ := .ok ()
  closeSocket _ := .ok ()
  startTelemetry _ := .ok ()
  poll _ := .ok none
  launcherStop _ := .ok 0
  flush _ := .ok ()
  closeLog _ := .ok ()

/-- A soak whose attempt ends at once and leaves nothing behind. -/
theorem hardware_released_calm :
    Succeeded ((main calm .runDemoSoak 1).final Bench.initial) ∧
      AttemptReleased ((main calm .runDemoSoak 1).final Bench.initial) := by
  have houtcome : (main calm .runDemoSoak 1 Bench.initial).1 = .ok 0 := rfl
  have hended : (main calm .runDemoSoak 1 Bench.initial).1 ≠ .error .unfinished := by
    rw [houtcome]
    simp
  obtain ⟨hreleased, hzero⟩ := hardware_released calm .runDemoSoak 1 hended
  exact ⟨hzero houtcome, (hreleased.mpr ⟨rfl, fun _ => by decide⟩).1⟩

/-- The attempt has begun and the poll of the telemetry process raises. -/
def pollRaises : Answers :=
  { calm with
    moves := fun _ => [.begins]
    serverAlive := fun i => decide (i < 8)
    poll := fun _ => .error "[Errno 10] No child processes" }

/-- A health check that raises leaves the attempt running. -/
theorem health_check_raises :
    ¬ ∀ env operation rounds, (main env operation rounds Bench.initial).1 ≠ .error .unfinished →
      AttemptReleased ((main env operation rounds).final Bench.initial) := by
  intro hall
  have houtcome : (main pollRaises .runDemoSoak 1 Bench.initial).1 =
      .error (.raised "[Errno 10] No child processes") := rfl
  have hreleased := hall pollRaises .runDemoSoak 1 (by rw [houtcome]; simp)
  have hstopped := (hreleased rfl).1
  exact Bool.false_ne_true hstopped

end Checkpoint

end HccastWired.Live
