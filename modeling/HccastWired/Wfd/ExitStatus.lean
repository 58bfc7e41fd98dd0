import HccastWired.Wfd.Worker

/-!
# The exit status of the worker

Whatever the order of its callbacks, the worker is finished once, by the first caller of
`finish`, and reports success only for a window that elapsed or a complete calibration.
-/

namespace HccastWired.Wfd

open Foundation Telemetry

/-- The terminal transitions, the latest first. -/
def finishes (log : List Event) : List Int :=
  log.filterMap fun
    | .finished status _ => some status
    | _ => none

/-- The callers of `finish`, the latest first. -/
def calls (log : List Event) : List Int :=
  log.filterMap fun
    | .finishCalled status => some status
    | _ => none

/-- What success stands for: a discovery window, a self-test window with a decoded frame, a
window that began with streaming, or a complete calibration. -/
def Earned (o : Options) (log : List Event) : Prop :=
  (o.list = true ∧ ∃ now decoded, .windowElapsed now decoded ∈ log ∧ o.windowUs ≤ now) ∨
  (o.selfTest = true ∧ ∃ now decoded, .windowElapsed now decoded ∈ log ∧ o.windowUs ≤ now ∧
    0 < decoded) ∨
  (o.list = false ∧ o.selfTest = false ∧ ∃ began now decoded, .streamingBegan began ∈ log ∧
    .windowElapsed now decoded ∈ log ∧ began + o.windowUs ≤ now) ∨
  (o.calibration.isSome = true ∧ .cohortComplete ∈ log)

/-- Each terminal transition with success was earned before it. -/
def Honest (o : Options) : List Event → Prop
  | [] => True
  | .finished status _ :: older => (status = 0 → Earned o older) ∧ Honest o older
  | _ :: older => Honest o older

theorem Earned.later {o : Options} {log log' : List Event} (h : Earned o log)
    (hlog : log ⊆ log') : Earned o log' := by
  obtain ⟨hlist, now, decoded, hmem, hdue⟩ | ⟨htest, now, decoded, hmem, hdue⟩ |
    ⟨hlist, htest, began, now, decoded, hbegan, hmem, hdue⟩ | ⟨hcalibration, hmem⟩ := h
  · exact Or.inl ⟨hlist, now, decoded, hlog hmem, hdue⟩
  · exact Or.inr (Or.inl ⟨htest, now, decoded, hlog hmem, hdue⟩)
  · exact Or.inr (Or.inr (Or.inl
      ⟨hlist, htest, began, now, decoded, hlog hbegan, hlog hmem, hdue⟩))
  · exact Or.inr (Or.inr (Or.inr ⟨hcalibration, hlog hmem⟩))

theorem Honest.earned {o : Options} {log : List Event} (h : Honest o log)
    (hzero : (0 : Int) ∈ finishes log) : Earned o log := by
  induction log with
  | nil => cases hzero
  | cons e older ih =>
      cases e with
      | finished status reason =>
          obtain heq | hzero := List.mem_cons.mp hzero
          · exact (h.1 heq.symm).later (List.subset_cons_self _ _)
          · exact (ih h.2 hzero).later (List.subset_cons_self _ _)
      | _ => exact (ih h hzero).later (List.subset_cons_self _ _)

/-- When the window of a `run` timer may end. -/
def WindowDue (o : Options) (log : List Event) (due : Nat) : Prop :=
  ((o.list = true ∨ o.selfTest = true) ∧ o.windowUs ≤ due) ∨
  (o.list = false ∧ o.selfTest = false ∧
    ∃ began, .streamingBegan began ∈ log ∧ began + o.windowUs ≤ due)

/-- The timers that the end of the worker clears. -/
def terminalTimers : List Callback := [.start, .run, .choose, .telemetry, .calibration]

/-- The status is that of the first caller, or the deadline has turned it from 0 into 6. -/
def StatusOf (w : Worker) (first : Int) : Prop :=
  w.exitStatus = first ∨
    (first = 0 ∧ w.exitStatus = 6 ∧ ∃ now, .deadlinePassed now ∈ w.log ∧ w.drainDeadline ≤ now)

/-- What holds between any two steps, and while the source `busy` is being dispatched. -/
structure LoopInv (o : Options) (busy : Nat) (w : Worker) : Prop where
  tracked : w.timers.Tracked busy
  once : finishes w.log = (calls w.log).getLast?.toList
  closing : w.closing = true ↔ finishes w.log ≠ []
  status : ∀ first ∈ finishes w.log, StatusOf w first
  honest : Honest o w.log
  released : w.closing = true → ∀ c ∈ terminalTimers, w.timers.handle c = 0
  running : w.closing = false →
    w.timers.handle .drain = 0 ∧ w.timers.handle .teardown = 0 ∧ w.quit = false
  window : ∀ s ∈ w.timers.sources, s.callback = .run → WindowDue o w.log s.due
  chooses : ∀ s ∈ w.timers.sources, s.callback = .choose → o.list = false ∧ o.selfTest = false
  unstreamed : w.streaming = false → w.timers.handle .calibration = 0 ∧
    (o.list = false → o.selfTest = false → w.timers.handle .run = 0)
  sinkless : o.list = true ∨ o.selfTest = true → w.sink = false
  silent : w.sink = false → w.states = []
  enabled : w.input.metrics.cohort.enabled = o.calibration.isSome
  returned : ∀ status ∈ w.returned, w.quit = true ∧ status = w.exitStatus

/-! ## The calibration stays enabled -/

section Enabled

variable {c : CohortMetrics} {m : Metrics} {nowUs : UInt64}

theorem invalidate_enabled {reason : String} : (c.invalidate reason).enabled = c.enabled := by
  unfold CohortMetrics.invalidate
  split <;> rfl

theorem buffer_enabled {kind : ProbeKind} {b : Buffer} :
    (c.buffer kind b).enabled = c.enabled := by
  unfold CohortMetrics.buffer
  split
  · rfl
  split
  · rfl
  split
  · exact invalidate_enabled
  split
  · rfl
  split
  · exact invalidate_enabled
  · cases kind <;> rfl

theorem rawBegin_enabled {stamped : Bool} : (c.rawBegin nowUs stamped).enabled = c.enabled := by
  have stamp : ∀ (d : CohortMetrics) (started inCohort : Bool),
      (d.stamp started inCohort stamped).enabled = d.enabled := by
    intro d started inCohort
    cases stamped with
    | true => cases inCohort <;> rfl
    | false => cases inCohort <;> exact invalidate_enabled
  unfold CohortMetrics.rawBegin
  split
  · rfl
  · dsimp only
    split
    · split <;> rfl
    · exact stamp _ _ _
    · exact stamp _ _ _

theorem rawResult_enabled {sequence : UInt64} {accepted : Bool} :
    (c.rawResult sequence accepted).enabled = c.enabled := by
  unfold CohortMetrics.rawResult
  split
  · cases accepted with
    | true => rfl
    | false => exact invalidate_enabled
  · rfl

/-- No call on the metrics enables or disables the cohort. -/
theorem call_enabled (call : ProbeCall) :
    (m.call nowUs call).cohort.enabled = m.cohort.enabled := by
  have hevent : (∃ kind format, call = .segment kind format) ∨ (∃ kind, call = .flushStop kind) ∨
      (∃ kind caps, call = .caps kind caps) ∨ (∃ reason, call = .abort reason) →
      (m.call nowUs call).cohort.enabled = m.cohort.enabled := by
    intro hcall
    obtain heq | ⟨reason, heq⟩ := Metrics.event_cohort hcall
    · rw [heq]
    · rw [heq, invalidate_enabled]
  cases call with
  | attach kind =>
      rw [Metrics.call, Metrics.attach]
      split <;> rfl
  | encoderReady => rfl
  | streaming =>
      rw [Metrics.call, CohortMetrics.streaming]
      dsimp only
      split <;> rfl
  | rawBegin stamped => exact rawBegin_enabled
  | rawResult sequence accepted => exact rawResult_enabled
  | buffer kind b =>
      have hkept : (m.countBuffer kind b nowUs).cohort.enabled = (m.cohort.buffer kind b).enabled := by
        cases kind with
        | encoderIn =>
            unfold Metrics.countBuffer
            dsimp only
            rw [Metrics.encoderInput_cohort]
            split <;> rfl
        | encoderOut =>
            obtain ⟨unknown, frames, unmarked, timing, -, hcohort⟩ :=
              Metrics.encoderOutput_cohort { m with cohort := m.cohort.buffer .encoderOut b } b nowUs
            have hall : (m.countBuffer .encoderOut b nowUs).cohort = _ := hcohort
            rw [hall]
        | _ => rfl
      exact hkept.trans buffer_enabled
  | eos kind =>
      change (m.cohort.endOfStream kind nowUs).enabled = _
      unfold CohortMetrics.endOfStream
      split
      · rfl
      · cases kind <;> rfl
  | segment kind format => exact hevent (Or.inl ⟨kind, format, rfl⟩)
  | flushStop kind => exact hevent (Or.inr (Or.inl ⟨kind, rfl⟩))
  | caps kind caps => exact hevent (Or.inr (Or.inr (Or.inl ⟨kind, caps, rfl⟩)))
  | abort reason => exact hevent (Or.inr (Or.inr (Or.inr ⟨reason, rfl⟩)))

/-- Neither does a step of the raw input. -/
theorem step_enabled {g : Geometry} {w v : RawInput} {a : Action} (hv : w.step g a = some v) :
    v.metrics.cohort.enabled = w.metrics.cohort.enabled := by
  obtain hsame | ⟨nowUs, call, hcall⟩ := (step_frame hv).2
  · rw [hsame]
  · rw [hcall]
    exact call_enabled call

end Enabled

section Steps

variable {o : Options} {w v : Worker} {busy : Nat}

/-! ## Logging -/

/-- An event of the loop that is neither a call nor an end. -/
def Event.plain : Event → Bool
  | .finishCalled _ => false
  | .finished _ _ => false
  | _ => true

theorem plain_log {e : Event} (he : e.plain = true) (log : List Event) :
    finishes (e :: log) = finishes log ∧ calls (e :: log) = calls log ∧
      (Honest o (e :: log) ↔ Honest o log) := by
  cases e <;> first | exact ⟨rfl, rfl, Iff.rfl⟩ | cases he

theorem WindowDue.later {log log' : List Event} {due : Nat} (h : WindowDue o log due)
    (hlog : log ⊆ log') : WindowDue o log' due := by
  obtain hdue | ⟨hlist, htest, began, hbegan, hdue⟩ := h
  · exact Or.inl hdue
  · exact Or.inr ⟨hlist, htest, began, hlog hbegan, hdue⟩

theorem LoopInv.note (h : LoopInv o busy w) {e : Event} (he : e.plain = true) : LoopInv o busy (w.note e) := by
  obtain ⟨hfinishes, hcalls, hhonest⟩ := plain_log (o := o) he w.log
  refine { h with
    once := ?_
    closing := ?_
    status := ?_
    honest := hhonest.mpr h.honest
    window := ?_ }
  · change finishes (e :: w.log) = (calls (e :: w.log)).getLast?.toList
    rw [hfinishes, hcalls]
    exact h.once
  · change w.closing = true ↔ finishes (e :: w.log) ≠ []
    rw [hfinishes]
    exact h.closing
  · intro first hfirst
    change first ∈ finishes (e :: w.log) at hfirst
    rw [hfinishes] at hfirst
    obtain hsame | ⟨hzero, hsix, now, hmem, hdue⟩ := h.status first hfirst
    · exact Or.inl hsame
    · exact Or.inr ⟨hzero, hsix, now, List.mem_cons_of_mem _ hmem, hdue⟩
  · intro s hs hrun
    exact (h.window s hs hrun).later (List.subset_cons_self _ _)

/-! ## Timers -/

theorem handle_clear_or (t : Timers Callback) (c c' : Callback) :
    (t.clear c).handle c' = 0 ∨ (t.clear c).handle c' = t.handle c' := by
  by_cases heq : c' = c
  · subst heq
    exact Or.inl Timers.handle_clear
  · exact Or.inr (Timers.handle_clear_ne heq)

theorem handle_forget_or (t : Timers Callback) (c c' : Callback) :
    (t.forget c).handle c' = 0 ∨ (t.forget c).handle c' = t.handle c' := by
  by_cases heq : c' = c
  · subst heq
    exact Or.inl Timers.handle_forget_self
  · exact Or.inr (Timers.handle_forget_ne heq)

/-- Sources may go and handles may become clear. -/
theorem LoopInv.fewer {busy' : Nat} {t : Timers Callback} (h : LoopInv o busy w)
    (htracked : t.Tracked busy') (hsources : ∀ s ∈ t.sources, s ∈ w.timers.sources)
    (hhandles : ∀ c, t.handle c = 0 ∨ t.handle c = w.timers.handle c) :
    LoopInv o busy' { w with timers := t } := by
  have zero : ∀ {c}, w.timers.handle c = 0 → t.handle c = 0 := by
    intro c hc
    obtain hzero | hsame := hhandles c
    · exact hzero
    · exact hsame.trans hc
  refine { h with
    tracked := htracked
    released := ?_
    running := ?_
    window := fun s hs => h.window s (hsources s hs)
    chooses := fun s hs => h.chooses s (hsources s hs)
    unstreamed := ?_ }
  · exact fun hclosed c hc => zero (h.released hclosed c hc)
  · intro hopen
    obtain ⟨hdrain, hteardown, hquit⟩ := h.running hopen
    exact ⟨zero hdrain, zero hteardown, hquit⟩
  · intro hstreaming
    obtain ⟨hcalibration, hrun⟩ := h.unstreamed hstreaming
    exact ⟨zero hcalibration, fun hlist htest => zero (hrun hlist htest)⟩

theorem LoopInv.clearTimer (h : LoopInv o busy w) (c : Callback) :
    LoopInv o busy (w.clearTimer c) :=
  h.fewer h.tracked.clear (fun _ hs => Timers.mem_of_clear hs) (handle_clear_or w.timers c)

theorem LoopInv.clearAll (h : LoopInv o busy w) : LoopInv o busy w.clearAll :=
  ((((h.clearTimer .start).clearTimer .run).clearTimer .choose).clearTimer
    .telemetry).clearTimer .calibration

/-- The callback of a dispatched source forgets its handle first. -/
theorem LoopInv.forgetOwn (h : LoopInv o 0 w) {s : Source Callback} (hs : s ∈ w.timers.sources) :
    LoopInv o s.id (w.forget s.callback) :=
  h.fewer (h.tracked.forgetOwn hs) (fun _ hu => hu) (handle_forget_or w.timers s.callback)

theorem clearTimer_zero {c c' : Callback} (h : w.timers.handle c = 0) :
    (w.clearTimer c').timers.handle c = 0 := by
  obtain hzero | hsame := handle_clear_or w.timers c' c
  · exact hzero
  · exact hsame.trans h

theorem clearAll_zero {c : Callback} (h : w.timers.handle c = 0) :
    w.clearAll.timers.handle c = 0 :=
  clearTimer_zero (clearTimer_zero (clearTimer_zero (clearTimer_zero (clearTimer_zero h))))

theorem clearAll_terminal {c : Callback} (hc : c ∈ terminalTimers) :
    w.clearAll.timers.handle c = 0 := by
  have cleared : ∀ (u : Worker) (c : Callback), (u.clearTimer c).timers.handle c = 0 :=
    fun _ _ => Timers.handle_clear
  simp only [terminalTimers, List.mem_cons, List.not_mem_nil, or_false] at hc
  obtain rfl | rfl | rfl | rfl | rfl := hc
  · exact clearTimer_zero (clearTimer_zero (clearTimer_zero (clearTimer_zero (cleared _ _))))
  · exact clearTimer_zero (clearTimer_zero (clearTimer_zero (cleared _ _)))
  · exact clearTimer_zero (clearTimer_zero (cleared _ _))
  · exact clearTimer_zero (cleared _ _)
  · exact cleared _ _

/-- The timers of the end are armed behind it. -/
theorem LoopInv.armEnd {c : Callback} (h : LoopInv o busy w) (hclosed : w.closing = true)
    (hc : w.timers.handle c = 0) (hend : c = .drain ∨ c = .teardown) (delay : Nat) :
    LoopInv o busy (w.arm c delay) := by
  have hnot : ∀ c' ∈ terminalTimers, c' ≠ c := by
    intro c' hc' heq
    obtain rfl | rfl := hend <;> simp [heq, terminalTimers] at hc'
  refine { h with
    tracked := h.tracked.arm hc _
    released := ?_
    running := ?_
    window := ?_
    chooses := ?_
    unstreamed := ?_ }
  · intro _ c' hc'
    exact (Timers.handle_arm_ne (hnot c' hc')).trans (h.released hclosed c' hc')
  · intro hopen
    rw [show (w.arm c delay).closing = w.closing from rfl, hclosed] at hopen
    cases hopen
  · intro s hs hrun
    obtain rfl | hs := Timers.mem_arm.mp hs
    · obtain rfl | rfl := hend <;> cases hrun
    · exact h.window s hs hrun
  · intro s hs hchoose
    obtain rfl | hs := Timers.mem_arm.mp hs
    · obtain rfl | rfl := hend <;> cases hchoose
    · exact h.chooses s hs hchoose
  · intro hstreaming
    obtain ⟨hcalibration, hrun⟩ := h.unstreamed hstreaming
    constructor
    · exact (Timers.handle_arm_ne (hnot _ (by simp [terminalTimers]))).trans hcalibration
    · intro hlist htest
      exact (Timers.handle_arm_ne (hnot _ (by simp [terminalTimers]))).trans (hrun hlist htest)

/-! ## The end of the worker -/

/-- A change of the raw input that keeps the calibration enabled or disabled. -/
theorem LoopInv.input (h : LoopInv o busy w) (input : RawInput)
    (henabled : input.metrics.cohort.enabled = w.input.metrics.cohort.enabled) :
    LoopInv o busy { w with input } :=
  { h with enabled := henabled.trans h.enabled }

/-- The first caller of `finish` has ended the worker. -/
def Worker.ended (w : Worker) (status : Int) (reason : String) : Worker :=
  { (w.note (.finishCalled status)).note (.finished status reason) with
    closing := true, exitStatus := status, input := { w.input with stopping := true } }

/-- Nobody has called `finish` on a worker that goes on. -/
theorem LoopInv.uncalled (h : LoopInv o busy w) (hopen : w.closing = false) :
    finishes w.log = [] ∧ calls w.log = [] := by
  have hnone : finishes w.log = [] := by
    by_contra hsome
    have := h.closing.mpr hsome
    rw [hopen] at this
    cases this
  refine ⟨hnone, ?_⟩
  have honce := h.once
  rw [hnone] at honce
  cases hlast : (calls w.log).getLast? with
  | none => exact List.getLast?_eq_none_iff.mp hlast
  | some status =>
      rw [hlast] at honce
      cases honce

theorem LoopInv.ended {status : Int} {reason : String} (h : LoopInv o busy w)
    (hopen : w.closing = false) (hreleased : ∀ c ∈ terminalTimers, w.timers.handle c = 0)
    (hearned : status = 0 → Earned o w.log) : LoopInv o busy (w.ended status reason) := by
  obtain ⟨hnone, hcalls⟩ := h.uncalled hopen
  have hfinishes : finishes (w.ended status reason).log = [status] := by
    change status :: finishes w.log = _
    rw [hnone]
  refine { h with
    once := ?_
    closing := ?_
    status := ?_
    honest := ?_
    released := fun _ => hreleased
    running := fun hno => by cases hno
    window := ?_
    returned := ?_ }
  · rw [hfinishes]
    change _ = ((status :: calls w.log).getLast?).toList
    rw [hcalls]
    rfl
  · rw [hfinishes]
    exact ⟨fun _ => List.cons_ne_nil _ _, fun _ => rfl⟩
  · intro first hfirst
    rw [hfinishes] at hfirst
    exact Or.inl (List.mem_singleton.mp hfirst).symm
  · refine ⟨fun hzero => (hearned hzero).later (List.subset_cons_self _ _), h.honest⟩
  · intro s hs hrun
    apply (h.window s hs hrun).later
    intro e he
    exact List.mem_cons_of_mem _ (List.mem_cons_of_mem _ he)
  · intro returned hreturned
    have hquit := (h.returned returned hreturned).1
    rw [(h.running hopen).2.2] at hquit
    cases hquit

/-- `finish` as the end of a worker whose timers are cleared. -/
theorem finish_eq {status : Int} {reason : String} {teardown : Bool} (hopen : w.closing = false) :
    w.finish status reason teardown =
      ((w.clearAll.abort status reason).ended status reason).armDrain teardown := by
  have hgo : ¬ (w.note (.finishCalled status)).closing = true := by
    change ¬ w.closing = true
    rw [hopen]
    exact Bool.false_ne_true
  have hended : (({ (w.note (.finishCalled status)).note (.finished status reason) with
      closing := true
      exitStatus := status
      input := { w.input with stopping := true } }).clearAll).abort status reason =
      (w.clearAll.abort status reason).ended status reason := by
    unfold Worker.abort
    split <;> simp only [Worker.clearAll, Worker.clearTimer, Worker.measure, Worker.ended,
      Worker.note]
  unfold Worker.finish
  dsimp only
  rw [if_neg hgo, ← hended]
  rfl

/-- A later caller of `finish` changes nothing but the log. -/
theorem LoopInv.calledAgain (h : LoopInv o busy w) (hclosed : w.closing = true) (status : Int) :
    LoopInv o busy (w.note (.finishCalled status)) := by
  have hsome : calls w.log ≠ [] := by
    intro hnone
    have honce := h.once
    rw [hnone] at honce
    exact h.closing.mp hclosed honce
  refine { h with
    once := ?_
    status := ?_
    window := ?_ }
  · change finishes w.log = ((status :: calls w.log).getLast?).toList
    rw [List.getLast?_cons, h.once]
    obtain ⟨last, hlast⟩ := Option.isSome_iff_exists.mp (List.getLast?_isSome.mpr hsome)
    rw [hlast]
    rfl
  · intro first hfirst
    obtain hsame | ⟨hzero, hsix, now, hmem, hdue⟩ := h.status first hfirst
    · exact Or.inl hsame
    · exact Or.inr ⟨hzero, hsix, now, List.mem_cons_of_mem _ hmem, hdue⟩
  · intro s hs hrun
    exact (h.window s hs hrun).later (List.subset_cons_self _ _)

theorem LoopInv.measure (h : LoopInv o busy w) (call : ProbeCall) :
    LoopInv o busy (w.measure call) :=
  h.input _ (call_enabled call)

theorem LoopInv.abort (h : LoopInv o busy w) (status : Int) (reason : String) :
    LoopInv o busy (w.abort status reason) := by
  unfold Worker.abort
  split
  · exact h.measure _
  · exact h

theorem abort_frame (w : Worker) (status : Int) (reason : String) :
    (w.abort status reason).timers = w.timers ∧ (w.abort status reason).closing = w.closing ∧
      (w.abort status reason).log = w.log := by
  unfold Worker.abort
  split <;> exact ⟨rfl, rfl, rfl⟩

theorem LoopInv.armDrain (h : LoopInv o busy w) (hclosed : w.closing = true)
    (hdrain : w.timers.handle .drain = 0) (hteardown : w.timers.handle .teardown = 0)
    (hdeadline : ∀ first ∈ finishes w.log, w.exitStatus = first) (teardown : Bool) :
    LoopInv o busy (w.armDrain teardown) := by
  have armed : ∀ u : Worker, LoopInv o busy u → u.closing = true → u.timers.handle .drain = 0 →
      (∀ first ∈ finishes u.log, u.exitStatus = first) →
      LoopInv o busy (({ u with drainDeadline := u.now + 3000000 }).arm .drain 100000) := by
    intro u hu huclosed hudrain hfirst
    have hlater : LoopInv o busy { u with drainDeadline := u.now + 3000000 } :=
      { hu with status := fun first hmem => Or.inl (hfirst first hmem) }
    exact hlater.armEnd huclosed hudrain (Or.inl rfl) 100000
  unfold Worker.armDrain
  dsimp only
  split
  · refine armed _ (h.armEnd hclosed hteardown (Or.inr rfl) 1000000) hclosed ?_ hdeadline
    exact (Timers.handle_arm_ne (fun heq => by cases heq)).trans hdrain
  · exact armed _ h hclosed hdrain hdeadline

/-- `finish` may be called at any point, with success only where it was earned. -/
theorem LoopInv.finish {status : Int} {reason : String} {teardown : Bool} (h : LoopInv o busy w)
    (hearned : status = 0 → Earned o w.log) : LoopInv o busy (w.finish status reason teardown) := by
  cases hclosing : w.closing with
  | true =>
      have hagain := h.calledAgain hclosing status
      have hgo : (w.note (.finishCalled status)).closing = true := hclosing
      unfold Worker.finish
      dsimp only
      rwa [if_pos hgo]
  | false =>
      rw [finish_eq hclosing]
      obtain ⟨hdrain, hteardown, -⟩ := h.running hclosing
      obtain ⟨htimers, hopen, hlog⟩ := abort_frame w.clearAll status reason
      have hended := @LoopInv.ended o _ busy status reason (h.clearAll.abort status reason)
        (hopen.trans hclosing) (fun c hc => by rw [htimers]; exact clearAll_terminal hc)
        (fun hzero => by rw [hlog]; exact hearned hzero)
      refine hended.armDrain rfl ?_ ?_ ?_ teardown
      · change (w.clearAll.abort status reason).timers.handle .drain = 0
        rw [htimers]
        exact clearAll_zero hdrain
      · change (w.clearAll.abort status reason).timers.handle .teardown = 0
        rw [htimers]
        exact clearAll_zero hteardown
      · intro first hfirst
        change first ∈ status :: finishes (w.clearAll.abort status reason).log at hfirst
        rw [hlog, (h.clearAll.uncalled hclosing).1] at hfirst
        exact (List.mem_singleton.mp hfirst).symm

theorem finish_closing {status : Int} {reason : String} {teardown : Bool} :
    (w.finish status reason teardown).closing = true := by
  have armed : ∀ u : Worker, (u.armDrain teardown).closing = u.closing := by
    intro u
    unfold Worker.armDrain
    dsimp only
    split <;> rfl
  cases hclosing : w.closing with
  | true =>
      have hgo : (w.note (.finishCalled status)).closing = true := hclosing
      unfold Worker.finish
      dsimp only
      rwa [if_pos hgo]
  | false =>
      rw [finish_eq hclosing, armed]
      rfl

/-! ## Callbacks of the timers -/

theorem LoopInv.dispatching (h : LoopInv o 0 w) (id : Nat) : LoopInv o id w :=
  { h with tracked := h.tracked.dispatch id }

/-- The source that was dispatched is removed. -/
theorem LoopInv.removed (h : LoopInv o busy w) :
    LoopInv o 0 { w with timers := w.timers.remove busy } :=
  h.fewer h.tracked.removed (fun _ hs => (Timers.mem_remove.mp hs).1) fun _ => Or.inr rfl

/-- The source that was dispatched goes on. -/
theorem LoopInv.again (h : LoopInv o 0 w) {s : Source Callback} (hs : s ∈ w.timers.sources)
    (hrun : s.callback ≠ .run) (due : Nat) :
    LoopInv o 0 { w with timers := w.timers.again s.id due } := by
  refine { h with
    tracked := h.tracked.again s.id due
    window := ?_
    chooses := ?_ }
  · intro u hu hcallback
    obtain ⟨u', hu', hid, hsame, hdue⟩ := Timers.mem_again hu
    rw [hsame] at hcallback
    obtain hdue | ⟨hbusy, -⟩ := hdue
    · rw [hdue]
      exact h.window u' hu' hcallback
    · have hunique := h.tracked.unique u' hu' s hs (by rw [← hid, hbusy])
      rw [hunique] at hcallback
      exact absurd hcallback hrun
  · intro u hu hcallback
    obtain ⟨u', hu', -, hsame, -⟩ := Timers.mem_again hu
    rw [hsame] at hcallback
    exact h.chooses u' hu' hcallback

/-- What the callback of a source leaves. -/
def Dispatched (o : Options) (s : Source Callback) : Worker × Worker.Outcome → Prop
  | (v, .remove) => LoopInv o s.id v
  | (v, .goOn _) => LoopInv o 0 v ∧ s ∈ v.timers.sources ∧ s.callback ≠ .run

variable {s : Source Callback} {reply : Reply}

/-- The forgetting that a callback begins with. -/
theorem LoopInv.forgets (h : LoopInv o 0 w) (hs : s ∈ w.timers.sources) {c : Callback}
    (hc : s.callback = c) : LoopInv o s.id (w.forget c) := by
  subst hc
  exact h.forgetOwn hs

theorem dispatched_start (h : LoopInv o 0 w) (hs : s ∈ w.timers.sources)
    (hc : s.callback = .start) : Dispatched o s (w.startExpired reply) :=
  (h.forgets hs hc).finish fun hzero => by cases hzero

theorem dispatched_run (h : LoopInv o 0 w) (hs : s ∈ w.timers.sources) (hdue : s.due ≤ w.now)
    (hc : s.callback = .run) : Dispatched o s (w.runComplete o reply) := by
  have hforgot : LoopInv o s.id ((w.note (.windowElapsed w.now w.decoded)).forget .run) :=
    (h.note rfl).forgets hs hc
  have helapsed : Event.windowElapsed w.now w.decoded ∈
      (w.note (.windowElapsed w.now w.decoded)).log := List.mem_cons_self
  unfold Worker.runComplete
  dsimp only
  split
  · exact hforgot.finish fun hzero => by cases hzero
  · next hgood =>
    refine hforgot.finish fun _ => ?_
    obtain ⟨hmode, hend⟩ | ⟨hlist, htest, began, hbegan, hend⟩ := h.window s hs hc
    · obtain hlist | htest := hmode
      · exact Or.inl ⟨hlist, w.now, w.decoded, helapsed, hend.trans hdue⟩
      · refine Or.inr (Or.inl ⟨htest, w.now, w.decoded, helapsed, hend.trans hdue, ?_⟩)
        apply Nat.pos_of_ne_zero
        intro hnone
        apply hgood
        change (o.selfTest && decide (w.decoded = 0)) = true
        rw [htest, decide_eq_true hnone]
        rfl
    · exact Or.inr (Or.inr (Or.inl ⟨hlist, htest, began, w.now, w.decoded,
        List.mem_cons_of_mem _ hbegan, helapsed, hend.trans hdue⟩))

theorem dispatched_choose (h : LoopInv o 0 w) (hs : s ∈ w.timers.sources)
    (hc : s.callback = .choose) : Dispatched o s (w.choosePeer reply) := by
  unfold Worker.choosePeer
  split
  · refine ⟨h, hs, ?_⟩
    rw [hc]
    exact fun heq => by cases heq
  split
  · exact (h.forgets hs hc).finish fun hzero => by cases hzero
  · obtain ⟨hlist, htest⟩ := h.chooses s hs hc
    have hchosen : LoopInv o 0 { w with sink := true, started := true } := by
      refine { h with
        sinkless := ?_
        silent := fun hno => by cases hno }
      rintro (hlist' | htest')
      · rw [hlist] at hlist'
        cases hlist'
      · rw [htest] at htest'
        cases htest'
    dsimp only
    split
    · exact hchosen.forgets (s := s) hs hc
    · have hfinished := @LoopInv.finish o _ s.id 4 "start-stream-rejected" reply.teardown
        (hchosen.dispatching s.id) fun hzero => by cases hzero
      refine hfinished.fewer (hfinished.tracked.forget ?_) (fun _ hu => hu)
        (handle_forget_or _ .choose)
      intro u hu hne
      exact hfinished.tracked.absent
        (hfinished.released finish_closing .choose (by simp [terminalTimers])) hu hne

/-- The drain runs only behind the end. -/
theorem LoopInv.closing_of_drain (h : LoopInv o 0 w) (hs : s ∈ w.timers.sources)
    (hc : s.callback = .drain) : w.closing = true := by
  by_contra hopen
  have hzero := (h.running (Bool.eq_false_iff.mpr hopen)).1
  exact h.tracked.absent hzero hs (Nat.ne_of_gt (h.tracked.numbered s hs).1) hc

theorem LoopInv.quitLoop (h : LoopInv o 0 w) (hs : s ∈ w.timers.sources)
    (hc : s.callback = .drain) (hclosed : w.closing = true) : LoopInv o s.id w.quitLoop := by
  have hforgot := h.forgets hs hc
  refine { hforgot with
    running := ?_
    returned := fun status hstatus => ⟨rfl, (hforgot.returned status hstatus).2⟩ }
  intro hopen
  rw [show w.quitLoop.closing = w.closing from rfl, hclosed] at hopen
  cases hopen

theorem dispatched_drain (h : LoopInv o 0 w) (hs : s ∈ w.timers.sources)
    (hreturned : w.returned = none) (hc : s.callback = .drain) :
    Dispatched o s (w.drainComplete o reply) := by
  have hclosed := h.closing_of_drain hs hc
  have hon : LoopInv o 0 w ∧ s ∈ w.timers.sources ∧ s.callback ≠ .run := by
    refine ⟨h, hs, ?_⟩
    rw [hc]
    exact fun heq => by cases heq
  unfold Worker.drainComplete
  split
  · exact hon
  split
  · exact h.quitLoop hs hc hclosed
  split
  · exact h.quitLoop hs hc hclosed
  split
  · next hdeadline =>
    have hnoted := h.note (e := .deadlinePassed w.now) rfl
    have hlate : LoopInv o 0 { w.note (.deadlinePassed w.now) with
        exitStatus := if w.exitStatus = 0 then 6 else w.exitStatus } := by
      refine { hnoted with
        status := ?_
        returned := ?_ }
      · intro first hfirst
        obtain hsame | ⟨hzero, hsix, hpassed⟩ := hnoted.status first hfirst
        · have hsame : w.exitStatus = first := hsame
          by_cases hzero : w.exitStatus = 0
          · refine Or.inr ⟨hsame.symm.trans hzero, if_pos hzero, w.now, List.mem_cons_self, ?_⟩
            exact hdeadline
          · exact Or.inl ((if_neg hzero).trans hsame)
        · have hsix : w.exitStatus = 6 := hsix
          refine Or.inr ⟨hzero, ?_, hpassed⟩
          change (if w.exitStatus = 0 then 6 else w.exitStatus) = 6
          rw [hsix]
          rfl
      · intro status hstatus
        have hstatus : status ∈ w.returned := hstatus
        rw [hreturned] at hstatus
        cases hstatus
    exact hlate.quitLoop hs hc hclosed
  · exact hon

/-- A complete cohort belongs to a calibration. -/
theorem complete_enabled {m : Metrics} (h : m.cohortProblem.isNone = true) :
    m.cohort.enabled = true := by
  by_contra hoff
  have hoff : (!m.cohort.enabled) = true := by simpa using hoff
  unfold Metrics.cohortProblem at h
  dsimp only at h
  rw [if_pos hoff] at h
  cases h

/-- What a complete cohort stands for. -/
theorem LoopInv.earnedCohort (h : LoopInv o busy w) (hcomplete : w.calibrationClosed.2 = true) :
    Earned o (.cohortComplete :: w.log) := by
  refine Or.inr (Or.inr (Or.inr ⟨?_, List.mem_cons_self⟩))
  rw [← h.enabled]
  exact complete_enabled hcomplete

theorem LoopInv.bound (h : LoopInv o busy w) (deadline : Nat) :
    LoopInv o busy { w with calibrationDeadline := deadline } :=
  { h with }

theorem LoopInv.requestEos (h : LoopInv o busy w) : LoopInv o busy w.requestEos := by
  unfold Worker.requestEos
  split
  · exact { h with }
  · exact h

theorem requestEos_timers : w.requestEos.timers = w.timers := by
  unfold Worker.requestEos
  split <;> rfl

theorem dispatched_calibration (h : LoopInv o 0 w) (hs : s ∈ w.timers.sources)
    (hc : s.callback = .calibration) : Dispatched o s (w.calibrationProgress reply) := by
  have hrequested := h.requestEos
  have hs' : s ∈ w.requestEos.timers.sources := by
    rw [requestEos_timers]
    exact hs
  unfold Worker.calibrationProgress
  dsimp only
  split
  · split
    · next hcomplete =>
      have hnoted := hrequested.note (e := .cohortComplete) rfl
      exact (hnoted.forgets hs' hc).finish fun _ => hrequested.earnedCohort hcomplete
    · exact (hrequested.forgets hs' hc).finish fun hzero => by cases hzero
  split
  · exact (hrequested.forgets hs' hc).finish fun hzero => by cases hzero
  · refine ⟨hrequested, hs', ?_⟩
    rw [hc]
    exact fun heq => by cases heq

/-- The callback of any timer. -/
theorem dispatched (h : LoopInv o 0 w) (hs : s ∈ w.timers.sources) (hdue : s.due ≤ w.now)
    (hreturned : w.returned = none) : Dispatched o s (w.callback o reply s.callback) := by
  cases hc : s.callback with
  | start => exact dispatched_start h hs hc
  | run => exact dispatched_run h hs hdue hc
  | choose => exact dispatched_choose h hs hc
  | drain => exact dispatched_drain h hs hreturned hc
  | telemetry =>
      refine ⟨h, hs, ?_⟩
      rw [hc]
      exact fun heq => by cases heq
  | teardown => exact h.forgets hs hc
  | calibration => exact dispatched_calibration h hs hc

theorem inv_dispatch (h : LoopInv o 0 w) (hs : s ∈ w.timers.sources) (hdue : s.due ≤ w.now)
    (hreturned : w.returned = none) : LoopInv o 0 (w.dispatch o s reply) := by
  have hdone := @dispatched o w s reply h hs hdue hreturned
  unfold Worker.dispatch
  split
  · next v heq =>
    rw [heq] at hdone
    exact LoopInv.removed hdone
  · next v delay heq =>
    rw [heq] at hdone
    obtain ⟨hnext, hmem, hrun⟩ := hdone
    exact hnext.again hmem hrun _

/-! ## State changes of the sink -/

/-- A timer is armed while the worker goes on. -/
theorem LoopInv.armOpen {c : Callback} (h : LoopInv o busy w) (hopen : w.closing = false)
    (hc : w.timers.handle c = 0) (hnot : c ≠ .drain ∧ c ≠ .teardown) (delay : Nat)
    (hrun : c = .run → WindowDue o w.log (w.now + delay))
    (hchoose : c = .choose → o.list = false ∧ o.selfTest = false)
    (hstreaming : w.streaming = false → c ≠ .calibration ∧
      (o.list = false → o.selfTest = false → c ≠ .run)) : LoopInv o busy (w.arm c delay) := by
  refine { h with
    tracked := h.tracked.arm hc _
    released := ?_
    running := ?_
    window := ?_
    chooses := ?_
    unstreamed := ?_ }
  · intro hclosed
    rw [show (w.arm c delay).closing = w.closing from rfl, hopen] at hclosed
    cases hclosed
  · intro _
    obtain ⟨hdrain, hteardown, hquit⟩ := h.running hopen
    exact ⟨(Timers.handle_arm_ne hnot.1.symm).trans hdrain,
      (Timers.handle_arm_ne hnot.2.symm).trans hteardown, hquit⟩
  · intro u hu hcallback
    obtain rfl | hu := Timers.mem_arm.mp hu
    · exact hrun hcallback
    · exact h.window u hu hcallback
  · intro u hu hcallback
    obtain rfl | hu := Timers.mem_arm.mp hu
    · exact hchoose hcallback
    · exact h.chooses u hu hcallback
  · intro hno
    obtain ⟨hcalibration, hzero⟩ := h.unstreamed hno
    obtain ⟨hcal, hrunning⟩ := hstreaming hno
    refine ⟨(Timers.handle_arm_ne hcal.symm).trans hcalibration, fun hlist htest => ?_⟩
    exact (Timers.handle_arm_ne (hrunning hlist htest).symm).trans (hzero hlist htest)

theorem inv_beginStreaming (h : LoopInv o 0 w) (hopen : w.closing = false)
    (hstreaming : w.streaming = false) (hlist : o.list = false) (htest : o.selfTest = false) :
    LoopInv o 0 (w.beginStreaming o) := by
  obtain ⟨hcalibration, hrun⟩ := h.unstreamed hstreaming
  have hbegan : LoopInv o 0 ({ w with streaming := true }.note (.streamingBegan w.now)) := by
    have hmarked : LoopInv o 0 { w with streaming := true } :=
      { h with unstreamed := fun hno => by cases hno }
    exact hmarked.note rfl
  have hcleared := hbegan.clearTimer .start
  have hzero : ∀ c, w.timers.handle c = 0 →
      (({ w with streaming := true }.note (.streamingBegan w.now)).clearTimer
        .start).timers.handle c = 0 := fun c hc => clearTimer_zero hc
  unfold Worker.beginStreaming
  dsimp only
  split
  · next warmupMs durationMs heq =>
    have hbounded := (hcleared.measure .streaming).bound
      (w.now + (warmupMs + durationMs + 5000) * 1000)
    exact hbounded.armOpen (c := .calibration) hopen (hzero _ hcalibration)
      ⟨by decide, by decide⟩ 50000 (fun heq => by cases heq) (fun heq => by cases heq)
      fun hno => by cases hno
  · split
    · next hseconds =>
      refine LoopInv.armOpen (c := .run) hcleared hopen (hzero _ (hrun hlist htest))
        ⟨by decide, by decide⟩ _ ?_
        (fun heq => by cases heq) fun hno => by cases hno
      intro _
      have hwindow : runtimeSeconds o.continuous o.seconds * 1000000 = o.windowUs := by
        unfold runtimeSeconds at hseconds ⊢
        split at hseconds
        · exact absurd rfl hseconds
        · next hbounded =>
          rw [if_neg hbounded]
          rfl
      refine Or.inr ⟨hlist, htest, w.now, List.mem_cons_self, ?_⟩
      rw [hwindow]
      exact Nat.le_refl _
    · exact hcleared

theorem inv_handleState {state : SinkState} {teardown : Bool} (h : LoopInv o 0 w)
    (hsink : w.sink = true) : LoopInv o 0 (w.handleState o state teardown) := by
  have hmode : o.list = false ∧ o.selfTest = false := by
    constructor
    · by_contra hlist
      have := h.sinkless (Or.inl (Bool.eq_true_of_not_eq_false hlist))
      rw [hsink] at this
      cases this
    · by_contra htest
      have := h.sinkless (Or.inr (Bool.eq_true_of_not_eq_false htest))
      rw [hsink] at this
      cases this
  unfold Worker.handleState
  split
  · next hbegin => exact inv_beginStreaming h hbegin.1 hbegin.2.2 hmode.1 hmode.2
  split
  · split
    · next hcomplete =>
      exact (h.note (e := .cohortComplete) rfl).finish fun _ => h.earnedCohort hcomplete.2.2
    · exact h.finish fun hzero => by cases hzero
  · exact h

/-! ## Every step -/

/-- Behind the end of the loop the status is returned. -/
theorem inv_leave_loop (h : LoopInv o 0 w) (hquit : w.quit = true) : LoopInv o 0 w.leave := by
  have hcleared := ((h.clearTimer .telemetry).clearTimer .calibration).clearTimer .teardown
  refine { hcleared with
    returned := ?_ }
  intro status hstatus
  obtain rfl := Option.some.inj hstatus
  exact ⟨hquit, rfl⟩

/-- Every step of the worker keeps the invariant. -/
theorem loop_step {a : WorkerAction} (h : LoopInv o 0 w) (hv : w.step o a = some v) :
    LoopInv o 0 v := by
  unfold Worker.step at hv
  split at hv
  · cases hv
  next hgoing =>
  have hreturned : w.returned = none := Option.not_isSome_iff_eq_none.mp hgoing
  cases a with
  | tick elapsed =>
      obtain rfl := Option.some.inj hv
      exact { h with }
  | stream a =>
      dsimp only at hv
      split at hv
      · obtain ⟨input, hstep, rfl⟩ := Option.map_eq_some_iff.mp hv
        exact h.input input (step_enabled hstep)
      · cases hv
  | decode =>
      obtain rfl := Option.some.inj hv
      exact { h with }
  | sinkState state =>
      dsimp only at hv
      split at hv
      · next hsink =>
        obtain rfl := Option.some.inj hv
        refine { h with silent := fun hno => ?_ }
        rw [show w.sink = false from hno] at hsink
        cases hsink
      · cases hv
  | signal teardown =>
      obtain rfl := Option.some.inj hv
      exact h.finish fun hzero => by cases hzero
  | testBus endOfStream teardown =>
      dsimp only at hv
      split at hv
      · obtain rfl := Option.some.inj hv
        exact h.finish fun hzero => by cases hzero
      · cases hv
  | dispatchFailure teardown =>
      dsimp only at hv
      split at hv
      · cases hv
      · obtain rfl := Option.some.inj hv
        exact LoopInv.finish { h with } fun hzero => by cases hzero
  | dispatchState state teardown =>
      dsimp only at hv
      split at hv
      · next hmem =>
        obtain rfl := Option.some.inj hv
        have hsink : w.sink = true := by
          by_contra hno
          rw [h.silent (Bool.eq_false_iff.mpr hno)] at hmem
          cases hmem
        refine inv_handleState { h with silent := fun hno => ?_ } hsink
        rw [hsink] at hno
        cases hno
      · cases hv
  | dispatch id reply =>
      obtain ⟨s, hfind, rfl⟩ := Option.map_eq_some_iff.mp hv
      have htest := List.find?_some hfind
      obtain ⟨-, hdue⟩ := of_decide_eq_true htest
      exact inv_dispatch h (List.mem_of_find?_eq_some hfind) hdue hreturned
  | leave =>
      dsimp only at hv
      split at hv
      · next hquit =>
        obtain rfl := Option.some.inj hv
        exact inv_leave_loop h hquit
      · cases hv

end Steps

/-! ## Whole runs -/

section Runs

variable {o : Options} {w v : Worker} {byte : Nat → UInt8} {setup : Setup}

theorem create_inv : LoopInv o 0 (Worker.create o byte) where
  tracked := Timers.Tracked.empty
  once := rfl
  closing := by
    constructor
    · intro hclosed
      cases hclosed
    · intro hsome
      exact absurd rfl hsome
  status first hfirst := by cases hfirst
  honest := trivial
  released hclosed := by cases hclosed
  running _ := ⟨rfl, rfl, rfl⟩
  window s hs := by cases hs
  chooses s hs := by cases hs
  unstreamed _ := ⟨rfl, fun _ _ => rfl⟩
  sinkless _ := rfl
  silent _ := rfl
  enabled := by
    unfold Worker.create RawInput.start Options.window startMetrics
    cases o.calibration <;> rfl
  returned status hstatus := by cases hstatus

/-- A timer other than that of a window is armed before the loop runs. -/
theorem LoopInv.armSetup {c : Callback} (h : LoopInv o 0 w) (hopen : w.closing = false)
    (hc : w.timers.handle c = 0) (hplain : c = .start ∨ c = .telemetry) (delay : Nat) :
    LoopInv o 0 (w.arm c delay) := by
  apply h.armOpen hopen hc
  · obtain rfl | rfl := hplain <;> decide
  · intro hrun
    obtain rfl | rfl := hplain <;> cases hrun
  · intro hchoose
    obtain rfl | rfl := hplain <;> cases hchoose
  · intro _
    obtain rfl | rfl := hplain
    · exact ⟨by decide, fun _ _ => by decide⟩
    · exact ⟨by decide, fun _ _ => by decide⟩

/-- The window of a discovery or of a self-test. -/
theorem LoopInv.armWindow (h : LoopInv o 0 w) (hopen : w.closing = false)
    (hc : w.timers.handle .run = 0) (hmode : o.list = true ∨ o.selfTest = true) :
    LoopInv o 0 (w.arm .run o.windowUs) := by
  apply h.armOpen hopen hc ⟨by decide, by decide⟩
  · intro _
    exact Or.inl ⟨hmode, Nat.le_add_left _ _⟩
  · intro hchoose
    cases hchoose
  · intro _
    refine ⟨by decide, fun hlist htest => ?_⟩
    obtain hlist' | htest' := hmode
    · rw [hlist] at hlist'
      cases hlist'
    · rw [htest] at htest'
      cases htest'

/-- A worker that has armed nothing but the telemetry. -/
structure Fresh (o : Options) (w : Worker) : Prop where
  inv : LoopInv o 0 w
  running : w.closing = false
  unarmed : ∀ c, c ≠ .telemetry → w.timers.handle c = 0
  silent : w.states = []

theorem fresh_armTelemetry : Fresh o ((Worker.create o byte).armTelemetry o) := by
  unfold Worker.armTelemetry
  split
  · exact ⟨create_inv, rfl, fun _ _ => rfl, rfl⟩
  · refine ⟨create_inv.armSetup rfl rfl (Or.inr rfl) 1000000, rfl, ?_, rfl⟩
    exact fun c hc => Timers.handle_arm_ne hc

theorem inv_adoptExisting {accepted teardown : Bool} (h : Fresh o w) (hadopted : o.adopted = true) :
    LoopInv o 0 (w.adoptExisting o accepted teardown) := by
  have halone := o.alone
  rw [hadopted, Bool.true_and] at halone
  obtain ⟨hlist, htest⟩ := Bool.or_eq_false_iff.mp halone
  have hsink : LoopInv o 0 { w with sink := true, started := true } := by
    refine { h.inv with
      sinkless := ?_
      silent := fun hno => by cases hno }
    rintro (hlist' | htest')
    · rw [hlist] at hlist'
      cases hlist'
    · rw [htest] at htest'
      cases htest'
  have hstart := hsink.armSetup (c := .start) h.running (h.unarmed .start (by decide)) (Or.inl rfl)
    (o.connectTimeout * 1000000)
  unfold Worker.adoptExisting
  dsimp only
  split
  · exact hstart
  · exact hstart.finish fun hzero => by cases hzero

theorem inv_armMode {accepted teardown : Bool} (h : Fresh o w) :
    LoopInv o 0 (w.armMode o accepted teardown) := by
  have hrun := h.unarmed .run (by decide)
  unfold Worker.armMode
  split
  · next htest => exact h.inv.armWindow h.running hrun (Or.inr htest)
  split
  · next hadopted => exact inv_adoptExisting h hadopted
  split
  · next hlist => exact h.inv.armWindow h.running hrun (Or.inl hlist)
  · next htest _ hlist =>
    have hstart := h.inv.armSetup (c := .start) h.running (h.unarmed .start (by decide))
      (Or.inl rfl) (o.connectTimeout * 1000000)
    refine hstart.armOpen (c := .choose) h.running ?_ ⟨by decide, by decide⟩ 2000000
      (fun hrun => by cases hrun) ?_ ?_
    · exact (Timers.handle_arm_ne (by decide)).trans (h.unarmed .choose (by decide))
    · exact fun _ => ⟨Bool.eq_false_iff.mpr hlist, Bool.eq_false_iff.mpr htest⟩
    · exact fun _ => ⟨by decide, fun _ _ => by decide⟩

theorem main_inv (h : main o byte setup = .ok w) : LoopInv o 0 w := by
  cases setup with
  | ready accepted teardown =>
      obtain rfl := Except.ok.inj h
      exact inv_armMode fresh_armTelemetry
  | _ => cases h

/-- The invariant holds in every state of every run. -/
theorem reaches_loop (h : main o byte setup = .ok w)
    (run : (workerSystem o).Reaches System.Any w v) : LoopInv o 0 v :=
  run.invariant (P := LoopInv o 0) (fun _ _ _ h _ hv => loop_step h hv) (main_inv h)

/-! ### Behind the end -/

/-- A finished worker stays finished, and only the deadline of the drain turns 0 into 6. -/
def StatusStep (w v : Worker) : Prop :=
  v.closing = true ∧ (v.exitStatus = w.exitStatus ∨ (w.exitStatus = 0 ∧ v.exitStatus = 6))

theorem status_finish {status : Int} {reason : String} {teardown : Bool}
    (hclosed : w.closing = true) : StatusStep w (w.finish status reason teardown) := by
  have hgo : (w.note (.finishCalled status)).closing = true := hclosed
  unfold Worker.finish
  dsimp only
  rw [if_pos hgo]
  exact ⟨hclosed, Or.inl rfl⟩

theorem status_requestEos : w.requestEos.closing = w.closing ∧
    w.requestEos.exitStatus = w.exitStatus := by
  unfold Worker.requestEos
  split <;> exact ⟨rfl, rfl⟩

theorem status_callback {reply : Reply} {c : Callback} (hclosed : w.closing = true) :
    StatusStep w (w.callback o reply c).1 := by
  have hsame : StatusStep w w := ⟨hclosed, Or.inl rfl⟩
  cases c with
  | start =>
      change StatusStep w (w.startExpired reply).1
      exact status_finish (w := w.forget .start) hclosed
  | run =>
      change StatusStep w (w.runComplete o reply).1
      unfold Worker.runComplete
      dsimp only
      split
      · exact status_finish (w := (w.note _).forget .run) hclosed
      · exact status_finish (w := (w.note _).forget .run) hclosed
  | choose =>
      change StatusStep w (w.choosePeer reply).1
      unfold Worker.choosePeer
      split
      · exact hsame
      split
      · exact status_finish (w := w.forget .choose) hclosed
      · dsimp only
        split
        · exact hsame
        · exact status_finish (w := { w with sink := true, started := true }) hclosed
  | drain =>
      change StatusStep w (w.drainComplete o reply).1
      unfold Worker.drainComplete
      split
      · exact hsame
      split
      · exact hsame
      split
      · exact hsame
      split
      · refine ⟨hclosed, ?_⟩
        change (if w.exitStatus = 0 then 6 else w.exitStatus) = w.exitStatus ∨
          (w.exitStatus = 0 ∧ (if w.exitStatus = 0 then 6 else w.exitStatus) = 6)
        split
        · next hzero => exact Or.inr ⟨hzero, rfl⟩
        · exact Or.inl rfl
      · exact hsame
  | telemetry => exact hsame
  | teardown => exact hsame
  | calibration =>
      obtain ⟨hclosing, hstatus⟩ := @status_requestEos w
      have hrequested : w.requestEos.closing = true := hclosing.trans hclosed
      have requested : ∀ {v : Worker}, StatusStep w.requestEos v → StatusStep w v := by
        intro v hv
        rw [StatusStep, hstatus] at hv
        exact hv
      change StatusStep w (w.calibrationProgress reply).1
      apply requested
      unfold Worker.calibrationProgress
      dsimp only
      split
      · split
        · exact status_finish (w := (w.requestEos.note .cohortComplete).forget .calibration)
            hrequested
        · exact status_finish (w := w.requestEos.forget .calibration) hrequested
      split
      · exact status_finish (w := w.requestEos.forget .calibration) hrequested
      · exact ⟨hrequested, Or.inl rfl⟩

theorem status_step {a : WorkerAction} (hclosed : w.closing = true) (hv : w.step o a = some v) :
    StatusStep w v := by
  unfold Worker.step at hv
  split at hv
  · cases hv
  cases a with
  | signal teardown =>
      obtain rfl := Option.some.inj hv
      exact status_finish hclosed
  | testBus endOfStream teardown =>
      dsimp only at hv
      split at hv
      · obtain rfl := Option.some.inj hv
        exact status_finish hclosed
      · cases hv
  | dispatchFailure teardown =>
      dsimp only at hv
      split at hv
      · cases hv
      · obtain rfl := Option.some.inj hv
        exact status_finish (w := { w with
          input := { w.input with failureSources := w.input.failureSources - 1 } }) hclosed
  | dispatchState state teardown =>
      dsimp only at hv
      split at hv
      · obtain rfl := Option.some.inj hv
        have hno : ∀ p : Prop, ¬ (({ w with states := w.states.erase state } : Worker).closing =
            false ∧ p) := by
          intro p hopen
          have hopen : w.closing = false := hopen.1
          rw [hclosed] at hopen
          cases hopen
        unfold Worker.handleState
        rw [if_neg (hno _), if_neg (hno _)]
        exact ⟨hclosed, Or.inl rfl⟩
      · cases hv
  | dispatch id reply =>
      obtain ⟨s, -, rfl⟩ := Option.map_eq_some_iff.mp hv
      have hcallback := @status_callback o w reply s.callback hclosed
      unfold Worker.dispatch
      split
      · next v heq =>
        rw [heq] at hcallback
        exact hcallback
      · next v delay heq =>
        rw [heq] at hcallback
        exact hcallback
  | stream a =>
      dsimp only at hv
      split at hv
      · obtain ⟨input, -, rfl⟩ := Option.map_eq_some_iff.mp hv
        exact ⟨hclosed, Or.inl rfl⟩
      · cases hv
  | sinkState state =>
      dsimp only at hv
      split at hv
      · obtain rfl := Option.some.inj hv
        exact ⟨hclosed, Or.inl rfl⟩
      · cases hv
  | leave =>
      dsimp only at hv
      split at hv
      · obtain rfl := Option.some.inj hv
        exact ⟨hclosed, Or.inl rfl⟩
      · cases hv
  | _ =>
      obtain rfl := Option.some.inj hv
      exact ⟨hclosed, Or.inl rfl⟩

theorem status_run (hclosed : w.closing = true)
    (run : (workerSystem o).Reaches System.Any w v) : StatusStep w v := by
  refine run.invariant (P := StatusStep w) ?_ ⟨hclosed, Or.inl rfl⟩
  rintro u a v ⟨hu, hsofar⟩ _ hv
  obtain ⟨hclosing, hnext⟩ := status_step hu hv
  refine ⟨hclosing, ?_⟩
  obtain hsame | ⟨hzero, hsix⟩ := hnext
  · rw [hsame]
    exact hsofar
  · obtain hsame | ⟨hstart, hbefore⟩ := hsofar
    · exact Or.inr ⟨hsame.symm.trans hzero, hsix⟩
    · rw [hbefore] at hzero
      cases hzero

/-- What is true of the worker in every state of every run. -/
structure HonestExit (o : Options) (w : Worker) : Prop where
  once : finishes w.log = (calls w.log).getLast?.toList
  status : ∀ first ∈ finishes w.log, StatusOf w first
  changed : w.closing = true → ∀ v, (workerSystem o).Reaches System.Any w v →
    v.exitStatus = w.exitStatus ∨ (w.exitStatus = 0 ∧ v.exitStatus = 6)
  earned : Honest o w.log
  returned : ∀ status ∈ w.returned, finishes w.log ≠ [] ∧ status = w.exitStatus ∧
    (status = 0 → Earned o w.log)
  unarmed : w.closing = true → ∀ s ∈ w.timers.sources, s.callback ∉ terminalTimers

end Runs

/-- A session of five seconds over an adopted connection. -/
def adoptedRaw : Options where
  geometry := smallest
  list := false
  selfTest := false
  continuous := false
  secondsExplicit := true
  adopted := true
  raw := true
  seconds := 5
  connectTimeout := 45
  calibration := none
  seconds_bounds := by decide
  timeout_bounds := by decide
  runtime := rfl
  calibrated := rfl
  exclusive := rfl
  alone := rfl

-- the window elapses, the receiver takes its second, and the drain ends the loop
example : (match main adoptedRaw (fun _ => 0) (.ready true false) with
  | .ok w => ((workerSystem adoptedRaw).exec w [.sinkState .streaming,
      .dispatchState .streaming true, .tick 5000000, .dispatch 3 ⟨0, false, false, true⟩,
      .tick 1000000, .dispatch 4 ⟨0, false, false, false⟩, .dispatch 5 ⟨0, false, false, false⟩,
      .leave]).bind Worker.returned
  | .error _ => none) = some 0 := by decide +kernel

end HccastWired.Wfd
