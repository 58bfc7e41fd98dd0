import HccastWired.Telemetry.CountAgreement
import HccastWired.Wfd.RawInput

/-!
# Pushed frames are frames of the pipe

A call leaves the pipe at a frame boundary, except where the input cut the frame short or
the worker is stopping.
-/

namespace HccastWired.Wfd

open Foundation Telemetry

/-- The metrics of a worker, which calibrates or not. -/
def startMetrics : Option (Int × Int) → Metrics
  | none => { Metrics.configure 0 0 with cohort := CohortMetrics.zero }
  | some (warmupMs, durationMs) => Metrics.configure warmupMs durationMs

/-- A worker before the first call. -/
def RawInput.start (byte : Nat → UInt8) (calibration : Option (Int × Int)) : RawInput :=
  { pipe := ⟨byte, 0⟩, metrics := startMetrics calibration }

/-- The calibration window has ended. -/
def RawInput.windowOver (w : RawInput) : Prop :=
  w.metrics.cohort.clock.endedUs.isSome = true ∨ w.calibrationEos ≠ 0

/-! ## What each point of a call stands for -/

/-- The call has read the bytes of its frame from the position on. -/
structure Held (g : Geometry) (w : RawInput) (position : Nat) (frame : List UInt8) : Prop where
  read : position + frame.length = w.pipe.taken
  bytes : frame = slice w.pipe.byte position frame.length
  later : ∀ p ∈ w.pushes, p.position + g.size ≤ position

/-- No frame is open. -/
structure Between (g : Geometry) (w : RawInput) : Prop where
  boundary : g.size ∣ w.pipe.taken ∨ w.stopping = true ∨ w.cut = true
  consumed : ∀ p ∈ w.pushes, p.position + g.size ≤ w.pipe.taken

/-- A frame is being read. After a frame that was cut short nothing more comes. -/
def Filling (g : Geometry) (w : RawInput) (frame : List UInt8) : Prop :=
  frame.length ≤ g.size ∧ ∃ position, Held g w position frame ∧
    (g.size ∣ position ∨ w.stopping = true ∨ (frame = [] ∧ w.cut = true))

/-- A frame is complete. -/
def Whole (g : Geometry) (w : RawInput) (frame : List UInt8) : Prop :=
  frame.length = g.size ∧ ∃ position, Held g w position frame ∧ g.size ∣ position

/-- What holds at each point of a call. -/
def At (g : Geometry) (w : RawInput) : Pc → Prop
  | .looping frame => Filling g w frame
  | .polling frame => Filling g w frame
  | .reading frame => Filling g w frame
  | .unmapped frame => Filling g w frame ∧
      (frame.length = g.size ∨ frame = [] ∨ w.stopping = true ∨ w.cut = true)
  | .beginning frame => Whole g w frame
  | .pushing _ frame => Whole g w frame
  | _ => Between g w

structure Inv (g : Geometry) (w : RawInput) : Prop where
  frames : ∀ p ∈ w.pushes, g.size ∣ p.position ∧ p.bytes = slice w.pipe.byte p.position g.size
  later : w.pushes.Pairwise fun p q => p.position + g.size ≤ q.position
  call : At g w w.pc
  window : w.windowOver → w.pc = .windowEnded ∨ (w.pc = .idle ∧ w.calibrationEos ≠ 0)

/-- Once the input has cut a frame short, no more bytes come out of the pipe before the worker
is stopping. -/
def FinalCut (w : RawInput) (a : Action) : Prop :=
  ∀ amount, a = .read (.bytes amount) → w.cut = true → w.stopping = true

section Steps

variable {g : Geometry} {w v : RawInput} {frame : List UInt8} {position : Nat}

/-- The pipe and the buffers stay, and nothing is forgotten of what went wrong. -/
structure Stays (w v : RawInput) : Prop where
  pipe : v.pipe = w.pipe
  pushes : v.pushes = w.pushes
  stopping : w.stopping = true → v.stopping = true
  cut : w.cut = true → v.cut = true

theorem Held.stays (h : Held g w position frame) (hv : Stays w v) : Held g v position frame where
  read := by rw [hv.pipe]; exact h.read
  bytes := by rw [hv.pipe]; exact h.bytes
  later := by rw [hv.pushes]; exact h.later

theorem Between.stays (h : Between g w) (hv : Stays w v) : Between g v where
  boundary := by
    rw [hv.pipe]
    exact h.boundary.imp id (Or.imp hv.stopping hv.cut)
  consumed := by rw [hv.pushes, hv.pipe]; exact h.consumed

theorem Filling.stays (h : Filling g w frame) (hv : Stays w v) : Filling g v frame := by
  obtain ⟨hlength, position, hheld, hposition⟩ := h
  exact ⟨hlength, position, hheld.stays hv,
    hposition.imp id (Or.imp hv.stopping (And.imp id hv.cut))⟩

theorem Whole.stays (h : Whole g w frame) (hv : Stays w v) : Whole g v frame := by
  obtain ⟨hlength, position, hheld, hposition⟩ := h
  exact ⟨hlength, position, hheld.stays hv, hposition⟩

theorem At.stays {pc : Pc} (h : At g w pc) (hv : Stays w v) : At g v pc := by
  cases pc with
  | looping frame => exact Filling.stays h hv
  | polling frame => exact Filling.stays h hv
  | reading frame => exact Filling.stays h hv
  | unmapped frame =>
      obtain ⟨hfilling, hwhy⟩ := h
      exact ⟨hfilling.stays hv, hwhy.imp id (Or.imp id (Or.imp hv.stopping hv.cut))⟩
  | beginning frame => exact Whole.stays h hv
  | pushing sequence frame => exact Whole.stays h hv
  | _ => exact Between.stays h hv

/-- A step that moves the call on without touching pipe and buffers. -/
theorem Inv.stays (h : Inv g w) (hv : Stays w v) (hcall : At g v v.pc)
    (hwindow : v.windowOver → v.pc = .windowEnded ∨ (v.pc = .idle ∧ v.calibrationEos ≠ 0)) :
    Inv g v where
  frames := by rw [hv.pushes, hv.pipe]; exact h.frames
  later := by rw [hv.pushes]; exact h.later
  call := hcall
  window := hwindow

/-- A frame that is left goes back to where no frame is open. -/
theorem Filling.between (h : Filling g w frame)
    (hwhy : frame.length = g.size ∨ frame = [] ∨ w.stopping = true ∨ w.cut = true) :
    Between g w := by
  obtain ⟨-, position, hheld, hposition⟩ := h
  have hread := hheld.read
  constructor
  · obtain hdvd | hstop | ⟨-, hcut⟩ := hposition
    · obtain hsize | rfl | hfinal := hwhy
      · left
        rw [← hread, hsize]
        exact Dvd.dvd.add hdvd (dvd_refl g.size)
      · left
        rw [← hread]
        simpa using hdvd
      · exact Or.inr hfinal
    · exact Or.inr (Or.inl hstop)
    · exact Or.inr (Or.inr hcut)
  · intro p hp
    have := hheld.later p hp
    omega

theorem Whole.between (h : Whole g w frame) : Between g w := by
  obtain ⟨hlength, position, hheld, hdvd⟩ := h
  have hfilling : Filling g w frame := ⟨Nat.le_of_eq hlength, position, hheld, Or.inl hdvd⟩
  exact hfilling.between (Or.inl hlength)

/-! ## Steps of the call -/

theorem Stays.refl (w : RawInput) : Stays w w :=
  ⟨rfl, rfl, id, id⟩

/-- While a frame is read or pushed, the window is open. -/
theorem Inv.unended (h : Inv g w) (hidle : w.pc ≠ .idle) (hended : w.pc ≠ .windowEnded) :
    ¬ w.windowOver := by
  intro hover
  obtain hpc | ⟨hpc, -⟩ := h.window hover
  · exact hended hpc
  · exact hidle hpc

/-- Inside a call the window stays open as long as neither the clock nor the mark of the end
moves. -/
theorem Inv.inside (h : Inv g w) (hidle : w.pc ≠ .idle) (hended : w.pc ≠ .windowEnded)
    (hv : Stays w v) (hclock : v.metrics.cohort.clock.endedUs = w.metrics.cohort.clock.endedUs)
    (heos : v.calibrationEos = w.calibrationEos) (hcall : At g v v.pc) : Inv g v := by
  apply h.stays hv hcall
  intro hover
  rw [RawInput.windowOver, hclock, heos] at hover
  exact absurd hover (h.unended hidle hended)

theorem fail_stays (w : RawInput) (reason : Nat) : Stays w (w.fail reason) ∧
    (w.fail reason).metrics = w.metrics ∧ (w.fail reason).calibrationEos = w.calibrationEos ∧
    (w.fail reason).pc = w.pc := by
  unfold RawInput.fail
  split
  · exact ⟨⟨rfl, rfl, id, id⟩, rfl, rfl, rfl⟩
  · exact ⟨Stays.refl w, rfl, rfl, rfl⟩

theorem inv_need {allocated : Bool} (h : Inv g w) (hpc : w.pc = .idle) :
    Inv g (w.need allocated) := by
  have hbetween : Between g w := by
    have hcall := h.call
    rw [hpc] at hcall
    exact hcall
  unfold RawInput.need
  split
  · exact h
  · next heos =>
    have hopen : ¬ w.windowOver := by
      intro hover
      obtain hended | ⟨-, hmarked⟩ := h.window hover
      · rw [hpc] at hended
        cases hended
      · exact heos hmarked
    split
    · refine h.stays ⟨rfl, rfl, id, id⟩ ?_ fun hover => absurd hover hopen
      exact ⟨Nat.zero_le _, w.pipe.taken, ⟨rfl, rfl, hbetween.consumed⟩,
        hbetween.boundary.imp id (Or.imp id fun hcut => ⟨rfl, hcut⟩)⟩
    · obtain ⟨hstays, hmetrics, hmark, hsame⟩ := fail_stays w 1
      refine h.stays hstays ?_ ?_
      · rw [hsame, hpc]
        exact hbetween.stays hstays
      · intro hover
        rw [RawInput.windowOver, hmetrics, hmark] at hover
        exact absurd hover hopen

/-- The input leaves the loop: a frame that has begun is cut short. -/
theorem inv_leave (h : Inv g w) (hidle : w.pc ≠ .idle) (hended : w.pc ≠ .windowEnded)
    (hfilling : Filling g w frame) : Inv g (w.leave frame) := by
  have hstays : Stays w (w.leave frame) := by
    refine ⟨rfl, rfl, id, fun hcut => ?_⟩
    change (w.cut || decide (frame ≠ [])) = true
    rw [hcut, Bool.true_or]
  refine h.inside hidle hended hstays rfl rfl ⟨hfilling.stays hstays, ?_⟩
  by_cases hempty : frame = []
  · exact Or.inr (Or.inl hempty)
  · right; right; right
    change (w.cut || decide (frame ≠ [])) = true
    rw [decide_eq_true hempty, Bool.or_true]

theorem inv_afterPoll {result : PollResult} (h : Inv g w) (hpc : w.pc = .polling frame) :
    Inv g (w.afterPoll frame result) := by
  have hidle : w.pc ≠ .idle := by rw [hpc]; exact fun heq => by cases heq
  have hended : w.pc ≠ .windowEnded := by rw [hpc]; exact fun heq => by cases heq
  have hfilling : Filling g w frame := by
    have hcall := h.call
    rw [hpc] at hcall
    exact hcall
  have hon : Inv g { w with pc := .looping frame } :=
    h.inside hidle hended ⟨rfl, rfl, id, id⟩ rfl rfl (hfilling.stays ⟨rfl, rfl, id, id⟩)
  cases result with
  | interrupted => exact hon
  | timeout => exact hon
  | failed => exact inv_leave h hidle hended hfilling
  | ready errorOrInvalid =>
      cases errorOrInvalid with
      | true => exact inv_leave h hidle hended hfilling
      | false =>
          exact h.inside hidle hended ⟨rfl, rfl, id, id⟩ rfl rfl
            (hfilling.stays ⟨rfl, rfl, id, id⟩)

/-- The bytes that were read continue the frame. -/
theorem Filling.read {amount : Nat} (h : Filling g w frame) (hamount : amount ≤ g.size - frame.length)
    (hfinal : w.cut = true → w.stopping = true) (hpipe : v.pipe = (w.pipe.read amount).2) (hpushes : v.pushes = w.pushes)
    (hstopping : v.stopping = w.stopping) : Filling g v (frame ++ (w.pipe.read amount).1) := by
  obtain ⟨hlength, position, hheld, hposition⟩ := h
  have hread := hheld.read
  have htotal : (frame ++ (w.pipe.read amount).1).length = frame.length + amount := by
    rw [List.length_append, Pipe.read, length_slice]
  refine ⟨?_, position, ⟨?_, ?_, ?_⟩, ?_⟩
  · rw [htotal]
    omega
  · rw [htotal, hpipe]
    change position + (frame.length + amount) = w.pipe.taken + amount
    omega
  · rw [htotal, hpipe]
    change frame ++ slice w.pipe.byte w.pipe.taken amount = slice w.pipe.byte position _
    rw [← slice_append, ← hheld.bytes, hread]
  · rw [hpushes]
    exact hheld.later
  · rw [hstopping]
    obtain hdvd | hstop | ⟨-, hcut⟩ := hposition
    · exact Or.inl hdvd
    · exact Or.inr (Or.inl hstop)
    · exact Or.inr (Or.inl (hfinal hcut))

theorem inv_afterRead {result : ReadResult} (h : Inv g w) (hpc : w.pc = .reading frame)
    (hfinal : ∀ amount, result = .bytes amount → w.cut = true → w.stopping = true)
    (hv : w.afterRead g.size frame result = some v) : Inv g v := by
  have hidle : w.pc ≠ .idle := by rw [hpc]; exact fun heq => by cases heq
  have hended : w.pc ≠ .windowEnded := by rw [hpc]; exact fun heq => by cases heq
  have hfilling : Filling g w frame := by
    have hcall := h.call
    rw [hpc] at hcall
    exact hcall
  cases result with
  | again =>
      obtain rfl := Option.some.inj hv
      exact h.inside hidle hended ⟨rfl, rfl, id, id⟩ rfl rfl (hfilling.stays ⟨rfl, rfl, id, id⟩)
  | failed =>
      obtain rfl := Option.some.inj hv
      exact inv_leave h hidle hended hfilling
  | endOfFile =>
      obtain rfl := Option.some.inj hv
      exact inv_leave h hidle hended hfilling
  | bytes amount =>
      simp only [RawInput.afterRead] at hv
      split at hv
      · next hamount =>
        obtain rfl := Option.some.inj hv
        refine ⟨h.frames, h.later, hfilling.read hamount.2 (hfinal amount rfl) rfl rfl rfl, ?_⟩
        exact fun hover => absurd hover (h.unended hidle hended)
      · cases hv

/-- The condition of the loop. -/
theorem inv_test (h : Inv g w) (hpc : w.pc = .looping frame) :
    Inv g (if frame.length < g.size ∧ w.stopping = false then { w with pc := .polling frame }
      else { w with pc := .unmapped frame }) := by
  have hidle : w.pc ≠ .idle := by rw [hpc]; exact fun heq => by cases heq
  have hended : w.pc ≠ .windowEnded := by rw [hpc]; exact fun heq => by cases heq
  have hfilling : Filling g w frame := by
    have hcall := h.call
    rw [hpc] at hcall
    exact hcall
  split
  · exact h.inside hidle hended ⟨rfl, rfl, id, id⟩ rfl rfl (hfilling.stays ⟨rfl, rfl, id, id⟩)
  · next hleft =>
    refine h.inside hidle hended ⟨rfl, rfl, id, id⟩ rfl rfl
      ⟨hfilling.stays ⟨rfl, rfl, id, id⟩, ?_⟩
    by_cases hshort : frame.length < g.size
    · right; right; left
      exact Bool.eq_true_of_not_eq_false fun hgo => hleft ⟨hshort, hgo⟩
    · left
      exact Nat.le_antisymm hfilling.1 (Nat.le_of_not_lt hshort)

/-- Behind the loop a frame goes on only when it is complete. -/
theorem inv_finishLoop (h : Inv g w) (hpc : w.pc = .unmapped frame) :
    Inv g (if frame.length ≠ g.size ∨ w.stopping = true then { w with pc := .cutShort }
      else { w with pc := .beginning frame }) := by
  have hidle : w.pc ≠ .idle := by rw [hpc]; exact fun heq => by cases heq
  have hended : w.pc ≠ .windowEnded := by rw [hpc]; exact fun heq => by cases heq
  obtain ⟨hfilling, hwhy⟩ : At g w (.unmapped frame) := hpc ▸ h.call
  split
  · exact h.inside hidle hended ⟨rfl, rfl, id, id⟩ rfl rfl
      ((hfilling.between hwhy).stays ⟨rfl, rfl, id, id⟩)
  · next hcomplete =>
    obtain ⟨hsize, hgo⟩ := not_or.mp hcomplete
    obtain ⟨-, position, hheld, hposition⟩ := hfilling
    refine h.inside hidle hended ⟨rfl, rfl, id, id⟩ rfl rfl
      ⟨not_not.mp hsize, position, hheld.stays ⟨rfl, rfl, id, id⟩, ?_⟩
    obtain hdvd | hstop | ⟨rfl, -⟩ := hposition
    · exact hdvd
    · exact absurd hstop hgo
    · exact absurd (not_not.mp hsize) (Nat.ne_of_lt g.size_pos)

/-- The call ends between two frames. -/
theorem Inv.back (h : Inv g w) (hidle : w.pc ≠ .idle) (hended : w.pc ≠ .windowEnded)
    (hbetween : Between g w) (hv : Stays w v) (hclock : v.metrics = w.metrics)
    (heos : v.calibrationEos = w.calibrationEos) (hpc : v.pc = .idle) : Inv g v := by
  refine h.inside hidle hended hv (by rw [hclock]) heos ?_
  rw [hpc]
  exact hbetween.stays hv

theorem inv_reportCut (h : Inv g w) (hpc : w.pc = .cutShort) :
    Inv g (if w.stopping then { w with pc := .idle } else { w.fail 1 with pc := .idle }) := by
  have hidle : w.pc ≠ .idle := by rw [hpc]; exact fun heq => by cases heq
  have hended : w.pc ≠ .windowEnded := by rw [hpc]; exact fun heq => by cases heq
  have hbetween : Between g w := by
    have hcall := h.call
    rw [hpc] at hcall
    exact hcall
  split
  · exact h.back hidle hended hbetween ⟨rfl, rfl, id, id⟩ rfl rfl rfl
  · obtain ⟨⟨hpipe, hpushes, hstopping, hcut⟩, hmetrics, heos, -⟩ := fail_stays w 1
    exact h.back hidle hended hbetween ⟨hpipe, hpushes, hstopping, hcut⟩ hmetrics heos rfl

theorem cohortAdmit_endedUs {c : CohortClock} {nowUs : UInt64}
    (h : (c.cohortAdmit nowUs).2 ≠ .eos) : (c.cohortAdmit nowUs).1.endedUs = c.endedUs := by
  unfold CohortClock.cohortAdmit at h ⊢
  dsimp only at h ⊢
  by_cases hended : c.endedUs.isSome = true
  · rw [if_pos hended]
  rw [if_neg hended] at h ⊢
  by_cases hcold : (!c.warm nowUs) = true
  · rw [if_pos hcold]
  rw [if_neg hcold] at h ⊢
  split
  · next hlasted =>
    rw [if_pos hlasted] at h
    exact absurd rfl h
  · rfl

/-- A frame that is let in leaves the window open. -/
theorem admits_clock {c : CohortMetrics} {nowUs : UInt64} {stamped : Bool} {sequence : UInt64}
    (h : admits c nowUs = some sequence) :
    (c.rawBegin nowUs stamped).clock.endedUs = c.clock.endedUs := by
  rw [CohortMetrics.rawBegin_clock]
  split
  · next henabled =>
    apply cohortAdmit_endedUs
    intro heos
    simp [admits, henabled, heos] at h
  · rfl

theorem inv_rawBegin {nowUs : UInt64} {stamped : Bool} (h : Inv g w) (hpc : w.pc = .beginning frame)
    (hv : (match admits w.metrics.cohort nowUs with
      | some sequence => some { w with
          metrics := w.metrics.call nowUs (.rawBegin stamped), pc := .pushing sequence frame }
      | none => some { w with
          metrics := w.metrics.call nowUs (.rawBegin stamped), pc := .windowEnded }) = some v) :
    Inv g v := by
  have hidle : w.pc ≠ .idle := by rw [hpc]; exact fun heq => by cases heq
  have hended : w.pc ≠ .windowEnded := by rw [hpc]; exact fun heq => by cases heq
  have hwhole : Whole g w frame := by
    have hcall := h.call
    rw [hpc] at hcall
    exact hcall
  split at hv
  · next sequence hadmitted =>
    obtain rfl := Option.some.inj hv
    exact h.inside hidle hended ⟨rfl, rfl, id, id⟩ (admits_clock hadmitted) rfl
      (hwhole.stays ⟨rfl, rfl, id, id⟩)
  · obtain rfl := Option.some.inj hv
    exact h.stays ⟨rfl, rfl, id, id⟩ (hwhole.between.stays ⟨rfl, rfl, id, id⟩) fun _ => Or.inl rfl

theorem inv_endWindow (h : Inv g w) (hpc : w.pc = .windowEnded) :
    Inv g { w with calibrationEos := 1, pc := .idle } := by
  have hbetween : Between g w := by
    have hcall := h.call
    rw [hpc] at hcall
    exact hcall
  exact h.stays ⟨rfl, rfl, id, id⟩ (hbetween.stays ⟨rfl, rfl, id, id⟩)
    fun _ => Or.inr ⟨rfl, Nat.one_ne_zero⟩

/-- The complete frame goes into `appsrc`. -/
theorem inv_push {sequence : UInt64} {flow : Flow} (h : Inv g w)
    (hpc : w.pc = .pushing sequence frame) : Inv g { w with
      pushes := w.pushes ++ [⟨w.pipe.taken - frame.length, frame⟩]
      pc := .pushed sequence flow } := by
  have hidle : w.pc ≠ .idle := by rw [hpc]; exact fun heq => by cases heq
  have hended : w.pc ≠ .windowEnded := by rw [hpc]; exact fun heq => by cases heq
  have hwhole : Whole g w frame := by
    have hcall := h.call
    rw [hpc] at hcall
    exact hcall
  have hbetween := hwhole.between
  obtain ⟨hsize, position, hheld, hdvd⟩ := hwhole
  have hread := hheld.read
  have hposition : w.pipe.taken - frame.length = position := by omega
  rw [hposition]
  constructor
  · intro p hp
    obtain hp | hp := List.mem_append.mp hp
    · exact h.frames p hp
    · obtain rfl := List.mem_singleton.mp hp
      refine ⟨hdvd, ?_⟩
      rw [← hsize]
      exact hheld.bytes
  · rw [List.pairwise_append]
    refine ⟨h.later, List.pairwise_singleton _ _, ?_⟩
    intro p hp q hq
    obtain rfl := List.mem_singleton.mp hq
    exact hheld.later p hp
  · refine ⟨hbetween.boundary, ?_⟩
    intro p hp
    obtain hp | hp := List.mem_append.mp hp
    · exact hbetween.consumed p hp
    · obtain rfl := List.mem_singleton.mp hp
      change position + g.size ≤ w.pipe.taken
      omega
  · intro hover
    exact absurd hover (h.unended hidle hended)

theorem inv_rawResult {sequence : UInt64} {flow : Flow} (h : Inv g w)
    (hpc : w.pc = .pushed sequence flow) : Inv g { w with
      metrics := w.metrics.call 0 (.rawResult sequence (decide (flow = .ok)))
      pc := .answered flow } := by
  have hidle : w.pc ≠ .idle := by rw [hpc]; exact fun heq => by cases heq
  have hended : w.pc ≠ .windowEnded := by rw [hpc]; exact fun heq => by cases heq
  have hbetween : Between g w := by
    have hcall := h.call
    rw [hpc] at hcall
    exact hcall
  refine h.inside hidle hended ⟨rfl, rfl, id, id⟩ ?_ rfl (hbetween.stays ⟨rfl, rfl, id, id⟩)
  change (w.metrics.call 0 (.rawResult sequence _)).cohort.clock.endedUs = _
  rw [(Metrics.sameRange_call (fun heq => by cases heq) fun stamped heq => by cases heq).clock]

theorem inv_report {flow : Flow} (h : Inv g w) (hpc : w.pc = .answered flow) :
    Inv g (w.answer flow) := by
  have hidle : w.pc ≠ .idle := by rw [hpc]; exact fun heq => by cases heq
  have hended : w.pc ≠ .windowEnded := by rw [hpc]; exact fun heq => by cases heq
  have hbetween : Between g w := by
    have hcall := h.call
    rw [hpc] at hcall
    exact hcall
  cases flow with
  | ok => exact h.back hidle hended hbetween ⟨rfl, rfl, id, id⟩ rfl rfl rfl
  | flushing => exact h.back hidle hended hbetween ⟨rfl, rfl, id, id⟩ rfl rfl rfl
  | other =>
      unfold RawInput.answer
      dsimp only
      split
      · exact h.back hidle hended hbetween ⟨rfl, rfl, id, id⟩ rfl rfl rfl
      · obtain ⟨⟨hpipe, hpushes, hstopping, hcut⟩, hmetrics, heos, -⟩ := fail_stays w 2
        exact h.back hidle hended hbetween ⟨hpipe, hpushes, hstopping, hcut⟩ hmetrics heos rfl

/-! ## Steps beside the call -/

/-- What the other threads do leaves the call where it is. -/
theorem Inv.aside (h : Inv g w) (hv : Stays w v) (hpc : v.pc = w.pc)
    (hclock : v.metrics.cohort.clock.endedUs = w.metrics.cohort.clock.endedUs)
    (heos : v.calibrationEos ≠ 0 ↔ w.calibrationEos ≠ 0) : Inv g v := by
  refine h.stays hv ?_ ?_
  · rw [hpc]
    exact h.call.stays hv
  · intro hover
    rw [RawInput.windowOver, hclock, heos] at hover
    rw [hpc, heos]
    exact h.window hover

theorem elsewhere_clock {m : Metrics} {nowUs : UInt64} {call : ProbeCall}
    (h : elsewhere call = true) :
    (m.call nowUs call).cohort.clock.endedUs = m.cohort.clock.endedUs := by
  by_cases hstreaming : call = .streaming
  · subst hstreaming
    rw [Metrics.call, CohortMetrics.streaming]
    dsimp only
    split <;> rfl
  · have hbegin : ∀ stamped, call ≠ .rawBegin stamped := by
      intro stamped heq
      rw [heq] at h
      cases h
    rw [(Metrics.sameRange_call hstreaming hbegin).clock]

/-- Every step keeps the invariant. -/
theorem step_inv {a : Action} (h : Inv g w) (hfinal : FinalCut w a)
    (hv : w.step g a = some v) : Inv g v := by
  cases a with
  | need allocated =>
      simp only [RawInput.step] at hv
      split at hv
      · next hpc =>
        obtain rfl := Option.some.inj hv
        exact inv_need h hpc
      · cases hv
  | test =>
      simp only [RawInput.step] at hv
      split at hv
      · next frame hpc =>
        have hnext := inv_test h hpc
        split at hv
        · next hgo =>
          obtain rfl := Option.some.inj hv
          rwa [if_pos hgo] at hnext
        · next hleft =>
          obtain rfl := Option.some.inj hv
          rwa [if_neg hleft] at hnext
      · cases hv
  | poll result =>
      simp only [RawInput.step] at hv
      split at hv
      · next frame hpc =>
        obtain rfl := Option.some.inj hv
        exact inv_afterPoll h hpc
      · cases hv
  | read result =>
      simp only [RawInput.step] at hv
      split at hv
      · next frame hpc =>
        refine inv_afterRead h hpc (fun amount heq => ?_) hv
        exact hfinal amount (congrArg Action.read heq)
      · cases hv
  | finishLoop =>
      simp only [RawInput.step] at hv
      split at hv
      · next frame hpc =>
        have hnext := inv_finishLoop h hpc
        split at hv
        · next hshort =>
          obtain rfl := Option.some.inj hv
          rwa [if_pos hshort] at hnext
        · next hcomplete =>
          obtain rfl := Option.some.inj hv
          rwa [if_neg hcomplete] at hnext
      · cases hv
  | reportCut =>
      simp only [RawInput.step] at hv
      split at hv
      · next hpc =>
        have hnext := inv_reportCut h hpc
        split at hv
        · next hstop =>
          obtain rfl := Option.some.inj hv
          rwa [if_pos hstop] at hnext
        · next hgo =>
          obtain rfl := Option.some.inj hv
          rwa [if_neg hgo] at hnext
      · cases hv
  | rawBegin nowUs stamped =>
      simp only [RawInput.step] at hv
      split at hv
      · next frame hpc => exact inv_rawBegin h hpc hv
      · cases hv
  | endWindow =>
      simp only [RawInput.step] at hv
      split at hv
      · next hpc =>
        obtain rfl := Option.some.inj hv
        exact inv_endWindow h hpc
      · cases hv
  | push flow =>
      simp only [RawInput.step] at hv
      split at hv
      · next sequence frame hpc =>
        obtain rfl := Option.some.inj hv
        exact inv_push h hpc
      · cases hv
  | rawResult =>
      simp only [RawInput.step] at hv
      split at hv
      · next sequence flow hpc =>
        obtain rfl := Option.some.inj hv
        exact inv_rawResult h hpc
      · cases hv
  | report =>
      simp only [RawInput.step] at hv
      split at hv
      · next flow hpc =>
        obtain rfl := Option.some.inj hv
        exact inv_report h hpc
      · cases hv
  | inputFailure =>
      simp only [RawInput.step] at hv
      split at hv
      · cases hv
      · obtain rfl := Option.some.inj hv
        exact h.aside ⟨rfl, rfl, fun _ => rfl, id⟩ rfl rfl Iff.rfl
  | stop =>
      obtain rfl := Option.some.inj hv
      exact h.aside ⟨rfl, rfl, fun _ => rfl, id⟩ rfl rfl Iff.rfl
  | calibrationProgress =>
      obtain rfl := Option.some.inj hv
      split
      · next hmark =>
        refine h.aside ⟨rfl, rfl, id, id⟩ rfl rfl ?_
        simp [hmark]
      · exact h
  | probe nowUs call =>
      simp only [RawInput.step] at hv
      split at hv
      · next hcall =>
        obtain rfl := Option.some.inj hv
        exact h.aside ⟨rfl, rfl, id, id⟩ rfl (elsewhere_clock hcall) Iff.rfl
      · cases hv

end Steps

/-! ## Whole runs -/

section Runs

variable {g : Geometry} {w v : RawInput} {byte : Nat → UInt8} {calibration : Option (Int × Int)}

theorem start_inv : Inv g (RawInput.start byte calibration) := by
  constructor
  · intro p hp
    cases hp
  · exact List.Pairwise.nil
  · refine ⟨Or.inl (dvd_zero g.size), ?_⟩
    intro p hp
    cases hp
  · intro hover
    obtain hended | heos := hover
    · cases calibration <;> cases hended
    · exact absurd rfl heos

theorem reaches_inv (run : (rawSystem g).Reaches FinalCut (RawInput.start byte calibration) w) :
    Inv g w :=
  run.invariant (P := Inv g) (fun _ _ _ h hfinal hv => step_inv h hfinal hv) start_inv

/-- The metrics are the ones before, up to a call. -/
def Measured (w v : RawInput) : Prop :=
  v.metrics = w.metrics ∨ ∃ nowUs call, v.metrics = w.metrics.call nowUs call

theorem fail_frame (w : RawInput) (reason : Nat) :
    (w.fail reason).pipe = w.pipe ∧ (w.fail reason).metrics = w.metrics := by
  obtain ⟨hstays, hmetrics, -⟩ := fail_stays w reason
  exact ⟨hstays.pipe, hmetrics⟩

/-- Only a call that is reading takes bytes out of the pipe, and only calls on the metrics
change them. -/
theorem step_frame {a : Action} (hv : w.step g a = some v) :
    (v.pipe = w.pipe ∨
      ∃ frame amount, w.pc = .reading frame ∧ v.pipe = (w.pipe.read amount).2) ∧
    Measured w v := by
  cases a with
  | read result =>
      simp only [RawInput.step] at hv
      split at hv
      · next frame hpc =>
        cases result with
        | bytes amount =>
            simp only [RawInput.afterRead] at hv
            split at hv
            · obtain rfl := Option.some.inj hv
              exact ⟨Or.inr ⟨frame, amount, hpc, rfl⟩, Or.inl rfl⟩
            · cases hv
        | _ =>
            obtain rfl := Option.some.inj hv
            exact ⟨Or.inl rfl, Or.inl rfl⟩
      · cases hv
  | need allocated =>
      simp only [RawInput.step] at hv
      split at hv
      · obtain rfl := Option.some.inj hv
        unfold RawInput.need
        split
        · exact ⟨Or.inl rfl, Or.inl rfl⟩
        split
        · exact ⟨Or.inl rfl, Or.inl rfl⟩
        · obtain ⟨hpipe, hmetrics⟩ := fail_frame w 1
          exact ⟨Or.inl hpipe, Or.inl hmetrics⟩
      · cases hv
  | poll result =>
      simp only [RawInput.step] at hv
      split at hv
      · next frame hpc =>
        obtain rfl := Option.some.inj hv
        cases result with
        | ready errorOrInvalid => cases errorOrInvalid <;> exact ⟨Or.inl rfl, Or.inl rfl⟩
        | _ => exact ⟨Or.inl rfl, Or.inl rfl⟩
      · cases hv
  | reportCut =>
      simp only [RawInput.step] at hv
      split at hv
      · split at hv
        · obtain rfl := Option.some.inj hv
          exact ⟨Or.inl rfl, Or.inl rfl⟩
        · obtain rfl := Option.some.inj hv
          obtain ⟨hpipe, hmetrics⟩ := fail_frame w 1
          exact ⟨Or.inl hpipe, Or.inl hmetrics⟩
      · cases hv
  | rawBegin nowUs stamped =>
      simp only [RawInput.step] at hv
      split at hv
      · split at hv
        · obtain rfl := Option.some.inj hv
          exact ⟨Or.inl rfl, Or.inr ⟨nowUs, .rawBegin stamped, rfl⟩⟩
        · obtain rfl := Option.some.inj hv
          exact ⟨Or.inl rfl, Or.inr ⟨nowUs, .rawBegin stamped, rfl⟩⟩
      · cases hv
  | rawResult =>
      simp only [RawInput.step] at hv
      split at hv
      · next sequence flow hpc =>
        obtain rfl := Option.some.inj hv
        exact ⟨Or.inl rfl, Or.inr ⟨0, .rawResult sequence (decide (flow = .ok)), rfl⟩⟩
      · cases hv
  | report =>
      simp only [RawInput.step] at hv
      split at hv
      · next flow hpc =>
        obtain rfl := Option.some.inj hv
        cases flow with
        | other =>
            unfold RawInput.answer
            dsimp only
            split
            · exact ⟨Or.inl rfl, Or.inl rfl⟩
            · obtain ⟨hpipe, hmetrics⟩ := fail_frame w 2
              exact ⟨Or.inl hpipe, Or.inl hmetrics⟩
        | _ => exact ⟨Or.inl rfl, Or.inl rfl⟩
      · cases hv
  | stop =>
      obtain rfl := Option.some.inj hv
      exact ⟨Or.inl rfl, Or.inl rfl⟩
  | calibrationProgress =>
      obtain rfl := Option.some.inj hv
      split <;> exact ⟨Or.inl rfl, Or.inl rfl⟩
  | probe nowUs call =>
      simp only [RawInput.step] at hv
      split at hv
      · obtain rfl := Option.some.inj hv
        exact ⟨Or.inl rfl, Or.inr ⟨nowUs, call, rfl⟩⟩
      · cases hv
  | _ =>
      simp only [RawInput.step] at hv
      repeat' split at hv
      all_goals first | cases hv; done | (obtain rfl := Option.some.inj hv
                                          exact ⟨Or.inl rfl, Or.inl rfl⟩)

/-- The bytes of the pipe stay the ones that they were. -/
theorem reaches_byte
    (run : (rawSystem g).Reaches FinalCut (RawInput.start byte calibration) w) :
    w.pipe.byte = byte := by
  refine run.invariant (P := fun w => w.pipe.byte = byte) ?_ rfl
  intro w a v hbyte _ hv
  obtain hsame | ⟨frame, amount, -, hread⟩ := (step_frame hv).1
  · rw [hsame]
    exact hbyte
  · rw [hread]
    exact hbyte

/-- Behind the end of the window a step takes no byte. -/
theorem step_over {a : Action} (h : Inv g w) (hover : w.windowOver) (hv : w.step g a = some v) :
    v.windowOver ∧ v.pipe = w.pipe := by
  have hpc := h.window hover
  have away : ∀ {pc}, w.pc = pc → pc ≠ .windowEnded → pc ≠ .idle → False := by
    intro pc hat hended hidle
    rw [hat] at hpc
    obtain hpc | ⟨hpc, -⟩ := hpc
    · exact hended hpc
    · exact hidle hpc
  constructor
  · cases a with
    | need allocated =>
        simp only [RawInput.step] at hv
        split at hv
        · next hidle =>
          obtain rfl := Option.some.inj hv
          obtain hended | ⟨-, hmarked⟩ := hpc
          · rw [hidle] at hended
            cases hended
          · rw [RawInput.need, if_pos hmarked]
            exact hover
        · cases hv
    | endWindow =>
        simp only [RawInput.step] at hv
        split at hv
        · obtain rfl := Option.some.inj hv
          exact Or.inr Nat.one_ne_zero
        · cases hv
    | inputFailure =>
        simp only [RawInput.step] at hv
        split at hv
        · cases hv
        · obtain rfl := Option.some.inj hv
          exact hover
    | stop =>
        obtain rfl := Option.some.inj hv
        exact hover
    | calibrationProgress =>
        obtain rfl := Option.some.inj hv
        split
        · exact Or.inr (Nat.succ_ne_zero 1)
        · exact hover
    | probe nowUs call =>
        simp only [RawInput.step] at hv
        split at hv
        · next hcall =>
          obtain rfl := Option.some.inj hv
          rw [RawInput.windowOver, elsewhere_clock hcall]
          exact hover
        · cases hv
    | _ =>
        simp only [RawInput.step] at hv
        split at hv
        · next hat => exact (away hat (fun heq => by cases heq) fun heq => by cases heq).elim
        · cases hv
  · obtain hsame | ⟨frame, amount, hreading, -⟩ := (step_frame hv).1
    · exact hsame
    · rw [hreading] at hpc
      obtain hended | ⟨hidle, -⟩ := hpc
      · cases hended
      · cases hidle

/-- Behind the end of the window no byte is taken any more. -/
theorem reaches_over (hw : (rawSystem g).Reaches FinalCut (RawInput.start byte calibration) w)
    (hover : w.windowOver) (run : (rawSystem g).Reaches FinalCut w v) :
    v.windowOver ∧ v.pipe = w.pipe := by
  have hkept : Inv g v ∧ v.windowOver ∧ v.pipe = w.pipe := by
    refine run.invariant (P := fun v => Inv g v ∧ v.windowOver ∧ v.pipe = w.pipe) ?_
      ⟨reaches_inv hw, hover, rfl⟩
    rintro u a v ⟨hinv, hu, hpipe⟩ hfinal hv
    obtain ⟨hnext, hsame⟩ := step_over hinv hu hv
    exact ⟨step_inv hinv hfinal hv, hnext, hsame.trans hpipe⟩
  exact hkept.2

/-- In every run in which the input gives nothing more once it has cut a frame short, each
pushed buffer is a complete frame of the pipe at a multiple of the frame size and behind the
one before it; between two calls the pipe stands at a frame boundary unless nothing more will
be pushed; and behind the end of the calibration window no byte is read. -/
theorem raw_frames_aligned
    (run : (rawSystem g).Reaches FinalCut (RawInput.start byte calibration) w) :
    (∀ p ∈ w.pushes, g.size ∣ p.position ∧ p.bytes = slice byte p.position g.size) ∧
    (w.pushes.Pairwise fun p q => p.position + g.size ≤ q.position) ∧
    (w.pc = .idle → g.size ∣ w.pipe.taken ∨ w.stopping = true ∨ w.cut = true) ∧
    (w.windowOver → ∀ v, (rawSystem g).Reaches FinalCut w v → v.pipe = w.pipe) := by
  have h := reaches_inv run
  refine ⟨?_, h.later, ?_, ?_⟩
  · rw [← reaches_byte run]
    exact h.frames
  · intro hidle
    have hcall := h.call
    rw [hidle] at hcall
    exact Between.boundary hcall
  · exact fun hover v hv => (reaches_over run hover hv).2

end Runs

/-- Whether bytes may come out of the pipe. -/
def finalCut (w : RawInput) : Action → Bool
  | .read (.bytes _) => !w.cut || w.stopping
  | _ => true

theorem reaches_of_finalCut {g : Geometry} {w v : RawInput} {acts : List Action}
    (h : ((rawSystem g).guard finalCut).exec w acts = some v) :
    (rawSystem g).Reaches FinalCut w v := by
  refine (System.reaches_of_guard h).weaken ?_
  intro w a hok amount heq hcut
  subst heq
  have hgo : (!w.cut || w.stopping) = true := hok
  rw [hcut] at hgo
  simpa using hgo

/-- The smallest frame that `main` lets through. -/
def smallest : Geometry := ⟨16, 16, by decide, by decide⟩

/-- Reading of the frame in one piece, up to its push. -/
def readWhole (flow : Flow) : List Action :=
  [.need true, .test, .poll (.ready false), .read (.bytes 1024), .test, .finishLoop,
    .rawBegin 0 true, .push flow, .rawResult, .report]

/-- The first frame is read while `appsrc` is flushing; the second one in two pieces with an
interruption between them. -/
def flushedThenRead : List Action :=
  readWhole .flushing ++
    [.need true, .test, .poll (.ready false), .read (.bytes 1000), .test, .poll .interrupted, .test,
      .poll .timeout, .test, .poll (.ready false), .read (.bytes 24), .test, .finishLoop,
      .rawBegin 0 true, .push .ok, .rawResult, .report]

theorem raw_frames_aligned_flushed : ∃ w, ((rawSystem smallest).guard finalCut).exec
      (RawInput.start (fun i => UInt8.ofNat i) none) flushedThenRead = some w ∧
    w.pushes.map Pushed.position = [0, 1024] ∧ w.rawPushed = 1 ∧
    ∀ p ∈ w.pushes, p.bytes = slice (fun i => UInt8.ofNat i) p.position 1024 := by
  have hexec : (((rawSystem smallest).guard finalCut).exec
      (RawInput.start (fun i => UInt8.ofNat i) none) flushedThenRead).any (fun w =>
        w.pushes.map Pushed.position = [0, 1024] ∧ w.rawPushed = 1) = true := by decide +kernel
  obtain ⟨w, hw, hdone⟩ := (Option.any_eq_true ..).mp hexec
  obtain ⟨hpositions, hcount⟩ := of_decide_eq_true hdone
  exact ⟨w, hw, hpositions, hcount,
    fun p hp => ((raw_frames_aligned (reaches_of_finalCut hw)).1 p hp).2⟩

/-- A frame is cut short by an error of `poll`, and `appsrc` asks again before the main loop
has seen the failure. -/
def askedAgain : List Action :=
  [.need true, .test, .poll (.ready false), .read (.bytes 100), .test, .poll .failed, .finishLoop,
    .reportCut] ++ readWhole .ok

/-- The failure of the input is not tested when the next call begins. -/
theorem cut_frame_misaligned : ¬ ∀ (g : Geometry) (byte : Nat → UInt8)
    (calibration : Option (Int × Int)) (w : RawInput),
    (rawSystem g).Reaches System.Any (RawInput.start byte calibration) w →
      ∀ p ∈ w.pushes, g.size ∣ p.position := by
  intro hall
  have hexec : ((rawSystem smallest).exec (RawInput.start (fun i => UInt8.ofNat i) none)
      askedAgain).any (fun w => w.pushes.map Pushed.position = [100]) = true := by decide +kernel
  obtain ⟨w, hw, hpositions⟩ := (Option.any_eq_true ..).mp hexec
  obtain ⟨p, hp, hposition⟩ := List.map_eq_singleton_iff.mp (of_decide_eq_true hpositions)
  have hdvd := hall smallest _ none w (System.reaches_of_exec hw) p (by rw [hp]; simp)
  rw [hposition] at hdvd
  revert hdvd
  decide

end HccastWired.Wfd
