import HccastWired.Foundation.System
import HccastWired.Telemetry.CountAgreement

/-!
# The time of a sample and the times in it

`pb_wfd_telemetry_emit` reads the clock before it takes the lock, and the probes
read it while they hold the lock. Between the reading of an emit and its lock
any number of calls of other threads can run.
-/

namespace HccastWired.Telemetry

open Foundation

/-- The times of a cohort that are reported once they are known. -/
inductive BoundaryTime
  | streaming
  | started
  | ended
  | closed
deriving DecidableEq, Repr

def BoundaryTime.all : List BoundaryTime := [.streaming, .started, .ended, .closed]

def CohortMetrics.time (c : CohortMetrics) : BoundaryTime → Option UInt64
  | .streaming => c.clock.streamingUs
  | .started => c.clock.startedUs
  | .ended => c.clock.endedUs
  | .closed => if c.closed then some c.closedUs else none

def Cohort.time (c : Cohort) : BoundaryTime → Option Int
  | .streaming => c.streamingUs
  | .started => c.startedUs
  | .ended => c.endedUs
  | .closed => c.closedUs

theorem addCohort_time (m : Metrics) (nowUs : UInt64) (mean : Rat) (b : BoundaryTime) :
    (m.addCohort nowUs mean).time b = (m.cohort.time b).map Metrics.printed := by
  cases b with
  | closed =>
      simp only [Cohort.time, CohortMetrics.time, Metrics.addCohort]
      split <;> rfl
  | _ => rfl

/-- The call stores its reading of the clock as a boundary time. -/
def ProbeCall.records (m : Metrics) (nowUs : UInt64) : ProbeCall → Bool
  | .streaming => m.cohort.enabled && m.cohort.clock.streamingUs.isNone
  | .rawBegin _ => m.cohort.enabled && m.cohort.clock.endedUs.isNone &&
      m.cohort.clock.warm nowUs &&
      m.cohort.clock.startedUs.all fun started =>
        decide (started ≤ nowUs) && decide (m.cohort.clock.durationUs ≤ nowUs - started)
  | .eos kind => m.cohort.enabled && decide (kind = .encoderIn)
  | _ => false

/-- What an emit prints under the lock. -/
structure Sample where
  monotonicUs : UInt64
  cohort : Cohort

/-- The metrics, the last reading of the shared clock, the reading of an emit
that waits for the lock, and what has been printed. -/
structure EmitState where
  metrics : Metrics
  clockUs : UInt64
  reading : Option UInt64
  samples : List Sample

inductive EmitAction
  | probe (nowUs : UInt64) (c : ProbeCall)
  | read (nowUs : UInt64)
  | emit (mean : Rat)

namespace EmitState

/-- The clock does not go backwards, and `gint64` holds its readings. -/
def ticks (s : EmitState) (nowUs : UInt64) : Bool :=
  decide (s.clockUs ≤ nowUs) && decide (nowUs.toNat < 2 ^ 63)

/-- The start of a calibration. -/
def start (warmupMs durationMs : Int) : EmitState :=
  { metrics := Metrics.configure warmupMs durationMs, clockUs := 0, reading := none, samples := [] }

def step (s : EmitState) : EmitAction → Option EmitState
  | .probe nowUs c =>
      if s.ticks nowUs then some { s with metrics := s.metrics.call nowUs c, clockUs := nowUs }
      else none
  | .read nowUs =>
      if s.ticks nowUs && s.reading.isNone then
        some { s with clockUs := nowUs, reading := some nowUs }
      else none
  | .emit mean =>
      s.reading.map fun reading =>
        { s with
          reading := none
          samples := s.samples ++ [⟨reading, s.metrics.addCohort reading mean⟩] }

end EmitState

/-- The worker's threads: one emits, the others call the probes. -/
def emitSystem : System EmitState EmitAction := ⟨EmitState.step⟩

/-- No call stores a time that is later than the reading of an emit that waits. -/
def Punctual (s : EmitState) : EmitAction → Bool
  | .probe nowUs c =>
      !c.records s.metrics nowUs || s.reading.all fun reading => decide (nowUs ≤ reading)
  | _ => true

/-! ## One call -/

namespace CohortMetrics

/-- The cohorts have the same boundary times. -/
structure SameTimes (c d : CohortMetrics) : Prop where
  clock : d.clock = c.clock
  closed : d.closed = c.closed
  closedUs : d.closedUs = c.closedUs

section Times

variable {c d e : CohortMetrics} {kind : ProbeKind} {b : Buffer} {nowUs : UInt64}

theorem SameTimes.refl (c : CohortMetrics) : SameTimes c c := ⟨rfl, rfl, rfl⟩

theorem SameTimes.trans (h : SameTimes c d) (h' : SameTimes d e) : SameTimes c e :=
  ⟨h'.clock.trans h.clock, h'.closed.trans h.closed, h'.closedUs.trans h.closedUs⟩

theorem SameTimes.time (h : SameTimes c d) (b : BoundaryTime) : d.time b = c.time b := by
  cases b <;> simp only [CohortMetrics.time, h.clock, h.closed, h.closedUs]

theorem invalidate_times (c : CohortMetrics) (reason : String) :
    SameTimes c (c.invalidate reason) := by
  unfold invalidate
  split
  · exact ⟨rfl, rfl, rfl⟩
  · exact SameTimes.refl c

theorem buffer_times (c : CohortMetrics) (kind : ProbeKind) (b : Buffer) :
    SameTimes c (c.buffer kind b) := by
  unfold buffer
  split
  · exact SameTimes.refl c
  split
  · exact SameTimes.refl c
  split
  · exact invalidate_times c _
  split
  · exact SameTimes.refl c
  split
  · exact invalidate_times c _
  · cases kind <;> exact ⟨rfl, rfl, rfl⟩

theorem rawResult_times (c : CohortMetrics) (sequence : UInt64) (accepted : Bool) :
    SameTimes c (c.rawResult sequence accepted) := by
  unfold rawResult
  split
  · dsimp only
    split
    · exact ⟨rfl, rfl, rfl⟩
    · have h := invalidate_times { c with
        boundaries := Function.update c.boundaries .appsrc
          ((c.boundaries .appsrc).pushResult ⟨sequence, 0⟩ accepted) } "cohort-push-not-accepted"
      exact ⟨h.clock, h.closed, h.closedUs⟩
  · exact SameTimes.refl c

theorem stamp_times (c : CohortMetrics) (wasStarted inCohort stamped : Bool) :
    SameTimes c (c.stamp wasStarted inCohort stamped) := by
  have h (d : CohortMetrics) : SameTimes d (d.invalidate "cannot-stamp-frame-metadata") :=
    invalidate_times d _
  unfold stamp
  cases stamped with
  | true => cases inCohort <;> exact ⟨rfl, rfl, rfl⟩
  | false => cases inCohort <;> exact ⟨(h _).clock, (h _).closed, (h _).closedUs⟩

/-- Only the end of the stream at the encoder's input closes the cohort. -/
theorem endOfStream_times (h : (c.enabled && decide (kind = .encoderIn)) = false) :
    SameTimes c (c.endOfStream kind nowUs) := by
  unfold endOfStream
  split
  · exact SameTimes.refl c
  next hon =>
    have henabled : c.enabled = true := by simpa using hon
    rw [henabled, Bool.true_and, decide_eq_false_iff_not] at h
    cases kind with
    | encoderIn => exact absurd rfl h
    | _ => exact ⟨rfl, rfl, rfl⟩

theorem endOfStream_closed (nowUs : UInt64)
    (h : (c.enabled && decide (kind = .encoderIn)) = true)
    (b : BoundaryTime) : (c.endOfStream kind nowUs).time b = c.time b ∨
      (c.endOfStream kind nowUs).time b = some nowUs := by
  rw [Bool.and_eq_true, decide_eq_true_eq] at h
  obtain ⟨henabled, rfl⟩ := h
  simp only [endOfStream, henabled, Bool.not_true, Bool.false_eq_true, ↓reduceIte]
  cases b with
  | closed => exact .inr rfl
  | _ => exact .inl rfl

/-- A raw frame moves the clock of the cohort, and nothing else of its times. -/
theorem rawBegin_times (henabled : c.enabled = true) (nowUs : UInt64) (stamped : Bool) :
    SameTimes { c with clock := (c.clock.cohortAdmit nowUs).1 } (c.rawBegin nowUs stamped) := by
  unfold rawBegin
  simp only [henabled, Bool.not_true, Bool.false_eq_true, ↓reduceIte]
  split
  · split <;> exact ⟨rfl, rfl, rfl⟩
  · exact stamp_times _ _ _ _
  · exact stamp_times _ _ _ _

end Times

end CohortMetrics

namespace CohortClock

variable {c : CohortClock} {nowUs : UInt64}

/-- The admission of a frame starts the window, ends it, or leaves the clock. -/
theorem admit_cases (c : CohortClock) (nowUs : UInt64) :
    (c.cohortAdmit nowUs).1 = c ∨
      (c.endedUs = none ∧ c.warm nowUs = true ∧
        (c.startedUs.all fun started =>
          decide (started ≤ nowUs) && decide (c.durationUs ≤ nowUs - started)) = true ∧
        (c.cohortAdmit nowUs).1.streamingUs = c.streamingUs ∧
        (c.cohortAdmit nowUs).1.startedUs = some (c.startedUs.getD nowUs) ∧
        ((c.cohortAdmit nowUs).1.endedUs = none ∨ (c.cohortAdmit nowUs).1.endedUs = some nowUs)) := by
  unfold cohortAdmit
  cases hended : c.endedUs with
  | some ended => exact .inl rfl
  | none =>
      cases hwarm : c.warm nowUs with
      | false => exact .inl rfl
      | true =>
          simp only [Option.isSome_none, Bool.false_eq_true, ↓reduceIte, Bool.not_true]
          split
          next hover =>
            right
            refine ⟨trivial, trivial, ?_, rfl, rfl, .inr rfl⟩
            cases hstarted : c.startedUs with
            | none => rfl
            | some started =>
                rw [hstarted, Option.getD_some] at hover
                simpa using hover
          next =>
            cases hstarted : c.startedUs with
            | none => exact .inr ⟨trivial, trivial, rfl, rfl, rfl, .inl rfl⟩
            | some started =>
                left
                rw [Option.getD_some, ← hstarted, ← hended]

end CohortClock

section Call

variable {m : Metrics} {nowUs : UInt64}

theorem countBuffer_times (m : Metrics) (kind : ProbeKind) (b : Buffer) (nowUs : UInt64) :
    CohortMetrics.SameTimes m.cohort (m.countBuffer kind b nowUs).cohort := by
  have hbuffer := m.cohort.buffer_times kind b
  cases kind with
  | encoderIn =>
      refine hbuffer.trans ?_
      unfold Metrics.countBuffer
      dsimp only
      rw [Metrics.encoderInput_cohort]
      split <;> exact ⟨rfl, rfl, rfl⟩
  | encoderOut =>
      refine hbuffer.trans ?_
      obtain ⟨unknown, frames, unmarked, timing, -, hcohort⟩ :=
        Metrics.encoderOutput_cohort { m with cohort := m.cohort.buffer .encoderOut b } b nowUs
      have hall : (m.countBuffer .encoderOut b nowUs).cohort = _ := hcohort
      rw [hall]
      exact ⟨rfl, rfl, rfl⟩
  | _ => exact hbuffer

/-- Each call leaves a boundary time, or stores its own reading as one. -/
theorem call_time (m : Metrics) (nowUs : UInt64) (c : ProbeCall) (b : BoundaryTime) :
    (m.call nowUs c).cohort.time b = m.cohort.time b ∨
      (c.records m nowUs = true ∧ (m.call nowUs c).cohort.time b = some nowUs) := by
  have hevent : (∃ kind format, c = .segment kind format) ∨ (∃ kind, c = .flushStop kind) ∨
      (∃ kind caps, c = .caps kind caps) ∨ (∃ reason, c = .abort reason) →
      (m.call nowUs c).cohort.time b = m.cohort.time b := by
    intro hcall
    rcases Metrics.event_cohort hcall with heq | ⟨reason, heq⟩
    · rw [heq]
    · rw [heq]
      exact (m.cohort.invalidate_times reason).time b
  cases c with
  | attach kind =>
      left
      rw [Metrics.call, Metrics.attach]
      split <;> rfl
  | encoderReady => exact .inl rfl
  | streaming =>
      simp only [Metrics.call, CohortMetrics.streaming, ProbeCall.records]
      cases henabled : m.cohort.enabled with
      | false => exact .inl rfl
      | true =>
          cases hstreaming : m.cohort.clock.streamingUs with
          | some streaming =>
              left
              cases b with
              | streaming =>
                  simp [CohortMetrics.time, CohortClock.streaming, hstreaming]
              | _ => rfl
          | none =>
              cases b with
              | streaming =>
                  right
                  simp [CohortMetrics.time, CohortClock.streaming, hstreaming]
              | _ => exact .inl rfl
  | rawBegin stamped =>
      cases henabled : m.cohort.enabled with
      | false =>
          left
          simp [Metrics.call, CohortMetrics.rawBegin, henabled]
      | true =>
          have htimes := m.cohort.rawBegin_times henabled nowUs stamped
          have hcall : (m.call nowUs (.rawBegin stamped)).cohort.time b =
              { m.cohort with clock := (m.cohort.clock.cohortAdmit nowUs).1 }.time b := htimes.time b
          rw [hcall]
          rcases m.cohort.clock.admit_cases nowUs with heq | ⟨hended, hwarm, hdue, hstreaming,
            hstarted, hend⟩
          · rw [heq]
            exact .inl rfl
          · have hrecords : (ProbeCall.rawBegin stamped).records m nowUs = true := by
              simp only [ProbeCall.records, henabled, hended, hwarm, hdue, Option.isNone_none,
                Bool.and_self]
            cases b with
            | streaming => exact .inl hstreaming
            | started =>
                cases hold : m.cohort.clock.startedUs with
                | none =>
                    right
                    refine ⟨hrecords, ?_⟩
                    rw [hold] at hstarted
                    exact hstarted
                | some started =>
                    left
                    rw [hold] at hstarted
                    exact hstarted.trans hold.symm
            | ended =>
                rcases hend with hend | hend
                · exact .inl (hend.trans hended.symm)
                · exact .inr ⟨hrecords, hend⟩
            | closed => exact .inl rfl
  | rawResult sequence accepted =>
      exact .inl ((m.cohort.rawResult_times sequence accepted).time b)
  | buffer kind buffer => exact .inl ((countBuffer_times m kind buffer nowUs).time b)
  | eos kind =>
      cases hrecords : m.cohort.enabled && decide (kind = .encoderIn) with
      | false => exact .inl ((CohortMetrics.endOfStream_times hrecords).time b)
      | true =>
          rcases CohortMetrics.endOfStream_closed nowUs hrecords b with h | h
          · exact .inl h
          · exact .inr ⟨hrecords, h⟩
  | segment kind format => exact .inl (hevent (Or.inl ⟨kind, format, rfl⟩))
  | flushStop kind => exact .inl (hevent (Or.inr (Or.inl ⟨kind, rfl⟩)))
  | caps kind caps => exact .inl (hevent (Or.inr (Or.inr (Or.inl ⟨kind, caps, rfl⟩))))
  | abort reason => exact .inl (hevent (Or.inr (Or.inr (Or.inr ⟨reason, rfl⟩))))

end Call

/-! ## Whole runs -/

namespace EmitState

/-- What holds in any run: the readings lie behind the clock, and a time that an
earlier sample did not report is not before that sample. -/
structure Ordered (s : EmitState) : Prop where
  reading : ∀ r, s.reading = some r → r ≤ s.clockUs
  clock : s.clockUs.toNat < 2 ^ 63
  sampled : ∀ p ∈ s.samples, p.monotonicUs ≤ s.clockUs
  recorded : ∀ b t, s.metrics.cohort.time b = some t → t ≤ s.clockUs
  fresh : ∀ p ∈ s.samples, ∀ b t, p.cohort.time b = none →
    s.metrics.cohort.time b = some t → p.monotonicUs ≤ t
  pairs : s.samples.Pairwise fun p q => ∀ b t, p.cohort.time b = none →
    q.cohort.time b = some t → Metrics.printed p.monotonicUs ≤ t

/-- What a punctual run keeps besides. -/
structure Bounded (s : EmitState) : Prop where
  waiting : ∀ r, s.reading = some r → ∀ b t, s.metrics.cohort.time b = some t → t ≤ r
  printed : ∀ p ∈ s.samples, ∀ b t, p.cohort.time b = some t →
    t ≤ Metrics.printed p.monotonicUs

theorem printed_mono {t u : UInt64} (h : t ≤ u) (hu : u.toNat < 2 ^ 63) :
    Metrics.printed t ≤ Metrics.printed u := by
  have hle := UInt64.le_iff_toNat_le.mp h
  rw [printed_eq hu, printed_eq (lt_of_le_of_lt hle hu)]
  exact_mod_cast hle

theorem start_times (warmupMs durationMs : Int) (b : BoundaryTime) :
    (start warmupMs durationMs).metrics.cohort.time b = none := by
  cases b <;> rfl

theorem start_ordered (warmupMs durationMs : Int) : Ordered (start warmupMs durationMs) := by
  constructor
  · intro r hr
    cases hr
  · exact Nat.two_pow_pos 63
  · intro p hp
    cases hp
  · intro b t ht
    rw [start_times] at ht
    cases ht
  · intro p hp
    cases hp
  · exact List.Pairwise.nil

theorem start_bounded (warmupMs durationMs : Int) : Bounded (start warmupMs durationMs) := by
  constructor
  · intro r hr
    cases hr
  · intro p hp
    cases hp

section Step

variable {s t : EmitState} {action : EmitAction}

theorem ticks_iff {nowUs : UInt64} :
    s.ticks nowUs = true ↔ s.clockUs ≤ nowUs ∧ nowUs.toNat < 2 ^ 63 := by
  simp [ticks]

/-- What one action of the threads does. -/
theorem step_cases (h : s.step action = some t) :
    (∃ nowUs c, action = .probe nowUs c ∧ s.clockUs ≤ nowUs ∧ nowUs.toNat < 2 ^ 63 ∧
      t = { s with metrics := s.metrics.call nowUs c, clockUs := nowUs }) ∨
    (∃ nowUs, action = .read nowUs ∧ s.clockUs ≤ nowUs ∧ nowUs.toNat < 2 ^ 63 ∧
      t = { s with clockUs := nowUs, reading := some nowUs }) ∨
    (∃ mean reading, action = .emit mean ∧ s.reading = some reading ∧
      t = { s with
        reading := none
        samples := s.samples ++ [⟨reading, s.metrics.addCohort reading mean⟩] }) := by
  cases action with
  | probe nowUs c =>
      left
      simp only [step] at h
      split at h
      next hticks =>
        obtain ⟨hlater, hbound⟩ := ticks_iff.mp hticks
        exact ⟨nowUs, c, rfl, hlater, hbound, (Option.some.inj h).symm⟩
      next => cases h
  | read nowUs =>
      right; left
      simp only [step] at h
      split at h
      next hticks =>
        obtain ⟨hlater, hbound⟩ := ticks_iff.mp (Bool.and_eq_true_iff.mp hticks).1
        exact ⟨nowUs, rfl, hlater, hbound, (Option.some.inj h).symm⟩
      next => cases h
  | emit mean =>
      right; right
      obtain ⟨reading, hreading, rfl⟩ := Option.map_eq_some_iff.mp h
      exact ⟨mean, reading, rfl, hreading, rfl⟩

theorem step_ordered (hs : Ordered s) (h : s.step action = some t) : Ordered t := by
  rcases step_cases h with ⟨nowUs, c, -, hlater, hbound, rfl⟩ | ⟨nowUs, -, hlater, hbound, rfl⟩ |
    ⟨mean, reading, -, hreading, rfl⟩
  · constructor
    · exact fun r hr => UInt64.le_trans (hs.reading r hr) hlater
    · exact hbound
    · exact fun p hp => UInt64.le_trans (hs.sampled p hp) hlater
    · intro b t ht
      rcases call_time s.metrics nowUs c b with hsame | ⟨-, hstored⟩
      · exact UInt64.le_trans (hs.recorded b t (hsame.symm.trans ht)) hlater
      · cases hstored.symm.trans ht
        exact UInt64.le_refl _
    · intro p hp b t hp' ht
      rcases call_time s.metrics nowUs c b with hsame | ⟨-, hstored⟩
      · exact hs.fresh p hp b t hp' (hsame.symm.trans ht)
      · cases hstored.symm.trans ht
        exact UInt64.le_trans (hs.sampled p hp) hlater
    · exact hs.pairs
  · constructor
    · intro r hr
      cases hr
      exact UInt64.le_refl _
    · exact hbound
    · exact fun p hp => UInt64.le_trans (hs.sampled p hp) hlater
    · exact fun b t ht => UInt64.le_trans (hs.recorded b t ht) hlater
    · exact hs.fresh
    · exact hs.pairs
  · have hnew : ∀ b t, (s.metrics.addCohort reading mean).time b = some t →
        ∃ u, s.metrics.cohort.time b = some u ∧ Metrics.printed u = t := by
      intro b t ht
      rw [addCohort_time] at ht
      exact Option.map_eq_some_iff.mp ht
    constructor
    · intro r hr
      cases hr
    · exact hs.clock
    · intro p hp
      rcases List.mem_append.mp hp with hp | hp
      · exact hs.sampled p hp
      · rw [List.mem_singleton.mp hp]
        exact hs.reading reading hreading
    · exact hs.recorded
    · intro p hp b t hp' ht
      rcases List.mem_append.mp hp with hp | hp
      · exact hs.fresh p hp b t hp' ht
      · -- the new sample reports what the metrics have
        rw [List.mem_singleton.mp hp, addCohort_time, ht] at hp'
        cases hp'
    · apply List.pairwise_append.mpr
      refine ⟨hs.pairs, List.pairwise_singleton _ _, ?_⟩
      intro p hp q hq b t hp' hq'
      rw [List.mem_singleton.mp hq] at hq'
      obtain ⟨u, hu, rfl⟩ := hnew b t hq'
      have hbound := UInt64.le_iff_toNat_le.mp (hs.recorded b u hu)
      exact printed_mono (hs.fresh p hp b u hp' hu) (lt_of_le_of_lt hbound hs.clock)

theorem step_bounded (hs : Ordered s) (hb : Bounded s) (hpunctual : Punctual s action = true)
    (h : s.step action = some t) : Bounded t := by
  rcases step_cases h with ⟨nowUs, c, rfl, hlater, hbound, rfl⟩ | ⟨nowUs, -, hlater, hbound, rfl⟩ |
    ⟨mean, reading, -, hreading, rfl⟩
  · refine ⟨?_, hb.printed⟩
    intro r hr b t ht
    rcases call_time s.metrics nowUs c b with hsame | ⟨hrecords, hstored⟩
    · exact hb.waiting r hr b t (hsame.symm.trans ht)
    · cases hstored.symm.trans ht
      have hr' : s.reading = some r := hr
      simpa [Punctual, hrecords, hr'] using hpunctual
  · refine ⟨?_, hb.printed⟩
    intro r hr b t ht
    cases hr
    exact UInt64.le_trans (hs.recorded b t ht) hlater
  · constructor
    · intro r hr
      cases hr
    · intro p hp b t ht
      rcases List.mem_append.mp hp with hp | hp
      · exact hb.printed p hp b t ht
      · rw [List.mem_singleton.mp hp] at ht ⊢
        rw [addCohort_time] at ht
        obtain ⟨u, hu, rfl⟩ := Option.map_eq_some_iff.mp ht
        have hle := UInt64.le_iff_toNat_le.mp (hs.reading reading hreading)
        exact printed_mono (hb.waiting reading hreading b u hu) (lt_of_le_of_lt hle hs.clock)

end Step

/-- Any run of the threads keeps its samples in order. -/
theorem reaches_ordered {warmupMs durationMs : Int} {s : EmitState}
    {ok : EmitState → EmitAction → Prop}
    (h : emitSystem.Reaches ok (start warmupMs durationMs) s) : Ordered s :=
  System.Reaches.invariant (P := Ordered) (fun _ _ _ hs _ hstep => step_ordered hs hstep) h
    (start_ordered warmupMs durationMs)

theorem reaches_bounded {warmupMs durationMs : Int} {s : EmitState}
    (h : emitSystem.Reaches (fun s action => Punctual s action = true)
      (start warmupMs durationMs) s) : Bounded s := by
  have hboth : Ordered s ∧ Bounded s := by
    refine System.Reaches.invariant (P := fun s => Ordered s ∧ Bounded s) ?_ h
      ⟨start_ordered warmupMs durationMs, start_bounded warmupMs durationMs⟩
    rintro s action t ⟨hs, hb⟩ hpunctual hstep
    exact ⟨step_ordered hs hstep, step_bounded hs hb hpunctual hstep⟩
  exact hboth.2

end EmitState

end HccastWired.Telemetry
