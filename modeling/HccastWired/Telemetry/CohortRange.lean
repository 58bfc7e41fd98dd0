import HccastWired.Telemetry.CohortWindow

/-!
# The sequence range of the measured window

The clock decides which frames belong to the cohort, and the numbering records
where the window begins and ends. The two are set by one call each, and nothing
else moves them.
-/

namespace HccastWired.Telemetry

namespace CohortMetrics

/-- The two agree on the window and on the numbering. -/
structure SameRange (c d : CohortMetrics) : Prop where
  enabled : c.enabled = d.enabled
  clock : c.clock = d.clock
  next : c.nextSequence = d.nextSequence
  first : c.firstSequence = d.firstSequence
  last : c.endSequence = d.endSequence

section Frame

variable {c d e : CohortMetrics} {kind : ProbeKind} {nowUs : UInt64}

theorem SameRange.refl (c : CohortMetrics) : SameRange c c := ⟨rfl, rfl, rfl, rfl, rfl⟩

theorem SameRange.trans (h : SameRange c d) (h' : SameRange d e) : SameRange c e :=
  ⟨h.enabled.trans h'.enabled, h.clock.trans h'.clock, h.next.trans h'.next,
    h.first.trans h'.first, h.last.trans h'.last⟩

theorem sameRange_invalidate (reason : String) : SameRange (c.invalidate reason) c := by
  unfold invalidate
  split
  · exact ⟨rfl, rfl, rfl, rfl, rfl⟩
  · exact SameRange.refl c

theorem sameRange_move (key : FrameKey) : SameRange (c.move kind key) c := by
  cases kind <;> exact ⟨rfl, rfl, rfl, rfl, rfl⟩

theorem sameRange_buffer (b : Buffer) : SameRange (c.buffer kind b) c := by
  unfold buffer
  split
  · exact SameRange.refl c
  split
  · exact SameRange.refl c
  split
  · exact sameRange_invalidate _
  split
  · exact SameRange.refl c
  split
  · exact sameRange_invalidate _
  · exact sameRange_move _

theorem sameRange_endOfStream : SameRange (c.endOfStream kind nowUs) c := by
  unfold endOfStream
  split
  · exact SameRange.refl c
  · cases kind <;> exact ⟨rfl, rfl, rfl, rfl, rfl⟩

theorem sameRange_rawResult (sequence : UInt64) (accepted : Bool) :
    SameRange (c.rawResult sequence accepted) c := by
  unfold rawResult
  split
  · cases accepted with
    | true => exact ⟨rfl, rfl, rfl, rfl, rfl⟩
    | false => exact (sameRange_invalidate _).trans ⟨rfl, rfl, rfl, rfl, rfl⟩
  · exact SameRange.refl c

/-- A stamped frame takes the next number, and the first one of the window is
remembered. -/
theorem sameRange_stamp (wasStarted inCohort stamped : Bool) :
    SameRange (c.stamp wasStarted inCohort stamped)
      { c with
        nextSequence := c.nextSequence + 1
        firstSequence :=
          if !wasStarted && c.clock.startedUs.isSome then c.nextSequence else c.firstSequence } := by
  cases stamped with
  | true => cases inCohort <;> exact ⟨rfl, rfl, rfl, rfl, rfl⟩
  | false =>
      cases inCohort with
      | true =>
          have hentered (d : CohortMetrics) (key : FrameKey) :
              SameRange (d.enterBoundary .appsrc key true) d := ⟨rfl, rfl, rfl, rfl, rfl⟩
          exact (hentered _ _).trans (sameRange_invalidate "cannot-stamp-frame-metadata")
      | false => exact sameRange_invalidate "cannot-stamp-frame-metadata"

end Frame

end CohortMetrics

namespace Metrics

open CohortMetrics

variable {m : Metrics} {kind : ProbeKind} {nowUs : UInt64} {c : ProbeCall}

theorem sameRange_encoderInput (b : Buffer) :
    SameRange (m.encoderInput b nowUs).cohort m.cohort := by
  unfold encoderInput
  dsimp only
  split
  · exact ⟨rfl, rfl, rfl, rfl, rfl⟩
  · exact SameRange.refl _

/-- An output of the encoder leaves the ledgers alone. -/
theorem encoderOutput_cohort (m : Metrics) (b : Buffer) (nowUs : UInt64) :
    ∃ unknown frames unmarked timing,
      timing.entered = m.cohort.encoderTiming.entered ∧
      (m.encoderOutput b nowUs).cohort = { m.cohort with
        encoderOutputKeyUnknown := unknown
        encodedFrames := frames
        unknownEncoded := unmarked
        encoderTiming := timing } := by
  unfold encoderOutput
  dsimp only
  split
  · exact ⟨_, _, _, _, rfl, rfl⟩
  split
  · exact ⟨_, _, _, _, rfl, rfl⟩
  split
  · exact ⟨_, _, _, _, rfl, rfl⟩
  · exact ⟨_, _, _, _, PbTiming.exit_entered _ _ _, rfl⟩

theorem sameRange_countBuffer (b : Buffer) :
    SameRange (m.countBuffer kind b nowUs).cohort m.cohort := by
  have hcohort : SameRange (m.countBuffer kind b nowUs).cohort (m.cohort.buffer kind b) := by
    cases kind with
    | encoderIn => exact sameRange_encoderInput b
    | encoderOut =>
        obtain ⟨unknown, frames, unmarked, timing, -, hcohort⟩ :=
          encoderOutput_cohort { m with cohort := m.cohort.buffer .encoderOut b } b nowUs
        have hall : (m.countBuffer .encoderOut b nowUs).cohort = _ := hcohort
        rw [hall]
        exact ⟨rfl, rfl, rfl, rfl, rfl⟩
    | _ => exact SameRange.refl _
  exact hcohort.trans (sameRange_buffer b)

/-- The events that only invalidate the cohort or leave it. -/
theorem discontinuity_cohort {kind : ProbeKind} : (m.discontinuity kind).cohort = m.cohort := by
  unfold discontinuity
  split <;> rfl

theorem event_cohort {c : ProbeCall}
    (hcall : (∃ kind format, c = .segment kind format) ∨ (∃ kind, c = .flushStop kind) ∨
      (∃ kind caps, c = .caps kind caps) ∨ ∃ reason, c = .abort reason) :
    (m.call nowUs c).cohort = m.cohort ∨
      ∃ reason, (m.call nowUs c).cohort = m.cohort.invalidate reason := by
  rcases hcall with ⟨kind, format, rfl⟩ | ⟨kind, rfl⟩ | ⟨kind, caps, rfl⟩ | ⟨reason, rfl⟩
  · rw [call, segment, discontinuity_cohort]
    split
    · exact Or.inr ⟨_, rfl⟩
    · exact Or.inl rfl
  · rw [call, flushStop, discontinuity_cohort]
    split
    · exact Or.inr ⟨_, rfl⟩
    · exact Or.inl rfl
  · rw [call, setCaps]
    dsimp only
    split
    · exact Or.inr ⟨_, rfl⟩
    · exact Or.inl rfl
  · exact Or.inr ⟨reason, rfl⟩

/-- Only the start of streaming and the next source frame move the window. -/
theorem sameRange_call (hstreaming : c ≠ .streaming) (hbegin : ∀ stamped, c ≠ .rawBegin stamped) :
    SameRange (m.call nowUs c).cohort m.cohort := by
  have hevent : (∃ kind format, c = .segment kind format) ∨ (∃ kind, c = .flushStop kind) ∨
      (∃ kind caps, c = .caps kind caps) ∨ (∃ reason, c = .abort reason) →
      SameRange (m.call nowUs c).cohort m.cohort := by
    intro hcall
    rcases event_cohort hcall with heq | ⟨reason, heq⟩
    · rw [heq]
      exact SameRange.refl _
    · rw [heq]
      exact sameRange_invalidate reason
  cases c with
  | attach kind =>
      rw [call, attach]
      split <;> exact SameRange.refl _
  | encoderReady => exact SameRange.refl _
  | streaming => exact absurd rfl hstreaming
  | rawBegin stamped => exact absurd rfl (hbegin stamped)
  | rawResult sequence accepted => exact sameRange_rawResult sequence accepted
  | buffer kind b => exact sameRange_countBuffer b
  | eos kind => exact sameRange_endOfStream
  | segment kind format => exact hevent (Or.inl ⟨kind, format, rfl⟩)
  | flushStop kind => exact hevent (Or.inr (Or.inl ⟨kind, rfl⟩))
  | caps kind caps => exact hevent (Or.inr (Or.inr (Or.inl ⟨kind, caps, rfl⟩)))
  | abort reason => exact hevent (Or.inr (Or.inr (Or.inr ⟨reason, rfl⟩)))

/-- The metrics of a worker whose window is configured in microseconds. -/
def awaiting (warmupUs durationUs : UInt64) : Metrics :=
  { configure 0 0 with
    cohort := { CohortMetrics.zero with
      enabled := true
      clock := { CohortClock.zero with warmupUs, durationUs } } }

end Metrics

/-- What `pb_wfd_telemetry_raw_begin` answers: the admission of the frame, and
its number, which is 0 for one that is turned away. -/
structure Begun where
  nowUs : UInt64
  admission : Admission
  sequence : UInt64
deriving DecidableEq, Repr

/-- The frame has a number. -/
def Begun.numbered (b : Begun) : Bool := decide (b.admission ≠ .eos)

namespace Metrics

def begun (m : Metrics) (nowUs : UInt64) : ProbeCall → Option Begun
  | .rawBegin _ =>
      let admission := (m.cohort.clock.cohortAdmit nowUs).2
      some ⟨nowUs, admission, if admission = .eos then 0 else m.cohort.nextSequence⟩
  | _ => none

/-- The answers of a run. -/
def begins (m : Metrics) : List (UInt64 × ProbeCall) → List Begun
  | [] => []
  | c :: rest => (m.begun c.1 c.2).toList ++ (m.call c.1 c.2).begins rest

end Metrics

/-! ## The window -/

/-- The cohort has seen frames before its window, in it and behind it, and has
recorded where the window lies. -/
structure Window (warmupUs durationUs : UInt64) (c : CohortMetrics)
    (before within behind : List Begun) (nowUs : UInt64) : Prop where
  enabled : c.enabled = true
  warmup : c.clock.warmupUs = warmupUs
  duration : c.clock.durationUs = durationUs
  opened : ∀ started, c.clock.startedUs = some started →
    started ≤ nowUs ∧ c.clock.warm started = true
  early : ∀ b ∈ before, b.admission = .warmup
  admitted : ∀ b ∈ within, b.admission = .cohort ∧
    ∃ started, c.clock.startedUs = some started ∧ started.toNat ≤ b.nowUs.toNat ∧
      b.nowUs.toNat < started.toNat + durationUs.toNat
  idle : c.clock.startedUs = none ↔ within = []
  refused : ∀ b ∈ behind, b.admission = .eos
  ended : ∀ ended, c.clock.endedUs = some ended →
    ∃ started, c.clock.startedUs = some started ∧
      started.toNat + durationUs.toNat ≤ ended.toNat
  running : c.clock.endedUs = none ↔ behind = []
  numbers : (before ++ within).map Begun.sequence =
    (List.range (before.length + within.length)).map UInt64.ofNat
  next : c.nextSequence = UInt64.ofNat (before.length + within.length)
  first : c.clock.startedUs.isSome = true → c.firstSequence = UInt64.ofNat before.length
  last : c.clock.endedUs.isSome = true →
    c.endSequence = UInt64.ofNat (before.length + within.length)

section Window

variable {warmupUs durationUs nowUs laterUs : UInt64} {c d : CohortMetrics}
  {before within behind : List Begun}

theorem window_awaiting (warmupUs durationUs nowUs : UInt64) :
    Window warmupUs durationUs (Metrics.awaiting warmupUs durationUs).cohort [] [] [] nowUs where
  enabled := rfl
  warmup := rfl
  duration := rfl
  opened := fun started h => by cases h
  early := fun b h => by cases h
  admitted := fun b h => by cases h
  idle := ⟨fun _ => rfl, fun _ => rfl⟩
  refused := fun b h => by cases h
  ended := fun ended h => by cases h
  running := ⟨fun _ => rfl, fun _ => rfl⟩
  numbers := rfl
  next := rfl
  first := fun h => by cases h
  last := fun h => by cases h

theorem Window.later (h : Window warmupUs durationUs c before within behind nowUs)
    (hlater : nowUs ≤ laterUs) : Window warmupUs durationUs c before within behind laterUs :=
  { h with
    opened := fun started hstarted =>
      ⟨UInt64.le_trans (h.opened started hstarted).1 hlater, (h.opened started hstarted).2⟩ }

/-- The window is a matter of the clock and of the numbering. -/
theorem Window.same (h : Window warmupUs durationUs c before within behind nowUs)
    (hsame : CohortMetrics.SameRange d c) :
    Window warmupUs durationUs d before within behind nowUs := by
  obtain ⟨henabled, hclock, hnext, hfirst, hlast⟩ := hsame
  constructor
  · exact henabled.trans h.enabled
  · rw [hclock]
    exact h.warmup
  · rw [hclock]
    exact h.duration
  · rw [hclock]
    exact h.opened
  · exact h.early
  · rw [hclock]
    exact h.admitted
  · rw [hclock]
    exact h.idle
  · exact h.refused
  · rw [hclock]
    exact h.ended
  · rw [hclock]
    exact h.running
  · exact h.numbers
  · exact hnext.trans h.next
  · rw [hclock, hfirst]
    exact h.first
  · rw [hclock, hlast]
    exact h.last

/-- Only the first call for streaming takes effect, and no window is open then. -/
theorem Window.streaming (h : Window warmupUs durationUs c before within behind nowUs) :
    Window warmupUs durationUs (c.streaming nowUs) before within behind nowUs := by
  unfold CohortMetrics.streaming
  rw [if_pos h.enabled]
  have hopened : ∀ started, c.clock.startedUs = some started →
      started ≤ nowUs ∧ (c.clock.streaming nowUs).warm started = true := by
    intro started hstarted
    obtain ⟨hle, hwarm⟩ := h.opened started hstarted
    obtain ⟨streaming, hstreaming, hsum⟩ := CohortClock.warm_iff.mp hwarm
    refine ⟨hle, CohortClock.warm_iff.mpr ⟨streaming, ?_, hsum⟩⟩
    rw [CohortClock.streaming, hstreaming]
    rfl
  exact { h with opened := hopened }

/-- The numbers go on with the next frame. -/
theorem numbers_snoc {numbered : List Begun} {b : Begun}
    (h : numbered.map Begun.sequence = (List.range numbered.length).map UInt64.ofNat)
    (hb : b.sequence = UInt64.ofNat numbered.length) :
    (numbered ++ [b]).map Begun.sequence =
      (List.range (numbered.length + 1)).map UInt64.ofNat := by
  rw [List.map_append, h, List.range_succ, List.map_append, List.map_singleton, hb,
    List.map_singleton]

theorem ofNat_succ (n : Nat) : UInt64.ofNat n + 1 = UInt64.ofNat (n + 1) := by
  rw [UInt64.ofNat_add]
  rfl

/-- A frame that is let in takes the next number; the first one of the window is
remembered. -/
theorem sameRange_admitted {clock : CohortClock} {admission : Admission} (stamped : Bool)
    (henabled : c.enabled = true) (hlet : c.clock.cohortAdmit nowUs = (clock, admission))
    (hadmission : admission ≠ .eos) :
    CohortMetrics.SameRange (c.rawBegin nowUs stamped)
      { c with
        clock := clock
        nextSequence := c.nextSequence + 1
        firstSequence :=
          if !c.clock.startedUs.isSome && clock.startedUs.isSome then c.nextSequence
          else c.firstSequence } := by
  have hon : ¬ (!c.enabled) = true := by simp [henabled]
  unfold CohortMetrics.rawBegin
  rw [if_neg hon, hlet]
  cases admission with
  | warmup =>
      exact CohortMetrics.sameRange_stamp (c := { c with clock := clock })
        c.clock.startedUs.isSome false stamped
  | cohort =>
      exact CohortMetrics.sameRange_stamp (c := { c with clock := clock })
        c.clock.startedUs.isSome true stamped
  | eos => exact absurd rfl hadmission

/-- A frame that is turned away is the end of the window, where that was open. -/
theorem sameRange_refused {clock : CohortClock} (stamped : Bool) (henabled : c.enabled = true)
    (hlet : c.clock.cohortAdmit nowUs = (clock, .eos)) :
    CohortMetrics.SameRange (c.rawBegin nowUs stamped)
      { c with
        clock := clock
        endSequence := if c.clock.endedUs.isNone then c.nextSequence else c.endSequence } := by
  have hon : ¬ (!c.enabled) = true := by simp [henabled]
  unfold CohortMetrics.rawBegin
  rw [if_neg hon, hlet]
  dsimp only
  split
  · exact ⟨rfl, rfl, rfl, rfl, rfl⟩
  · exact ⟨rfl, rfl, rfl, rfl, rfl⟩

/-- One frame at the source belongs before, in or behind the window. -/
theorem Window.rawBegin {stamped : Bool}
    (h : Window warmupUs durationUs c before within behind nowUs) (hduration : 0 < durationUs) :
    let admission := (c.clock.cohortAdmit nowUs).2
    let b : Begun := ⟨nowUs, admission, if admission = .eos then 0 else c.nextSequence⟩
    ∃ before' within' behind', before' ++ within' ++ behind' = before ++ within ++ behind ++ [b] ∧
      Window warmupUs durationUs (c.rawBegin nowUs stamped) before' within' behind' nowUs := by
  have hlong : 0 < c.clock.durationUs := by
    rw [h.duration]
    exact hduration
  intro admission b
  rcases CohortClock.cohortAdmit_cases hlong h.opened with
    ⟨heq, hended⟩ | ⟨heq, hidle, hopen⟩ | ⟨started, hstarted, hopen, hover, heq⟩ |
    ⟨hopen, hwarm, hafter, hwithin, heq⟩
  · -- the window is over
    have hb : b = ⟨nowUs, .eos, 0⟩ := by simp only [b, admission, heq, ↓reduceIte]
    refine ⟨before, within, behind ++ [b], by simp, ?_⟩
    refine Window.same ?_ (sameRange_refused _ h.enabled heq)
    have hlast : (if c.clock.endedUs.isNone then c.nextSequence else c.endSequence) =
        c.endSequence := by
      rw [if_neg]
      rw [← Option.not_isSome, hended]
      exact Bool.false_ne_true
    have hrunning : c.clock.endedUs = none ↔ behind ++ [b] = [] := by
      constructor
      · intro hnone
        rw [hnone] at hended
        cases hended
      · intro hnil
        exact absurd hnil (List.append_ne_nil_of_right_ne_nil _ (List.cons_ne_nil _ _))
    have hrefused : ∀ x ∈ behind ++ [b], x.admission = .eos := by
      intro x hx
      rcases List.mem_append.mp hx with hx | hx
      · exact h.refused x hx
      · rw [List.mem_singleton.mp hx, hb]
    exact { h with
      refused := hrefused
      running := hrunning
      last := by
        rw [hlast]
        exact h.last }
  · -- the warm-up lasts
    have hb : b = ⟨nowUs, .warmup, c.nextSequence⟩ := by
      simp only [b, admission, heq, reduceCtorEq, ↓reduceIte]
    have hwithin : within = [] := h.idle.mp hidle
    have hbehind : behind = [] := h.running.mp hopen
    subst hwithin
    subst hbehind
    refine ⟨before ++ [b], [], [], by simp, ?_⟩
    refine Window.same ?_ (sameRange_admitted _ h.enabled heq (by exact fun h => by cases h))
    have hnumbers := h.numbers
    rw [List.append_nil, List.length_nil, Nat.add_zero] at hnumbers
    have hsequence : b.sequence = UInt64.ofNat before.length := by
      rw [hb, h.next]
      rfl
    have hearly : ∀ x ∈ before ++ [b], x.admission = .warmup := by
      intro x hx
      rcases List.mem_append.mp hx with hx | hx
      · exact h.early x hx
      · rw [List.mem_singleton.mp hx, hb]
    exact { h with
      early := hearly
      admitted := fun x hx => by cases hx
      numbers := by
        rw [List.append_nil, List.length_append, List.length_singleton, List.length_nil,
          Nat.add_zero]
        exact numbers_snoc hnumbers hsequence
      next := by
        rw [List.length_append, List.length_singleton, List.length_nil, Nat.add_zero, h.next]
        exact ofNat_succ _
      first := by
        intro hsome
        rw [hidle] at hsome
        cases hsome
      last := by
        intro hsome
        rw [hopen] at hsome
        cases hsome }
  · -- the window ends with this frame
    have hb : b = ⟨nowUs, .eos, 0⟩ := by simp only [b, admission, heq, ↓reduceIte]
    have hbehind : behind = [] := h.running.mp hopen
    subst hbehind
    refine ⟨before, within, [b], by simp, ?_⟩
    refine Window.same ?_ (sameRange_refused _ h.enabled heq)
    rw [h.duration] at hover
    exact { h with
      refused := by
        intro x hx
        rw [List.mem_singleton.mp hx, hb]
      ended := by
        intro ended hended
        obtain rfl : nowUs = ended := Option.some.inj hended
        exact ⟨started, hstarted, hover⟩
      running := by
        constructor
        · intro hnone
          cases hnone
        · intro hnil
          cases hnil
      last := by
        intro _
        rw [hopen]
        exact h.next }
  · -- the frame belongs to the window
    have hb : b = ⟨nowUs, .cohort, c.nextSequence⟩ := by
      simp only [b, admission, heq, reduceCtorEq, ↓reduceIte]
    have hbehind : behind = [] := h.running.mp hopen
    subst hbehind
    refine ⟨before, within ++ [b], [], by simp, ?_⟩
    refine Window.same ?_ (sameRange_admitted _ h.enabled heq (by exact fun h => by cases h))
    have hsequence : b.sequence = UInt64.ofNat (before ++ within).length := by
      rw [hb, h.next, List.length_append]
    have hstarted : ∀ started, c.clock.startedUs = some started →
        some (c.clock.startedUs.getD nowUs) = some started := by
      intro started hsome
      rw [hsome]
      rfl
    have hadmitted : ∀ x ∈ within ++ [b], x.admission = .cohort ∧
        ∃ started, some (c.clock.startedUs.getD nowUs) = some started ∧
          started.toNat ≤ x.nowUs.toNat ∧ x.nowUs.toNat < started.toNat + durationUs.toNat := by
      intro x hx
      rcases List.mem_append.mp hx with hx | hx
      · obtain ⟨hcohort, started, hsome, hbounds⟩ := h.admitted x hx
        exact ⟨hcohort, started, hstarted started hsome, hbounds⟩
      · rw [List.mem_singleton.mp hx, hb]
        rw [h.duration] at hwithin
        exact ⟨rfl, _, rfl, hafter, hwithin⟩
    exact { h with
      opened := by
        intro started hsome
        obtain rfl : c.clock.startedUs.getD nowUs = started := Option.some.inj hsome
        cases hstarted : c.clock.startedUs with
        | none => exact ⟨UInt64.le_refl _, hwarm⟩
        | some started => exact h.opened started hstarted
      admitted := hadmitted
      idle := by
        constructor
        · intro hnone
          cases hnone
        · intro hnil
          exact absurd hnil (List.append_ne_nil_of_right_ne_nil _ (List.cons_ne_nil _ _))
      ended := by
        intro ended hended
        rw [hopen] at hended
        cases hended
      numbers := by
        have hnumbers := h.numbers
        rw [← List.length_append] at hnumbers
        rw [← List.append_assoc, List.length_append, ← Nat.add_assoc, ← List.length_append]
        exact numbers_snoc hnumbers hsequence
      next := by
        rw [List.length_append, ← Nat.add_assoc, h.next]
        exact ofNat_succ _
      first := by
        intro _
        cases hsome : c.clock.startedUs with
        | none =>
            have hwithin : within = [] := h.idle.mp hsome
            have hnext := h.next
            rw [hwithin] at hnext
            exact hnext
        | some started => exact h.first (by rw [hsome]; rfl)
      last := by
        intro hsome
        rw [hopen] at hsome
        cases hsome }

/-- One call on the metrics. -/
theorem Window.call {m : Metrics}
    (h : Window warmupUs durationUs m.cohort before within behind nowUs)
    (hduration : 0 < durationUs) (c : ProbeCall) :
    ∃ before' within' behind', before' ++ within' ++ behind' =
        before ++ within ++ behind ++ (m.begun nowUs c).toList ∧
      Window warmupUs durationUs (m.call nowUs c).cohort before' within' behind' nowUs := by
  by_cases hbegin : ∃ stamped, c = .rawBegin stamped
  · obtain ⟨stamped, rfl⟩ := hbegin
    exact h.rawBegin hduration
  have hnone : m.begun nowUs c = none := by
    cases c with
    | rawBegin stamped => exact absurd ⟨stamped, rfl⟩ hbegin
    | _ => rfl
  refine ⟨before, within, behind, by rw [hnone]; simp, ?_⟩
  by_cases hstreaming : c = .streaming
  · rw [hstreaming]
    exact h.streaming
  · exact h.same (Metrics.sameRange_call hstreaming fun stamped heq => hbegin ⟨stamped, heq⟩)

/-- The calls of a run on a clock that does not go backwards. -/
theorem Window.run {m : Metrics} {calls : List (UInt64 × ProbeCall)}
    (h : Window warmupUs durationUs m.cohort before within behind nowUs)
    (hduration : 0 < durationUs) (hclock : (nowUs :: calls.map Prod.fst).Pairwise (· ≤ ·)) :
    ∃ before' within' behind' laterUs, before' ++ within' ++ behind' =
        before ++ within ++ behind ++ m.begins calls ∧
      Window warmupUs durationUs (m.run calls).cohort before' within' behind' laterUs := by
  induction calls generalizing m nowUs before within behind with
  | nil => exact ⟨before, within, behind, nowUs, by simp [Metrics.begins], h⟩
  | cons c rest ih =>
      rw [List.map_cons] at hclock
      obtain ⟨hfirst, hrest⟩ := List.pairwise_cons.mp hclock
      obtain ⟨before', within', behind', hseen, hwindow⟩ :=
        (h.later (hfirst c.1 List.mem_cons_self)).call hduration c.2
      obtain ⟨before'', within'', behind'', laterUs, hall, hlast⟩ := ih hwindow hrest
      refine ⟨before'', within'', behind'', laterUs, ?_, hlast⟩
      rw [hall, hseen, Metrics.begins, List.append_assoc]

end Window

/-! ## The range and the frames -/

/-- The measured cohort is one window of the frames that began: `started` is its
first reading, and each number belongs to one frame. -/
structure OneWindow (warmupUs durationUs : UInt64) (begun : List Begun) (c : CohortMetrics) :
    Prop where
  phases : ∃ before within behind, begun = before ++ within ++ behind ∧
    (∀ b ∈ before, b.admission = .warmup) ∧ (∀ b ∈ within, b.admission = .cohort) ∧
    ∀ b ∈ behind, b.admission = .eos
  admitted : ∀ b ∈ begun, b.admission = .cohort →
    ∃ started, c.clock.startedUs = some started ∧ started.toNat ≤ b.nowUs.toNat ∧
      b.nowUs.toNat < started.toNat + durationUs.toNat
  started : ∀ started, c.clock.startedUs = some started →
    ∃ streaming, c.clock.streamingUs = some streaming ∧
      streaming.toNat + warmupUs.toNat ≤ started.toNat
  ended : ∀ ended, c.clock.endedUs = some ended →
    ∃ started, c.clock.startedUs = some started ∧ started.toNat + durationUs.toNat ≤ ended.toNat
  numbers : (begun.filter Begun.numbered).map Begun.sequence =
    (List.range (begun.countP Begun.numbered)).map UInt64.ofNat
  range : begun.countP Begun.numbered < 2 ^ 64 → c.clock.endedUs.isSome = true →
    ∀ b ∈ begun, b.numbered = true →
      (b.admission = .cohort ↔ c.firstSequence ≤ b.sequence ∧ b.sequence < c.endSequence)
  open_range : begun.countP Begun.numbered < 2 ^ 64 → c.clock.endedUs = none →
    ∀ b ∈ begun, b.numbered = true →
      (b.admission = .cohort ↔ c.clock.startedUs.isSome = true ∧ c.firstSequence ≤ b.sequence)

section Range

variable {warmupUs durationUs nowUs : UInt64} {c : CohortMetrics}
  {before within behind : List Begun} {b : Begun}

/-- The numbers of the warm-up, and of the window behind it. -/
theorem Window.sequences (h : Window warmupUs durationUs c before within behind nowUs) :
    (∀ b ∈ before, ∃ i, i < before.length ∧ b.sequence = UInt64.ofNat i) ∧
      ∀ b ∈ within, ∃ i, i < within.length ∧
        b.sequence = UInt64.ofNat (before.length + i) := by
  have hnumbers := h.numbers
  rw [List.range_add, List.map_append, List.map_append] at hnumbers
  obtain ⟨hbefore, hwithin⟩ := List.append_inj hnumbers (by simp)
  constructor
  · intro b hb
    have hmem := List.mem_map_of_mem (f := Begun.sequence) hb
    rw [hbefore] at hmem
    obtain ⟨i, hi, heq⟩ := List.mem_map.mp hmem
    exact ⟨i, List.mem_range.mp hi, heq.symm⟩
  · intro b hb
    have hmem := List.mem_map_of_mem (f := Begun.sequence) hb
    rw [hwithin, List.map_map] at hmem
    obtain ⟨i, hi, heq⟩ := List.mem_map.mp hmem
    exact ⟨i, List.mem_range.mp hi, heq.symm⟩

/-- The frames with numbers are those before the window and those in it. -/
theorem Window.filter_numbered (h : Window warmupUs durationUs c before within behind nowUs) :
    (before ++ within ++ behind).filter Begun.numbered = before ++ within := by
  have hbefore : before.filter Begun.numbered = before := by
    apply List.filter_eq_self.mpr
    intro b hb
    simp [Begun.numbered, h.early b hb]
  have hwithin : within.filter Begun.numbered = within := by
    apply List.filter_eq_self.mpr
    intro b hb
    simp [Begun.numbered, (h.admitted b hb).1]
  have hbehind : behind.filter Begun.numbered = [] := by
    apply List.filter_eq_nil_iff.mpr
    intro b hb
    simp [Begun.numbered, h.refused b hb]
  rw [List.filter_append, List.filter_append, hbefore, hwithin, hbehind, List.append_nil]

theorem toNat_ofNat_lt {n : Nat} (h : n < 2 ^ 64) : (UInt64.ofNat n).toNat = n := by
  rw [UInt64.toNat_ofNat']
  exact Nat.mod_eq_of_lt h

/-- A frame with a number is in the window where its number is. -/
theorem Window.range (h : Window warmupUs durationUs c before within behind nowUs)
    (hfew : before.length + within.length < 2 ^ 64) (hb : b ∈ before ++ within) :
    b.admission = .cohort ↔ c.clock.startedUs.isSome = true ∧ c.firstSequence ≤ b.sequence ∧
      (c.clock.endedUs.isSome = true → b.sequence < c.endSequence) := by
  obtain ⟨hbefore, hwithin⟩ := h.sequences
  rcases List.mem_append.mp hb with hb | hb
  · obtain ⟨i, hi, hsequence⟩ := hbefore b hb
    constructor
    · intro hcohort
      rw [h.early b hb] at hcohort
      cases hcohort
    · rintro ⟨hstarted, hle, -⟩
      rw [h.first hstarted, hsequence, UInt64.le_iff_toNat_le, toNat_ofNat_lt (by omega),
        toNat_ofNat_lt (by omega)] at hle
      omega
  · obtain ⟨i, hi, hsequence⟩ := hwithin b hb
    refine ⟨fun _ => ?_, fun _ => (h.admitted b hb).1⟩
    have hstarted : c.clock.startedUs.isSome = true := by
      obtain ⟨-, started, hstarted, -⟩ := h.admitted b hb
      rw [hstarted]
      rfl
    refine ⟨hstarted, ?_, ?_⟩
    · rw [h.first hstarted, hsequence, UInt64.le_iff_toNat_le, toNat_ofNat_lt (by omega),
        toNat_ofNat_lt (by omega)]
      omega
    · intro hended
      rw [h.last hended, hsequence, UInt64.lt_iff_toNat_lt, toNat_ofNat_lt (by omega),
        toNat_ofNat_lt (by omega)]
      omega

theorem Window.one (h : Window warmupUs durationUs c before within behind nowUs) :
    OneWindow warmupUs durationUs (before ++ within ++ behind) c := by
  have hnumbered := h.filter_numbered
  have hcount : (before ++ within ++ behind).countP Begun.numbered =
      before.length + within.length := by
    rw [List.countP_eq_length_filter, hnumbered, List.length_append]
  have hmem {b : Begun} (hb : b ∈ before ++ within ++ behind) (hnumber : b.numbered = true) :
      b ∈ before ++ within := by
    rw [← hnumbered]
    exact List.mem_filter.mpr ⟨hb, hnumber⟩
  constructor
  · exact ⟨before, within, behind, rfl, h.early, fun b hb => (h.admitted b hb).1, h.refused⟩
  · intro b hb hcohort
    rcases List.mem_append.mp hb with hb | hb
    · rcases List.mem_append.mp hb with hb | hb
      · rw [h.early b hb] at hcohort
        cases hcohort
      · exact (h.admitted b hb).2
    · rw [h.refused b hb] at hcohort
      cases hcohort
  · intro started hstarted
    have hwarm := CohortClock.warm_iff.mp (h.opened started hstarted).2
    rw [h.warmup] at hwarm
    exact hwarm
  · exact h.ended
  · rw [hnumbered, hcount]
    exact h.numbers
  · intro hfew hended b hb hnumber
    rw [hcount] at hfew
    rw [h.range hfew (hmem hb hnumber)]
    obtain ⟨ended, hsome⟩ := Option.isSome_iff_exists.mp hended
    obtain ⟨started, hstarted, -⟩ := h.ended ended hsome
    simp [hended, hstarted]
  · intro hfew hopen b hb hnumber
    rw [hcount] at hfew
    rw [h.range hfew (hmem hb hnumber), hopen]
    simp

end Range

/-- In every run of calls on a clock that does not go backwards, the frames of the
cohort are those of one window, and the range of their numbers is recorded. -/
theorem cohort_one_window (warmupUs durationUs : UInt64) (calls : List (UInt64 × ProbeCall))
    (hduration : 0 < durationUs) (hclock : (calls.map Prod.fst).Pairwise (· ≤ ·)) :
    OneWindow warmupUs durationUs ((Metrics.awaiting warmupUs durationUs).begins calls)
      ((Metrics.awaiting warmupUs durationUs).run calls).cohort := by
  have hzero : ((0 : UInt64) :: calls.map Prod.fst).Pairwise (· ≤ ·) := by
    rw [List.pairwise_cons]
    refine ⟨fun nowUs _ => ?_, hclock⟩
    rw [UInt64.le_iff_toNat_le]
    exact Nat.zero_le _
  obtain ⟨before, within, behind, laterUs, hall, hwindow⟩ :=
    (window_awaiting warmupUs durationUs 0).run hduration hzero
  rw [List.append_nil, List.append_nil, List.nil_append] at hall
  rw [← hall]
  exact hwindow.one

/-- Streaming, then three frames; the window is two microseconds long. -/
def sampleCalls : List (UInt64 × ProbeCall) :=
  [(0, .rawBegin true), (1, .streaming), (4, .rawBegin true), (5, .rawBegin true),
    (6, .rawBegin true)]

theorem cohort_one_window_sample :
    OneWindow 3 2 ((Metrics.awaiting 3 2).begins sampleCalls)
      ((Metrics.awaiting 3 2).run sampleCalls).cohort :=
  cohort_one_window 3 2 sampleCalls (by decide) (by decide)

/-! ## The numbers wrap around -/

/-- Streaming at the first reading, `n` frames there, and one a microsecond later. -/
def busyCalls (n : Nat) : List (UInt64 × ProbeCall) :=
  (0, .streaming) :: (List.replicate n (0, .rawBegin true) ++ [(1, .rawBegin true)])

/-- The window that opened with the first reading, after `n` frames. -/
structure Busy (c : CohortMetrics) (n : Nat) : Prop where
  enabled : c.enabled = true
  clock : c.clock = ⟨0, 1, some 0, if n = 0 then none else some 0, none⟩
  next : c.nextSequence = UInt64.ofNat n
  first : c.firstSequence = 0

theorem Busy.frame {m : Metrics} {n : Nat} (h : Busy m.cohort n) :
    m.begun 0 (.rawBegin true) = some ⟨0, .cohort, UInt64.ofNat n⟩ ∧
      Busy (m.call 0 (.rawBegin true)).cohort (n + 1) := by
  have hlet : m.cohort.clock.cohortAdmit 0 = (⟨0, 1, some 0, some 0, none⟩, .cohort) := by
    rw [h.clock]
    cases n with
    | zero => rfl
    | succ n =>
        rw [if_neg (Nat.succ_ne_zero n)]
        rfl
  constructor
  · rw [Metrics.begun, hlet, h.next]
    rfl
  · obtain ⟨henabled, hclock, hnext, hfirst, -⟩ :=
      sameRange_admitted true h.enabled hlet (fun heq => by cases heq)
    refine ⟨henabled.trans h.enabled, hclock.trans ?_, hnext.trans ?_, hfirst.trans ?_⟩
    · rw [if_neg (Nat.succ_ne_zero n)]
    · rw [h.next]
      exact ofNat_succ n
    · rw [h.first, h.clock, h.next]
      cases n with
      | zero => rfl
      | succ n =>
          rw [if_neg (Nat.succ_ne_zero n)]
          rfl

theorem Busy.run {m : Metrics} {n : Nat} (h : Busy m.cohort n) (k : Nat) :
    Busy (m.run (List.replicate k (0, .rawBegin true))).cohort (n + k) := by
  induction k generalizing m n with
  | zero => exact h
  | succ k ih =>
      have hnext := ih h.frame.2
      rw [Nat.add_assoc, Nat.add_comm 1 k] at hnext
      exact hnext

theorem busy_streaming :
    Busy ((Metrics.awaiting 0 1).call 0 .streaming).cohort 0 := ⟨rfl, rfl, rfl, rfl⟩

theorem mem_begins_busy (n : Nat) :
    (⟨0, .cohort, 0⟩ : Begun) ∈ (Metrics.awaiting 0 1).begins (busyCalls (n + 1)) := by
  rw [busyCalls, Metrics.begins, List.replicate_succ, List.cons_append, Metrics.begins,
    busy_streaming.frame.1]
  exact List.mem_append_right _ (List.mem_append_left _ List.mem_cons_self)

/-- The window of all these frames ends with the number of the next one. -/
theorem run_busy (n : Nat) :
    ((Metrics.awaiting 0 1).run (busyCalls (n + 1))).cohort.clock.endedUs = some 1 ∧
      ((Metrics.awaiting 0 1).run (busyCalls (n + 1))).cohort.endSequence =
        UInt64.ofNat (n + 1) := by
  have hbusy := busy_streaming.run (n + 1)
  rw [Nat.zero_add] at hbusy
  have hlet := congrArg (fun clock => CohortClock.cohortAdmit clock 1) hbusy.clock
  rw [if_neg (Nat.succ_ne_zero n)] at hlet
  obtain ⟨-, hclock, -, -, hlast⟩ := sameRange_refused true hbusy.enabled hlet
  have hrun : ((Metrics.awaiting 0 1).run (busyCalls (n + 1))).cohort =
      ((((Metrics.awaiting 0 1).call 0 .streaming).run
        (List.replicate (n + 1) (0, .rawBegin true))).cohort).rawBegin 1 true := by
    rw [busyCalls, Metrics.run, List.foldl_cons, List.foldl_append]
    rfl
  rw [hrun]
  constructor
  · rw [hclock]
  · rw [hlast, hbusy.clock, hbusy.next]
    rfl

/-- Numbers that have wrapped around do not tell the frames of the window. -/
theorem range_wraps :
    ¬ ∀ (warmupUs durationUs : UInt64) (calls : List (UInt64 × ProbeCall)),
      0 < durationUs → (calls.map Prod.fst).Pairwise (· ≤ ·) →
      ((Metrics.awaiting warmupUs durationUs).run calls).cohort.clock.endedUs.isSome = true →
      ∀ b ∈ (Metrics.awaiting warmupUs durationUs).begins calls, b.numbered = true →
        (b.admission = .cohort ↔
          ((Metrics.awaiting warmupUs durationUs).run calls).cohort.firstSequence ≤ b.sequence ∧
          b.sequence < ((Metrics.awaiting warmupUs durationUs).run calls).cohort.endSequence) := by
  intro h
  have hclock (n : Nat) : ((busyCalls n).map Prod.fst).Pairwise (· ≤ ·) := by
    rw [busyCalls, List.map_cons, List.map_append, List.map_replicate]
    refine List.pairwise_cons.mpr ⟨fun nowUs _ => UInt64.le_iff_toNat_le.mpr (Nat.zero_le _), ?_⟩
    refine List.pairwise_append.mpr ⟨?_, List.pairwise_singleton _ _, ?_⟩
    · exact List.pairwise_replicate.mpr (Or.inr (UInt64.le_refl _))
    · intro a ha b hb
      rw [List.eq_of_mem_replicate ha, List.mem_singleton.mp hb]
      decide
  have hwrap : ∀ n, UInt64.ofNat (n + 1) ≠ 0 := by
    intro n hzero
    obtain ⟨hended, hlast⟩ := run_busy n
    have hrange := h 0 1 (busyCalls (n + 1)) (by decide) (hclock _) (by rw [hended]; rfl)
      ⟨0, .cohort, 0⟩ (mem_begins_busy n) (by decide)
    rw [hlast, hzero] at hrange
    exact absurd (hrange.mp rfl).2 (UInt64.lt_irrefl 0)
  exact hwrap (2 ^ 64 - 1) (by decide)

end HccastWired.Telemetry
