import HccastWired.Telemetry.CohortRange

/-!
# The counts of a complete receipt agree

While no ledger refused a call, the sources that leave one ledger are those that
enter the next, the encoder table is entered with each frame that leaves the
last ledger, and the sequence range is as long as the count of attempts.
-/

namespace HccastWired.Telemetry

namespace CohortMetrics

/-- No reason against the cohort has been recorded. -/
structure Valid (c : CohortMetrics) : Prop where
  cohort : c.invalidReason = none
  boundary : ∀ b, (c.boundaries b).invalidReason = none
  rate : c.rate.invalidReason = none

section Validity

variable {c : CohortMetrics} {b : Boundary} {key : FrameKey} {l : PbLoss}

theorem valid_update (ledgers : Boundary → PbLoss)
    (h : Valid { c with boundaries := Function.update ledgers b l }) :
    l.invalidReason = none ∧
      ((ledgers b).invalidReason = none → Valid { c with boundaries := ledgers }) := by
  have hself := h.boundary b
  simp only [Function.update_self] at hself
  refine ⟨hself, fun hvalid => ⟨h.cohort, ?_, h.rate⟩⟩
  intro b'
  by_cases hb : b' = b
  · rw [hb]
    exact hvalid
  · have hother := h.boundary b'
    simpa only [Function.update_of_ne hb] using hother

theorem exitBoundary_valid (h : (c.exitBoundary b key).Valid) :
    c.Valid ∧ ((c.boundaries b).exit key).invalidReason = none := by
  obtain ⟨hvalid, hrest⟩ := valid_update c.boundaries h
  exact ⟨hrest (PbLoss.exit_valid hvalid).1, hvalid⟩

theorem enterBoundary_valid {awaiting : Bool} (h : (c.enterBoundary b key awaiting).Valid) :
    c.Valid ∧ ((c.boundaries b).enter key awaiting).invalidReason = none := by
  obtain ⟨hvalid, hrest⟩ := valid_update c.boundaries h
  exact ⟨hrest (PbLoss.enter_valid hvalid).1, hvalid⟩

theorem closeBoundary_valid (h : (c.closeBoundary b).Valid) : c.Valid := by
  obtain ⟨hvalid, hrest⟩ := valid_update c.boundaries h
  exact hrest hvalid

theorem exitRate_valid (h : (c.exitRate key).Valid) :
    c.Valid ∧ (c.rate.exit key).invalidReason = none :=
  ⟨⟨h.cohort, h.boundary, (PbRateLoss.exit_valid h.rate).1⟩, h.rate⟩

theorem enterRate_valid {sequence : UInt64} (h : (c.enterRate sequence).Valid) :
    c.Valid ∧ (c.rate.enter sequence).invalidReason = none :=
  ⟨⟨h.cohort, h.boundary, (PbRateLoss.enter_valid h.rate).1⟩, h.rate⟩

/-- A reason against an enabled cohort ends its validity. -/
theorem invalidate_valid {reason : String} (h : (c.invalidate reason).Valid) :
    c.enabled = false ∧ c.invalidate reason = c := by
  have hcohort := h.cohort
  unfold invalidate at hcohort ⊢
  split at hcohort
  · simp at hcohort
  next hdisabled =>
    rw [if_neg hdisabled]
    exact ⟨Bool.eq_false_iff.mpr hdisabled, rfl⟩

end Validity

/-- The chain of counters of a valid cohort. -/
structure Chain (c : CohortMetrics) : Prop where
  /-- No push was refused. -/
  rejected : (c.boundaries .appsrc).rejected = 0
  /-- The sources that left the first ledger entered the second. -/
  passed : (c.boundaries .sourceToRate).accepted = (c.boundaries .appsrc).emitted
  /-- The sources that left the second ledger entered the rate converter. -/
  reached : c.rate.entered = (c.boundaries .sourceToRate).emitted
  /-- The frames that left the last ledger entered the table of the encoder. -/
  timed : c.encoderTiming.entered = (c.boundaries .queueToEncoder).emitted
  appKeys : ∀ k ∈ (c.boundaries .appsrc).keys, k.sequence < c.nextSequence
  rateKeys : ∀ k ∈ (c.boundaries .sourceToRate).keys, k.sequence < c.nextSequence
  lastRate : ∀ s, c.rate.lastEnter = some s → s < c.nextSequence
  counted : ∃ retired, Counted c.rate retired
  idle : c.clock.startedUs = none → (c.boundaries .appsrc).attempts = 0 ∧
    (c.boundaries .appsrc).keys = [] ∧ (c.boundaries .sourceToRate).keys = [] ∧
    c.rate.lastEnter = none
  window : c.clock.startedUs.isSome = true →
    c.firstSequence.toNat + (c.boundaries .appsrc).attempts.toNat = c.nextSequence.toNat ∧
      (c.boundaries .appsrc).attempts ≠ 0
  ended : c.clock.endedUs.isSome = true → c.endSequence = c.nextSequence

theorem chain_configure (warmupMs durationMs : Int) : Chain (configure warmupMs durationMs) := by
  constructor
  · rfl
  · rfl
  · rfl
  · rfl
  · intro k hk
    cases hk
  · intro k hk
    cases hk
  · intro s hs
    cases hs
  · exact ⟨[], counted_zero⟩
  · intro _
    exact ⟨rfl, rfl, rfl, rfl⟩
  · intro h
    cases h
  · intro h
    cases h

/-- Two cohorts agree in what the chain reads. -/
structure Agrees (c d : CohortMetrics) : Prop where
  clock : d.clock = c.clock
  next : d.nextSequence = c.nextSequence
  first : d.firstSequence = c.firstSequence
  last : d.endSequence = c.endSequence
  appsrc : d.boundaries .appsrc = c.boundaries .appsrc
  sourceToRate : d.boundaries .sourceToRate = c.boundaries .sourceToRate

theorem Chain.of_agrees {c d : CohortMetrics} (h : Chain c) (hsame : Agrees c d)
    (hentered : d.rate.entered = c.rate.entered) (hlast : d.rate.lastEnter = c.rate.lastEnter)
    (hcounted : ∃ retired, Counted d.rate retired)
    (htimed : d.encoderTiming.entered = (d.boundaries .queueToEncoder).emitted) : Chain d := by
  obtain ⟨hclock, hnext, hfirst, hlastSequence, happ, hrate⟩ := hsame
  constructor
  · rw [happ]
    exact h.rejected
  · rw [happ, hrate]
    exact h.passed
  · rw [hentered, hrate]
    exact h.reached
  · exact htimed
  · rw [happ, hnext]
    exact h.appKeys
  · rw [hrate, hnext]
    exact h.rateKeys
  · rw [hlast, hnext]
    exact h.lastRate
  · exact hcounted
  · rw [hclock, happ, hrate, hlast]
    exact h.idle
  · rw [hclock, hfirst, happ, hnext]
    exact h.window
  · rw [hclock, hlastSequence, hnext]
    exact h.ended

/-! ## One frame at a probe -/

section Move

variable {c : CohortMetrics} {key : FrameKey}

@[simp] theorem exitBoundary_boundaries (b : Boundary) : (c.exitBoundary b key).boundaries =
    Function.update c.boundaries b ((c.boundaries b).exit key) := rfl

@[simp] theorem enterBoundary_boundaries (b : Boundary) (awaiting : Bool) :
    (c.enterBoundary b key awaiting).boundaries =
      Function.update c.boundaries b ((c.boundaries b).enter key awaiting) := rfl

@[simp] theorem closeBoundary_boundaries (b : Boundary) : (c.closeBoundary b).boundaries =
    Function.update c.boundaries b (c.boundaries b).close := rfl

/-- A frame at the source leaves the first ledger for the second. -/
theorem Chain.source (h : Chain c) (hvalid : (c.move .source key).Valid) :
    Chain (c.move .source key) := by
  obtain ⟨hvalid, henter⟩ := enterBoundary_valid hvalid
  obtain ⟨-, hexit⟩ := exitBoundary_valid hvalid
  have hother : (c.exitBoundary .appsrc key).boundaries .sourceToRate =
      c.boundaries .sourceToRate := rfl
  rw [hother] at henter
  obtain ⟨hmem, happKeys, hattempts, -, hrejected, hemitted⟩ := PbLoss.exit_counts hexit
  obtain ⟨-, hrateKeys, -, haccepted, -, hrateEmitted⟩ := PbLoss.enter_counts henter
  have happ : (c.move .source key).boundaries .appsrc = (c.boundaries .appsrc).exit key := rfl
  have hrate : (c.move .source key).boundaries .sourceToRate =
      (c.boundaries .sourceToRate).enter key false := rfl
  constructor
  · rw [happ, hrejected]
    exact h.rejected
  · rw [happ, hrate, haccepted, hemitted, ← h.passed]
    rfl
  · rw [hrate, hrateEmitted]
    exact h.reached
  · exact h.timed
  · rw [happ]
    exact fun k hk => h.appKeys k (happKeys hk)
  · rw [hrate, hrateKeys]
    intro k hk
    rcases List.mem_append.mp hk with hk | hk
    · exact h.rateKeys k hk
    · rw [List.mem_singleton.mp hk]
      exact h.appKeys key hmem
  · exact h.lastRate
  · exact h.counted
  · intro hidle
    have hempty := (h.idle hidle).2.1
    rw [hempty] at hmem
    cases hmem
  · rw [happ, hattempts]
    exact h.window
  · exact h.ended

/-- A frame at the rate converter leaves the second ledger for the rate ledger. -/
theorem Chain.rateIn (h : Chain c) (hvalid : (c.move .rateIn key).Valid) :
    Chain (c.move .rateIn key) := by
  obtain ⟨hvalid, henter⟩ := enterRate_valid hvalid
  obtain ⟨-, hexit⟩ := exitBoundary_valid hvalid
  obtain ⟨hmem, hkeys, -, haccepted, -, hemitted⟩ := PbLoss.exit_counts hexit
  have hrate : (c.move .rateIn key).boundaries .sourceToRate =
      (c.boundaries .sourceToRate).exit key := rfl
  have hledger : (c.move .rateIn key).rate = c.rate.enter key.sequence := rfl
  obtain ⟨retired, hcounted⟩ := h.counted
  have hnext := hcounted.enter henter
  obtain ⟨-, -, -, -, heq⟩ := PbRateLoss.enter_valid henter
  constructor
  · exact h.rejected
  · rw [hrate, haccepted]
    exact h.passed
  · rw [hledger, hrate, hemitted, ← h.reached]
    exact congrArg PbRateLoss.entered heq
  · exact h.timed
  · exact h.appKeys
  · rw [hrate]
    exact fun k hk => h.rateKeys k (hkeys hk)
  · intro s hs
    have hlast : (c.rate.enter key.sequence).lastEnter = some key.sequence :=
      congrArg PbRateLoss.lastEnter heq
    rw [hledger, hlast] at hs
    cases hs
    exact h.rateKeys key hmem
  · exact ⟨retired, hnext⟩
  · intro hidle
    have hempty := (h.idle hidle).2.2.1
    rw [hempty] at hmem
    cases hmem
  · exact h.window
  · exact h.ended

/-- An output of the rate converter leaves the entries as many as they were. -/
theorem Chain.rateOut (h : Chain c) (hvalid : (c.move .rateOut key).Valid) :
    Chain (c.move .rateOut key) := by
  obtain ⟨hvalid, -⟩ := enterBoundary_valid hvalid
  obtain ⟨-, hexit⟩ := exitRate_valid hvalid
  obtain ⟨retired, hcounted⟩ := h.counted
  obtain ⟨-, -, -, -, before, e, after, -, -, heq⟩ := PbRateLoss.exit_valid hexit
  have hledger : (c.move .rateOut key).rate = c.rate.exit key := rfl
  apply h.of_agrees
  · exact ⟨rfl, rfl, rfl, rfl, rfl, rfl⟩
  · rw [hledger, heq]
    rfl
  · rw [hledger, heq]
    rfl
  · exact hcounted.exit hexit
  · exact h.timed

/-- A frame behind the rate converter moves on; at the encoder it has left the
last ledger. -/
theorem move_behind {kind : ProbeKind} (hsource : kind ≠ .source) (hrateIn : kind ≠ .rateIn)
    (hrateOut : kind ≠ .rateOut) (hvalid : (c.move kind key).Valid) :
    Agrees c (c.move kind key) ∧ (c.move kind key).rate = c.rate ∧
      (c.move kind key).encoderTiming = c.encoderTiming ∧
      ((c.move kind key).boundaries .queueToEncoder).emitted =
        if kind = .encoderIn then (c.boundaries .queueToEncoder).emitted + 1
        else (c.boundaries .queueToEncoder).emitted := by
  have hagrees : Agrees c (c.move kind key) := by
    cases kind <;> first | exact ⟨rfl, rfl, rfl, rfl, rfl, rfl⟩ | contradiction
  have hrate : (c.move kind key).rate = c.rate := by
    cases kind <;> first | rfl | contradiction
  have htiming : (c.move kind key).encoderTiming = c.encoderTiming := by
    cases kind <;> rfl
  refine ⟨hagrees, hrate, htiming, ?_⟩
  cases kind with
  | queueOut =>
      obtain ⟨-, henter⟩ := enterBoundary_valid hvalid
      have hother : (c.exitBoundary .queue key).boundaries .queueToEncoder =
          c.boundaries .queueToEncoder := rfl
      rw [hother] at henter
      exact (PbLoss.enter_counts henter).2.2.2.2.2
  | encoderIn =>
      obtain ⟨-, hexit⟩ := exitBoundary_valid hvalid
      exact (PbLoss.exit_counts hexit).2.2.2.2.2
  | source => contradiction
  | rateIn => contradiction
  | rateOut => contradiction
  | _ => rfl

/-- A frame that moves, the encoder's input apart. -/
theorem Chain.move {kind : ProbeKind} (h : Chain c) (hencoder : kind ≠ .encoderIn)
    (hvalid : (c.move kind key).Valid) : Chain (c.move kind key) := by
  by_cases hsource : kind = .source
  · subst hsource
    exact h.source hvalid
  by_cases hrateIn : kind = .rateIn
  · subst hrateIn
    exact h.rateIn hvalid
  by_cases hrateOut : kind = .rateOut
  · subst hrateOut
    exact h.rateOut hvalid
  obtain ⟨hagrees, hrate, htiming, hemitted⟩ := move_behind hsource hrateIn hrateOut hvalid
  rw [if_neg hencoder] at hemitted
  apply h.of_agrees hagrees
  · rw [hrate]
  · rw [hrate]
  · rw [hrate]
    exact h.counted
  · rw [htiming, hemitted]
    exact h.timed

end Move

/-! ## One buffer, one end of stream -/

section Calls

variable {c : CohortMetrics} {kind : ProbeKind} {b : Buffer} {nowUs : UInt64}

/-- The buffer is a frame of the cohort, as the encoder's table tests it. -/
def inCohort (c : CohortMetrics) (b : Buffer) : Bool :=
  c.enabled && c.clock.startedUs.isSome &&
    decide (b.frameMeta.map FrameMeta.epoch = c.clock.startedUs)

@[simp] theorem invalidate_clock {reason : String} : (c.invalidate reason).clock = c.clock := by
  unfold invalidate
  split <;> rfl

/-- What a buffer does when the cohort stays valid. -/
theorem buffer_valid (hclock : c.clock.Timely nowUs) (h : (c.buffer kind b).Valid) :
    (c.buffer kind b = c ∧ (kind = .encoderIn → c.inCohort b = false)) ∨
    (∃ frame, b.frameMeta = some frame ∧ kind ≠ .encoderOut ∧ c.inCohort b = true ∧
      c.buffer kind b = c.move kind (keyAt kind frame b.pts)) := by
  unfold buffer at h ⊢
  cases hstarted : c.clock.startedUs with
  | none =>
      left
      exact ⟨rfl, fun _ => by simp [inCohort, hstarted]⟩
  | some started =>
      simp only [hstarted] at h
      dsimp only
      split at h
      next hoff =>
        left
        rw [if_pos hoff]
        refine ⟨rfl, ?_⟩
        rintro rfl
        have hdisabled : c.enabled = false := by simpa using hoff
        simp [inCohort, hdisabled]
      next hon =>
        rw [if_neg hon]
        simp only [Bool.or_eq_true, Bool.not_eq_true', decide_eq_true_eq, not_or,
          Bool.not_eq_false] at hon
        cases hframe : b.frameMeta with
        | none =>
            rw [hframe] at h
            have hdisabled := (invalidate_valid h).1
            rw [hon.1] at hdisabled
            cases hdisabled
        | some frame =>
            rw [hframe] at h
            dsimp only at h ⊢
            split at h
            next hwarmup =>
              left
              rw [if_pos hwarmup]
              refine ⟨rfl, fun _ => ?_⟩
              have hpos := hclock.startedUs_pos hstarted
              have hepoch : ¬ (0 : UInt64) = started := fun heq => hpos heq.symm
              simp [inCohort, hstarted, hframe, hwarmup.1, hepoch]
            next hcohort =>
              split at h
              next hepoch =>
                have hdisabled := (invalidate_valid h).1
                rw [hon.1] at hdisabled
                cases hdisabled
              next hepoch =>
                right
                rw [if_neg hcohort, if_neg hepoch]
                refine ⟨frame, rfl, hon.2, ?_, rfl⟩
                have hsame : frame.epoch = started := not_not.mp hepoch
                simp [inCohort, hstarted, hframe, hsame, hon.1]

theorem move_valid {key : FrameKey} (h : (c.move kind key).Valid) : c.Valid := by
  cases kind with
  | rateIn => exact (exitBoundary_valid (enterRate_valid h).1).1
  | rateOut => exact (exitRate_valid (enterBoundary_valid h).1).1
  | encoderIn => exact (exitBoundary_valid h).1
  | encoderOut => exact h
  | _ => exact (exitBoundary_valid (enterBoundary_valid h).1).1

theorem Chain.close (h : Chain c) (boundary : Boundary) : Chain (c.closeBoundary boundary) := by
  have hledger : ∀ b', ((c.closeBoundary boundary).boundaries b').keys ⊆ (c.boundaries b').keys ∧
      ((c.closeBoundary boundary).boundaries b').attempts = (c.boundaries b').attempts ∧
      ((c.closeBoundary boundary).boundaries b').accepted = (c.boundaries b').accepted ∧
      ((c.closeBoundary boundary).boundaries b').rejected = (c.boundaries b').rejected ∧
      ((c.closeBoundary boundary).boundaries b').emitted = (c.boundaries b').emitted := by
    intro b'
    rw [closeBoundary_boundaries]
    by_cases hb : b' = boundary
    · rw [hb, Function.update_self]
      exact PbLoss.close_counts
    · rw [Function.update_of_ne hb]
      exact ⟨List.Subset.refl _, rfl, rfl, rfl, rfl⟩
  obtain ⟨happKeys, happAttempts, -, happRejected, happEmitted⟩ := hledger .appsrc
  obtain ⟨hrateKeys, -, hrateAccepted, -, hrateEmitted⟩ := hledger .sourceToRate
  constructor
  · rw [happRejected]
    exact h.rejected
  · rw [hrateAccepted, happEmitted]
    exact h.passed
  · rw [hrateEmitted]
    exact h.reached
  · rw [(hledger .queueToEncoder).2.2.2.2]
    exact h.timed
  · exact fun k hk => h.appKeys k (happKeys hk)
  · exact fun k hk => h.rateKeys k (hrateKeys hk)
  · exact h.lastRate
  · exact h.counted
  · intro hidle
    obtain ⟨hattempts, happ, hrate, hlast⟩ := h.idle hidle
    rw [happ] at happKeys
    rw [hrate] at hrateKeys
    exact ⟨happAttempts.trans hattempts, List.subset_nil.mp happKeys,
      List.subset_nil.mp hrateKeys, hlast⟩
  · rw [happAttempts]
    exact h.window
  · exact h.ended

theorem Chain.endOfStream (h : Chain c) : Chain (c.endOfStream kind nowUs) := by
  unfold CohortMetrics.endOfStream
  split
  · exact h
  cases kind with
  | rateOut =>
      obtain ⟨retired, hcounted⟩ := h.counted
      apply h.of_agrees
      · exact ⟨rfl, rfl, rfl, rfl, rfl, rfl⟩
      · rfl
      · rfl
      · exact ⟨_, hcounted.close⟩
      · exact h.timed
  | encoderIn =>
      have hclosed := h.close .queueToEncoder
      exact ⟨hclosed.rejected, hclosed.passed, hclosed.reached, hclosed.timed, hclosed.appKeys,
        hclosed.rateKeys, hclosed.lastRate, hclosed.counted, hclosed.idle, hclosed.window,
        hclosed.ended⟩
  | encoderOut => exact h
  | _ => exact h.close _

theorem endOfStream_valid (h : (c.endOfStream kind nowUs).Valid) : c.Valid := by
  unfold endOfStream at h
  split at h
  · exact h
  cases kind with
  | rateOut => exact ⟨h.cohort, h.boundary, h.rate⟩
  | encoderIn => exact closeBoundary_valid (b := .queueToEncoder) ⟨h.cohort, h.boundary, h.rate⟩
  | encoderOut => exact h
  | _ => exact closeBoundary_valid h

/-! ## One source frame -/

/-- What an answered push does when the cohort stays valid. -/
theorem rawResult_valid {sequence : UInt64} {accepted : Bool}
    (h : (c.rawResult sequence accepted).Valid) :
    c.rawResult sequence accepted = c ∨
    (((c.boundaries .appsrc).pushResult ⟨sequence, 0⟩ true).invalidReason = none ∧
      c.rawResult sequence accepted = { c with
        boundaries := Function.update c.boundaries .appsrc
          ((c.boundaries .appsrc).pushResult ⟨sequence, 0⟩ true) }) := by
  unfold rawResult at h ⊢
  split at h
  next hin =>
    rw [if_pos hin]
    cases accepted with
    | true =>
        right
        have hledger := h.boundary .appsrc
        simp only [↓reduceIte, Function.update_self] at hledger
        exact ⟨hledger, rfl⟩
    | false =>
        have hdisabled := (invalidate_valid h).1
        simp only [Bool.and_eq_true] at hin
        rw [hin.1.1.1] at hdisabled
        cases hdisabled
  next hout =>
    left
    rw [if_neg hout]

theorem Chain.rawResult {sequence : UInt64} {accepted : Bool} (h : Chain c)
    (hvalid : (c.rawResult sequence accepted).Valid) : Chain (c.rawResult sequence accepted) := by
  rcases rawResult_valid hvalid with heq | ⟨hledger, heq⟩
  · rw [heq]
    exact h
  obtain ⟨hkeys, hattempts, hrejected, hemitted⟩ := PbLoss.accepted_counts hledger
  have happ : (c.rawResult sequence accepted).boundaries .appsrc =
      (c.boundaries .appsrc).pushResult ⟨sequence, 0⟩ true := by
    rw [heq]
    rfl
  have hother : ∀ b', b' ≠ .appsrc →
      (c.rawResult sequence accepted).boundaries b' = c.boundaries b' := by
    intro b' hb
    rw [heq]
    exact Function.update_of_ne hb _ _
  have hrate := hother .sourceToRate (by decide)
  have hlast := hother .queueToEncoder (by decide)
  have hsame : (c.rawResult sequence accepted).rate = c.rate ∧
      (c.rawResult sequence accepted).clock = c.clock ∧
      (c.rawResult sequence accepted).nextSequence = c.nextSequence ∧
      (c.rawResult sequence accepted).firstSequence = c.firstSequence ∧
      (c.rawResult sequence accepted).endSequence = c.endSequence ∧
      (c.rawResult sequence accepted).encoderTiming = c.encoderTiming := by
    rw [heq]
    exact ⟨rfl, rfl, rfl, rfl, rfl, rfl⟩
  obtain ⟨hledgerRate, hclock, hnext, hfirst, hend, htiming⟩ := hsame
  constructor
  · rw [happ, hrejected]
    exact h.rejected
  · rw [happ, hrate, hemitted]
    exact h.passed
  · rw [hledgerRate, hrate]
    exact h.reached
  · rw [htiming, hlast]
    exact h.timed
  · rw [happ, hnext]
    exact fun k hk => h.appKeys k (hkeys hk)
  · rw [hrate, hnext]
    exact h.rateKeys
  · rw [hledgerRate, hnext]
    exact h.lastRate
  · rw [hledgerRate]
    exact h.counted
  · rw [hclock, happ, hattempts, hrate, hledgerRate]
    intro hidle
    obtain ⟨hzero, hempty, hrateEmpty, hnone⟩ := h.idle hidle
    rw [hempty] at hkeys
    exact ⟨hzero, List.subset_nil.mp hkeys, hrateEmpty, hnone⟩
  · rw [hclock, hfirst, happ, hattempts, hnext]
    exact h.window
  · rw [hclock, hend, hnext]
    exact h.ended

theorem rawResult_valid_before {sequence : UInt64} {accepted : Bool}
    (h : (c.rawResult sequence accepted).Valid) : c.Valid := by
  rcases rawResult_valid h with heq | ⟨hledger, heq⟩
  · rw [heq] at h
    exact h
  · rw [heq] at h
    exact (valid_update c.boundaries h).2 (PbLoss.pushResult_valid hledger).1

/-- A frame before the cohort is only numbered. -/
theorem Chain.warmupFrame (h : Chain c) (hidle : c.clock.startedUs = none)
    (hopen : c.clock.endedUs = none) (first next : UInt64) :
    Chain { c with nextSequence := next, firstSequence := first } := by
  obtain ⟨hattempts, hkeys, hrateKeys, hlast⟩ := h.idle hidle
  constructor
  · exact h.rejected
  · exact h.passed
  · exact h.reached
  · exact h.timed
  · intro k hk
    rw [show PbLoss.keys _ = [] from hkeys] at hk
    cases hk
  · intro k hk
    rw [show PbLoss.keys _ = [] from hrateKeys] at hk
    cases hk
  · intro s hs
    rw [show PbRateLoss.lastEnter _ = none from hlast] at hs
    cases hs
  · exact h.counted
  · exact h.idle
  · intro hstarted
    rw [show CohortClock.startedUs _ = none from hidle] at hstarted
    cases hstarted
  · intro hended
    rw [show CohortClock.endedUs _ = none from hopen] at hended
    cases hended

/-- A frame of the cohort is numbered and entered; the first one opens the
sequence range. -/
theorem Chain.cohortFrame (h : Chain c) (clock : CohortClock) (hclock : clock.endedUs = none)
    (hstarted : clock.startedUs.isSome = true)
    (hvalid : ((c.boundaries .appsrc).enter ⟨c.nextSequence, 0⟩ true).invalidReason = none) :
    Chain ({ c with
      clock := clock
      nextSequence := c.nextSequence + 1
      firstSequence := if c.clock.startedUs.isSome then c.firstSequence else c.nextSequence
      }.enterBoundary .appsrc ⟨c.nextSequence, 0⟩ true) := by
  obtain ⟨hkey, hkeys, hattempts, -, hrejected, hemitted⟩ := PbLoss.enter_counts hvalid
  have hsequence : c.nextSequence ≠ FrameKey.noKey := by
    simp only [FrameKey.valid, Bool.and_eq_true, decide_eq_true_eq] at hkey
    exact hkey.1
  have hmax := toNat_lt_noKey hsequence
  have hnext : (c.nextSequence + 1).toNat = c.nextSequence.toNat + 1 :=
    uint64_succ_toNat (lt_add_one _) (by omega)
  have hgrow : ∀ s : UInt64, s < c.nextSequence → s < c.nextSequence + 1 := by
    intro s hs
    rw [UInt64.lt_iff_toNat_lt] at hs ⊢
    omega
  constructor
  · rw [enterBoundary_boundaries, Function.update_self, hrejected]
    exact h.rejected
  · rw [enterBoundary_boundaries, Function.update_self, hemitted]
    exact h.passed
  · exact h.reached
  · exact h.timed
  · rw [enterBoundary_boundaries, Function.update_self, hkeys]
    intro k hk
    rcases List.mem_append.mp hk with hk | hk
    · exact hgrow _ (h.appKeys k hk)
    · rw [List.mem_singleton.mp hk]
      exact UInt64.lt_iff_toNat_lt.mpr (hnext ▸ lt_add_one _)
  · exact fun k hk => hgrow _ (h.rateKeys k hk)
  · exact fun s hs => hgrow _ (h.lastRate s hs)
  · exact h.counted
  · intro hidle
    have hnone : clock.startedUs = none := hidle
    rw [hnone] at hstarted
    cases hstarted
  · intro _
    rw [enterBoundary_boundaries, Function.update_self, hattempts]
    change UInt64.toNat (if c.clock.startedUs.isSome then c.firstSequence else c.nextSequence) + _ =
      (c.nextSequence + 1).toNat ∧ _
    rw [hnext]
    cases hwas : c.clock.startedUs with
    | none =>
        rw [(h.idle hwas).1]
        exact ⟨rfl, by decide⟩
    | some started =>
        obtain ⟨hrange, hsome⟩ := h.window (by rw [hwas]; rfl)
        have hsucc : ((c.boundaries .appsrc).attempts + 1).toNat =
            (c.boundaries .appsrc).attempts.toNat + 1 :=
          uint64_succ_toNat (lt_add_one _) (by omega)
        rw [hsucc]
        refine ⟨?_, ?_⟩
        · simp only [Option.isSome_some, ↓reduceIte]
          omega
        · intro hzero
          rw [hzero] at hsucc
          cases hsucc
  · intro hended
    have hsome : clock.endedUs.isSome = true := hended
    rw [hclock] at hsome
    cases hsome

/-- A stamp that leaves the cohort valid. -/
theorem stamp_valid {wasStarted entered stamped : Bool}
    (h : (c.stamp wasStarted entered stamped).Valid) (henabled : c.enabled = true) :
    c.stamp wasStarted entered stamped = c.stamp wasStarted entered true := by
  cases stamped with
  | true => rfl
  | false =>
      exfalso
      unfold stamp at h
      dsimp only at h
      have hbefore : (CohortMetrics.invalidate { c with
          nextSequence := c.nextSequence + 1
          firstSequence :=
            if !wasStarted && c.clock.startedUs.isSome then c.nextSequence else c.firstSequence }
          "cannot-stamp-frame-metadata").Valid := by
        cases entered with
        | true => exact (enterBoundary_valid h).1
        | false => exact h
      have hdisabled := (invalidate_valid hbefore).1
      rw [show CohortMetrics.enabled _ = c.enabled from rfl, henabled] at hdisabled
      cases hdisabled

theorem stamp_valid_before {wasStarted entered stamped : Bool} (henabled : c.enabled = true)
    (h : (c.stamp wasStarted entered stamped).Valid) : c.Valid := by
  rw [stamp_valid h henabled] at h
  cases entered with
  | true =>
      have hbefore := (enterBoundary_valid h).1
      exact ⟨hbefore.cohort, hbefore.boundary, hbefore.rate⟩
  | false => exact ⟨h.cohort, h.boundary, h.rate⟩

/-- The clock is all that `pb_wfd_telemetry_raw_begin` changes before it stamps
the frame. -/
theorem rawBegin_valid {stamped : Bool} (h : (c.rawBegin nowUs stamped).Valid) : c.Valid := by
  unfold rawBegin at h
  split at h
  · exact h
  next hoff =>
    have henabled : c.enabled = true := by simpa using hoff
    dsimp only at h
    split at h
    · split at h
      · exact ⟨h.cohort, h.boundary, h.rate⟩
      · exact ⟨h.cohort, h.boundary, h.rate⟩
    · have hbefore := stamp_valid_before (by exact henabled) h
      exact ⟨hbefore.cohort, hbefore.boundary, hbefore.rate⟩
    · have hbefore := stamp_valid_before (by exact henabled) h
      exact ⟨hbefore.cohort, hbefore.boundary, hbefore.rate⟩

theorem rawBegin_clock {stamped : Bool} : (c.rawBegin nowUs stamped).clock =
    if c.enabled then (c.clock.cohortAdmit nowUs).1 else c.clock := by
  unfold rawBegin
  cases c.enabled with
  | false => rfl
  | true =>
      simp only [Bool.not_true, Bool.false_eq_true, ↓reduceIte]
      split
      · split <;> rfl
      · exact (sameRange_stamp _ _ _).clock
      · exact (sameRange_stamp _ _ _).clock

theorem Chain.rawBegin {stamped : Bool} (h : Chain c) (hclock : c.clock.Timely nowUs)
    (hvalid : (c.rawBegin nowUs stamped).Valid) : Chain (c.rawBegin nowUs stamped) := by
  unfold CohortMetrics.rawBegin at hvalid ⊢
  split at hvalid
  next hoff =>
      rw [if_pos hoff]
      exact h
  next hon =>
      rw [if_neg hon]
      have henabled : c.enabled = true := by simpa using hon
      dsimp only at hvalid ⊢
      rcases hclock.cohortAdmit with ⟨heq, hended⟩ | ⟨heq, hidle, hopen⟩ |
        ⟨started, hstarted, hopen, heq⟩ | ⟨hopen, -, heq⟩
      · rw [heq]
        have hsome : c.clock.endedUs.isNone = false := by
          rw [← Option.not_isSome, hended]
          rfl
        simp only [hsome, Bool.false_eq_true, ↓reduceIte]
        exact h
      · rw [heq] at hvalid ⊢
        dsimp only at hvalid ⊢
        rw [stamp_valid hvalid henabled]
        exact h.warmupFrame hidle hopen _ _
      · rw [heq]
        simp only [hopen, Option.isNone_none, ↓reduceIte]
        exact ⟨h.rejected, h.passed, h.reached, h.timed, h.appKeys, h.rateKeys, h.lastRate,
          h.counted, h.idle, h.window, fun _ => rfl⟩
      · rw [heq] at hvalid ⊢
        dsimp only at hvalid ⊢
        have hstamp := stamp_valid hvalid henabled
        rw [hstamp] at hvalid ⊢
        have henter := (enterBoundary_valid hvalid).2
        have hframe := h.cohortFrame
          { c.clock with startedUs := some (c.clock.startedUs.getD nowUs) } hopen rfl henter
        have hfirst : (if !c.clock.startedUs.isSome && true then c.nextSequence
            else c.firstSequence) =
            if c.clock.startedUs.isSome then c.firstSequence else c.nextSequence := by
          cases c.clock.startedUs <;> rfl
        unfold stamp
        simp only [Option.isSome_some, hfirst, ↓reduceIte]
        exact hframe

end Calls

end CohortMetrics

/-! ## One call, and a run -/

namespace Metrics

open CohortMetrics

variable {m : Metrics} {nowUs : UInt64}

theorem encoderInput_cohort {b : Buffer} : (m.encoderInput b nowUs).cohort =
    if m.cohort.inCohort b then
      { m.cohort with
        encoderTiming := m.cohort.encoderTiming.enter (m.timingKey .encoderIn b) nowUs }
    else m.cohort := rfl

/-- A buffer at a probe, with the table of the encoder. -/
theorem countBuffer_chain {kind : ProbeKind} {b : Buffer} (h : m.cohort.Valid → m.cohort.Chain)
    (hclock : m.cohort.clock.Timely nowUs) (hvalid : (m.countBuffer kind b nowUs).cohort.Valid) :
    (m.countBuffer kind b nowUs).cohort.Chain := by
  have hbuffer : (m.cohort.buffer kind b).Valid → kind ≠ .encoderIn →
      (m.cohort.buffer kind b).Chain := by
    intro hvalid hkind
    rcases buffer_valid hclock hvalid with ⟨heq, -⟩ | ⟨frame, -, -, -, heq⟩
    · rw [heq] at hvalid ⊢
      exact h hvalid
    · rw [heq] at hvalid ⊢
      exact (h (move_valid hvalid)).move hkind hvalid
  by_cases hinput : kind = .encoderIn
  · subst hinput
    have hcohort : (m.countBuffer .encoderIn b nowUs).cohort =
        if (m.cohort.buffer .encoderIn b).inCohort b then
          { m.cohort.buffer .encoderIn b with
            encoderTiming := (m.cohort.buffer .encoderIn b).encoderTiming.enter
              (m.timingKey .encoderIn b) nowUs }
        else m.cohort.buffer .encoderIn b := rfl
    have hmoved : (m.cohort.buffer .encoderIn b).Valid := by
      rw [hcohort] at hvalid
      split at hvalid
      · exact ⟨hvalid.cohort, hvalid.boundary, hvalid.rate⟩
      · exact hvalid
    rcases buffer_valid hclock hmoved with ⟨heq, hout⟩ | ⟨frame, hframe, -, hin, heq⟩
    · rw [hcohort, heq, hout rfl]
      rw [heq] at hmoved
      exact h hmoved
    · have hsame : (m.cohort.buffer .encoderIn b).inCohort b = true := by
        rw [heq]
        exact hin
      rw [hcohort, hsame, heq]
      rw [heq] at hmoved
      obtain ⟨hagrees, hrate, htiming, hemitted⟩ :=
        move_behind (by decide) (by decide) (by decide) hmoved
      have h := h (move_valid hmoved)
      apply h.of_agrees
      · exact ⟨hagrees.clock, hagrees.next, hagrees.first, hagrees.last, hagrees.appsrc,
          hagrees.sourceToRate⟩
      · exact congrArg PbRateLoss.entered hrate
      · exact congrArg PbRateLoss.lastEnter hrate
      · exact hrate.symm ▸ h.counted
      · refine (PbTiming.enter_entered _ _ _).trans ?_
        rw [htiming, h.timed]
        exact hemitted.symm
  by_cases houtput : kind = .encoderOut
  · subst houtput
    obtain ⟨unknown, frames, unmarked, timing, hentered, hcohort⟩ :=
      encoderOutput_cohort { m with cohort := m.cohort.buffer .encoderOut b } b nowUs
    have hall : (m.countBuffer .encoderOut b nowUs).cohort = _ := hcohort
    rw [hall] at hvalid ⊢
    have hmoved : (m.cohort.buffer .encoderOut b).Valid :=
      ⟨hvalid.cohort, hvalid.boundary, hvalid.rate⟩
    have hchain := hbuffer hmoved hinput
    apply hchain.of_agrees
    · exact ⟨rfl, rfl, rfl, rfl, rfl, rfl⟩
    · rfl
    · rfl
    · exact hchain.counted
    · exact hentered.trans hchain.timed
  · have hcohort : (m.countBuffer kind b nowUs).cohort = m.cohort.buffer kind b := by
      cases kind <;> first | rfl | contradiction
    rw [hcohort] at hvalid ⊢
    exact hbuffer hvalid hinput

theorem call_timely (c : ProbeCall) (h : m.cohort.clock.Timely nowUs) :
    (m.call nowUs c).cohort.clock.Timely nowUs := by
  by_cases hstreaming : c = .streaming
  · subst hstreaming
    rw [call, CohortMetrics.streaming]
    split
    · exact h.streaming
    · exact h
  by_cases hbegin : ∃ stamped, c = .rawBegin stamped
  · obtain ⟨stamped, rfl⟩ := hbegin
    rw [call, rawBegin_clock]
    split
    · exact h.admitted
    · exact h
  · rw [(sameRange_call hstreaming fun stamped heq => hbegin ⟨stamped, heq⟩).clock]
    exact h

/-- A call that leaves the cohort valid keeps the chain. -/
theorem call_chain (c : ProbeCall) (h : m.cohort.Valid → m.cohort.Chain)
    (hclock : m.cohort.clock.Timely nowUs) (hvalid : (m.call nowUs c).cohort.Valid) :
    (m.call nowUs c).cohort.Chain := by
  have hevent : (∃ kind format, c = .segment kind format) ∨ (∃ kind, c = .flushStop kind) ∨
      (∃ kind caps, c = .caps kind caps) ∨ (∃ reason, c = .abort reason) →
      (m.call nowUs c).cohort.Chain := by
    intro hcall
    rcases event_cohort hcall with heq | ⟨reason, heq⟩
    · rw [heq] at hvalid ⊢
      exact h hvalid
    · rw [heq] at hvalid ⊢
      have hsame := (invalidate_valid hvalid).2
      rw [hsame] at hvalid ⊢
      exact h hvalid
  cases c with
  | attach kind =>
      have heq : (m.call nowUs (.attach kind)).cohort = m.cohort := by
        rw [call, attach]
        split <;> rfl
      rw [heq] at hvalid ⊢
      exact h hvalid
  | encoderReady => exact h hvalid
  | streaming =>
      have hbefore : m.cohort.Valid := by
        rw [call, CohortMetrics.streaming] at hvalid
        split at hvalid
        · exact ⟨hvalid.cohort, hvalid.boundary, hvalid.rate⟩
        · exact hvalid
      have hchain := h hbefore
      rw [call, CohortMetrics.streaming]
      split
      · exact ⟨hchain.rejected, hchain.passed, hchain.reached, hchain.timed, hchain.appKeys,
          hchain.rateKeys, hchain.lastRate, hchain.counted, hchain.idle, hchain.window,
          hchain.ended⟩
      · exact hchain
  | rawBegin stamped => exact (h (rawBegin_valid hvalid)).rawBegin hclock hvalid
  | rawResult sequence accepted => exact (h (rawResult_valid_before hvalid)).rawResult hvalid
  | buffer kind b => exact countBuffer_chain h hclock hvalid
  | eos kind => exact (h (endOfStream_valid hvalid)).endOfStream
  | segment kind format => exact hevent (Or.inl ⟨kind, format, rfl⟩)
  | flushStop kind => exact hevent (Or.inr (Or.inl ⟨kind, rfl⟩))
  | caps kind caps => exact hevent (Or.inr (Or.inr (Or.inl ⟨kind, caps, rfl⟩)))
  | abort reason => exact hevent (Or.inr (Or.inr (Or.inr ⟨reason, rfl⟩)))

end Metrics

section Run

variable {warmupMs durationMs : Int} {m : Metrics} {nowUs : UInt64}

theorem milliseconds_pos {ms : Int} (hpos : 0 < ms) (hbound : ms ≤ 14395000) :
    0 < UInt64.ofInt ms * 1000 := by
  obtain ⟨n, rfl⟩ := Int.eq_ofNat_of_zero_le hpos.le
  have hnat : (UInt64.ofInt (n : Int) * 1000).toNat = n * 1000 := by
    have hvalue : (UInt64.ofInt (n : Int)).toNat = n := by
      rw [UInt64.ofInt, UInt64.toNat_ofNat']
      omega
    rw [UInt64.toNat_mul, hvalue]
    change n * 1000 % 2 ^ 64 = n * 1000
    omega
  rw [UInt64.lt_iff_toNat_lt, hnat]
  change 0 < n * 1000
  omega

theorem Reached.timely (h : Reached warmupMs durationMs m nowUs)
    (hwarmup : 0 < UInt64.ofInt warmupMs * 1000) (hduration : 0 < UInt64.ofInt durationMs * 1000) :
    m.cohort.clock.Timely nowUs := by
  induction h with
  | configured nowUs =>
      refine ⟨hwarmup, hduration, ?_, ?_, ?_⟩
      · intro streaming hstreaming
        cases hstreaming
      · intro started hstarted
        cases hstarted
      · intro hended
        cases hended
  | call c _ hlater ih => exact Metrics.call_timely c (ih.later hlater)

theorem Reached.chain (h : Reached warmupMs durationMs m nowUs)
    (hwarmup : 0 < UInt64.ofInt warmupMs * 1000) (hduration : 0 < UInt64.ofInt durationMs * 1000) :
    m.cohort.Valid → m.cohort.Chain := by
  induction h with
  | configured nowUs => exact fun _ => CohortMetrics.chain_configure warmupMs durationMs
  | call c before hlater ih =>
      exact Metrics.call_chain c ih ((before.timely hwarmup hduration).later hlater)

end Run

/-- What `cohort_problem` found when it found nothing. -/
structure Settled (m : Metrics) : Prop where
  valid : m.cohort.Valid
  started : m.cohort.clock.startedUs.isSome = true
  ended : m.cohort.clock.endedUs.isSome = true
  rate : m.cohort.rate.complete = true
  boundary : ∀ b, (m.cohort.boundaries b).complete = true
  balanced : (m.cohort.boundaries .appsrc).accepted + m.cohort.rate.duplicated =
    (m.cohort.boundaries .queueToEncoder).emitted + m.cohort.dropped

theorem settled_of_no_problem {m : Metrics} (h : m.cohortProblem = none) : Settled m := by
  unfold Metrics.cohortProblem at h
  dsimp only at h
  split at h
  · cases h
  split at h
  next hreason =>
    rw [h] at hreason
    cases hreason
  next hcohort =>
  split at h
  next hreason =>
    rw [h] at hreason
    cases hreason
  next hboundary =>
  split at h
  next hreason =>
    rw [h] at hreason
    cases hreason
  next hrate =>
  split at h
  · cases h
  split at h
  · cases h
  next hstarted =>
  split at h
  · cases h
  next hended =>
  split at h
  · cases h
  split at h
  · cases h
  next hcomplete =>
  split at h
  · cases h
  next hledgers =>
  split at h
  · cases h
  next hbalanced =>
  have hvalid : ∀ b, (m.cohort.boundaries b).invalidReason = none := by
    intro b
    rw [Option.not_isSome_iff_eq_none, List.findSome?_eq_none_iff] at hboundary
    exact hboundary b (Boundary.mem_all b)
  refine ⟨⟨by simpa using hcohort, hvalid, by simpa using hrate⟩, by simpa [Option.isSome_iff_ne_none] using hstarted,
    by simpa [Option.isSome_iff_ne_none] using hended, by simpa using hcomplete, ?_, by simpa using hbalanced⟩
  intro b
  have hall := hledgers
  simp only [List.any_eq_true, Bool.not_eq_true', not_exists, not_and, Bool.not_eq_false] at hall
  exact hall b (Boundary.mem_all b)

/-- The counts of the receipt are below 10^8, and the sequences are numbers that
can be printed. -/
structure CountsBelow (c : CohortMetrics) : Prop where
  accepted : (c.boundaries .appsrc).accepted.toNat < 10 ^ 8
  emitted : (c.boundaries .queueToEncoder).emitted.toNat < 10 ^ 8
  duplicated : c.rate.duplicated.toNat < 10 ^ 8
  rateDropped : c.rate.dropped.toNat < 10 ^ 8
  dropped : ∀ b, (c.boundaries b).dropped.toNat < 10 ^ 8
  sequence : c.endSequence.toNat < 2 ^ 63

theorem printed_eq {value : UInt64} (h : value.toNat < 2 ^ 63) :
    Metrics.printed value = value.toNat := by
  rw [Metrics.printed, Int64.toInt, UInt64.toInt64, BitVec.toInt_eq_toNat_of_lt]
  · rfl
  · change 2 * value.toNat < 2 ^ 64
    omega

/-- A sum of counters that fits. -/
theorem foldl_toNat {count : Boundary → UInt64} (bs : List Boundary) (total : UInt64)
    (h : total.toNat + (bs.map fun b => (count b).toNat).sum < 2 ^ 64) :
    (bs.foldl (fun total b => total + count b) total).toNat =
      total.toNat + (bs.map fun b => (count b).toNat).sum := by
  induction bs generalizing total with
  | nil => rfl
  | cons b rest ih =>
      rw [List.map_cons, List.sum_cons] at h ⊢
      have hadd : (total + count b).toNat = total.toNat + (count b).toNat := by
        rw [UInt64.toNat_add]
        exact Nat.mod_eq_of_lt (by omega)
      rw [List.foldl_cons, ih _ (by omega), hadd, Nat.add_assoc]

theorem sum_lt (count : Boundary → UInt64) {bound : Nat} (bs : List Boundary)
    (h : ∀ b, (count b).toNat < bound) :
    (bs.map fun b => (count b).toNat).sum ≤ bs.length * bound := by
  induction bs with
  | nil => exact Nat.zero_le _
  | cons b rest ih =>
      rw [List.map_cons, List.sum_cons, List.length_cons, Nat.add_mul, Nat.one_mul]
      have hb := h b
      omega

theorem uint64_add_toNat {a b : UInt64} (h : a.toNat + b.toNat < 2 ^ 64) :
    (a + b).toNat = a.toNat + b.toNat := by
  rw [UInt64.toNat_add]
  exact Nat.mod_eq_of_lt h

/-- The sources that reached the rate converter are fewer than the sequences. -/
theorem CohortMetrics.Chain.entered_le {c : CohortMetrics} (h : c.Chain) :
    c.rate.entered.toNat ≤ c.nextSequence.toNat := by
  obtain ⟨retired, hcounted⟩ := h.counted
  rw [hcounted.entered]
  refine hcounted.enter_bound.trans ?_
  exact bound_lt h.lastRate

section Receipt

variable {m : Metrics} {nowUs : UInt64} {mean : Rat}

/-- The sources that survive, of the sources that were accepted. -/
theorem survivors_of_settled (h : Settled m) (hchain : m.cohort.Chain)
    (hbelow : CountsBelow m.cohort) :
    (m.cohort.boundaries .appsrc).accepted.toNat = m.cohort.rate.entered.toNat +
      (m.cohort.boundaries .sourceToRate).dropped.toNat +
      (m.cohort.boundaries .appsrc).dropped.toNat := by
  obtain ⟨-, -, -, -, happ⟩ := PbLoss.complete_iff.mp (h.boundary .appsrc)
  obtain ⟨-, -, -, -, hrate⟩ := PbLoss.complete_iff.mp (h.boundary .sourceToRate)
  have hentered := hchain.entered_le
  rw [← hchain.ended h.ended] at hentered
  have hsequence := hbelow.sequence
  have hdropped := hbelow.dropped .appsrc
  have hdropped' := hbelow.dropped .sourceToRate
  rw [happ, ← hchain.passed, hrate, ← hchain.reached]
  have hinner : (m.cohort.rate.entered + (m.cohort.boundaries .sourceToRate).dropped).toNat =
      m.cohort.rate.entered.toNat + (m.cohort.boundaries .sourceToRate).dropped.toNat :=
    uint64_add_toNat (by omega)
  rw [uint64_add_toNat (by omega), hinner]

/-- The printed drops add up to the printed total. -/
theorem droppedTotal_of_below (nowUs : UInt64) (mean : Rat)
    (hbelow : CountsBelow m.cohort) :
    (m.addCohort nowUs mean).droppedTotal = m.cohort.dropped.toNat ∧
      m.cohort.dropped.toNat ≤ 10 ^ 9 := by
  have hrate := hbelow.rateDropped
  have hsum := sum_lt (fun b => (m.cohort.boundaries b).dropped) Boundary.all
    hbelow.dropped
  rw [show Boundary.all.length = 9 from rfl] at hsum
  have htotal : m.cohort.dropped.toNat = m.cohort.rate.dropped.toNat +
      (Boundary.all.map fun b => (m.cohort.boundaries b).dropped.toNat).sum :=
    foldl_toNat Boundary.all m.cohort.rate.dropped (by omega)
  have hprinted : Boundary.all.map (m.addCohort nowUs mean).boundaryFramesDropped =
      Boundary.all.map fun b => ((m.cohort.boundaries b).dropped.toNat : Int) := by
    apply List.map_congr_left
    intro b _
    have hb := hbelow.dropped b
    exact printed_eq (by omega)
  have hcast : (Boundary.all.map fun b => ((m.cohort.boundaries b).dropped.toNat : Int)).sum =
      ((Boundary.all.map fun b => (m.cohort.boundaries b).dropped.toNat).sum : Nat) := by
    rw [Nat.cast_list_sum, List.map_map]
    rfl
  have hratePrinted : (m.addCohort nowUs mean).rateSourceFramesDropped =
      m.cohort.rate.dropped.toNat := printed_eq (by omega)
  refine ⟨?_, by omega⟩
  rw [Cohort.droppedTotal, hprinted, hcast, hratePrinted, htotal]
  push_cast
  omega

/-- The receipt of a calibration whose cohort has no problem passes the checks
that the measurement makes of the counts of a complete cohort. -/
theorem receipt_counts_agree {warmupMs durationMs : Int}
    {raw adopted continuous secondsExplicit list selfTest : Bool} {atUs : UInt64}
    (hbounds : calibrationRejection true true warmupMs durationMs raw adopted continuous
      secondsExplicit list selfTest = none)
    (hreached : Reached warmupMs durationMs m atUs) (hproblem : m.cohortProblem = none)
    (hbelow : CountsBelow m.cohort) :
    (m.addCohort nowUs mean).complete = true ∧ (m.addCohort nowUs mean).CountsAgree ∧
      (m.addCohort nowUs mean).countsInvalid = false := by
  obtain ⟨hwarmup, hwarmup', hduration, hduration', -⟩ := calibration_bounds hbounds
  have hsettled := settled_of_no_problem hproblem
  have hchain := hreached.chain (milliseconds_pos (by omega) (by omega))
    (milliseconds_pos (by omega) (by omega)) hsettled.valid
  obtain ⟨hwindow, hattempts⟩ := hchain.window hsettled.started
  obtain ⟨-, -, -, hanswered, -⟩ := PbLoss.complete_iff.mp (hsettled.boundary .appsrc)
  rw [hchain.rejected, UInt64.add_zero] at hanswered
  rw [← hchain.ended hsettled.ended] at hwindow
  rw [hanswered] at hwindow hattempts
  have hsurvivors := survivors_of_settled hsettled hchain hbelow
  obtain ⟨-, hrateValid, hratePending, -⟩ := PbRateLoss.complete_iff.mp hsettled.rate
  obtain ⟨retired, hcounted⟩ := hchain.counted
  obtain ⟨hrateLe, hrateZero⟩ := hcounted.survivors hratePending
  obtain ⟨htotal, htotalLe⟩ := droppedTotal_of_below nowUs mean hbelow
  have haccepted := hbelow.accepted
  have hemitted := hbelow.emitted
  have hduplicated := hbelow.duplicated
  have hrateDropped := hbelow.rateDropped
  have hdropped := hbelow.dropped .appsrc
  have hdropped' := hbelow.dropped .sourceToRate
  have hsequence := hbelow.sequence
  -- the printed counts are the counts
  have hacceptedEq : (m.addCohort nowUs mean).acceptedSourceFrames =
      (m.cohort.boundaries .appsrc).accepted.toNat := printed_eq (by omega)
  have hemittedEq : (m.addCohort nowUs mean).emittedWireFrames =
      (m.cohort.boundaries .queueToEncoder).emitted.toNat := printed_eq (by omega)
  have hduplicatedEq : (m.addCohort nowUs mean).rateFramesDuplicated =
      m.cohort.rate.duplicated.toNat := printed_eq (by omega)
  have hrateDroppedEq : (m.addCohort nowUs mean).rateSourceFramesDropped =
      m.cohort.rate.dropped.toNat := printed_eq (by omega)
  have hdroppedEq : (m.addCohort nowUs mean).boundaryFramesDropped .appsrc =
      (m.cohort.boundaries .appsrc).dropped.toNat := printed_eq (by omega)
  have hdroppedEq' : (m.addCohort nowUs mean).boundaryFramesDropped .sourceToRate =
      (m.cohort.boundaries .sourceToRate).dropped.toNat := printed_eq (by omega)
  have hfirstEq : Metrics.printed m.cohort.firstSequence = m.cohort.firstSequence.toNat :=
    printed_eq (by omega)
  have hlastEq : Metrics.printed m.cohort.endSequence = m.cohort.endSequence.toNat :=
    printed_eq (by omega)
  have hsurviving : (m.addCohort nowUs mean).survivingSource =
      (m.cohort.rate.entered.toNat : Int) - m.cohort.rate.dropped.toNat := by
    rw [Cohort.survivingSource, hacceptedEq, hdroppedEq, hdroppedEq', hrateDroppedEq]
    omega
  have hagree : (m.addCohort nowUs mean).CountsAgree := by
    constructor
    · rw [hacceptedEq]
      intro hzero
      exact hattempts (UInt64.toNat_inj.mp (by exact_mod_cast hzero))
    · exact congrArg Metrics.printed hchain.rejected
    · obtain ⟨started, hstarted⟩ := Option.isSome_iff_exists.mp hsettled.started
      obtain ⟨ended, hended⟩ := Option.isSome_iff_exists.mp hsettled.ended
      refine ⟨Metrics.printed m.cohort.firstSequence, Metrics.printed m.cohort.endSequence,
        ?_, ?_, ?_⟩
      · simp [Metrics.addCohort, hstarted]
      · simp [Metrics.addCohort, hended]
      · rw [hfirstEq, hlastEq, hacceptedEq]
        omega
    · rw [hsurviving]
      omega
    · rw [hsurviving, hduplicatedEq]
      intro hzero
      rw [hrateZero (by omega)]
      rfl
    · rw [htotal]
      have hprinted : Metrics.printed m.cohort.dropped = m.cohort.dropped.toNat :=
        printed_eq (by omega)
      simp [Metrics.addCohort, hproblem, hprinted]
    · rw [hacceptedEq, hduplicatedEq, hemittedEq, htotal]
      have hbalanced := congrArg UInt64.toNat hsettled.balanced
      rw [uint64_add_toNat (by omega), uint64_add_toNat (by omega)] at hbalanced
      exact_mod_cast hbalanced
    · exact congrArg Metrics.printed hchain.timed
  refine ⟨?_, hagree, Cohort.countsInvalid_eq_false_iff.mpr hagree⟩
  simp [Metrics.addCohort, hproblem]

/-- One frame from the source to the encoder, and the end of the window. -/
theorem receipt_counts_agree_one_frame :
    let tagged : Buffer := ⟨some ⟨5000001, 0⟩, 7, 7⟩
    let calls : List (UInt64 × ProbeCall) :=
      ProbeKind.all.map (fun kind => (1, .attach kind)) ++
      [(1, .streaming), (5000001, .rawBegin true), (5000001, .rawResult 0 true)] ++
      ProbeKind.all.map (fun kind => (5000002, .buffer kind tagged)) ++
      [(35000001, .rawBegin true)] ++
      ProbeKind.all.map (fun kind => (35000002, .eos kind))
    (((Metrics.configure 5000 30000).run calls).addCohort 35000003 0).countsInvalid = false := by
  intro tagged calls
  have hstart : Reached 5000 30000 (Metrics.configure 5000 30000) 0 := .configured 0
  have hrun : ∃ laterUs, Reached 5000 30000 ((Metrics.configure 5000 30000).run calls) laterUs :=
    hstart.run (by decide)
  obtain ⟨laterUs, hreached⟩ := hrun
  have hbounds : calibrationRejection true true 5000 30000 true true false false false false =
      none := by decide
  have hproblem : ((Metrics.configure 5000 30000).run calls).cohortProblem = none := by
    decide +kernel
  have hbelow : CountsBelow ((Metrics.configure 5000 30000).run calls).cohort := by
    constructor
    · decide +kernel
    · decide +kernel
    · decide +kernel
    · decide +kernel
    · decide +kernel
    · decide +kernel
  exact (receipt_counts_agree hbounds hreached hproblem hbelow).2.2

end Receipt

end HccastWired.Telemetry
