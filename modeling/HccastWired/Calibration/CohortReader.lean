import HccastWired.Telemetry.Receipt

/-!
# Reading the receipt of the native worker

`_cohort` checks the shape of the object field by field, then whether its
closure, its counts and its timings are consistent with each other.
-/

namespace HccastWired.Calibration

open Foundation Telemetry

/-- `_number(value, low, high)`. -/
def number (value : Option PyValue) (low high : Rat) : Option Rat :=
  match value with
  | some (.number x) => x.toRat.filter fun q => decide (low ≤ q) && decide (q ≤ high)
  | _ => none

/-- `_number(value, high=high, integer=True)`. -/
def integer (value : Option PyValue) (high : Int) : Option Int :=
  match value with
  | some (.number (.int n)) => if 0 ≤ n ∧ n ≤ high then some n else none
  | _ => none

/-- The field is present, and `None` or accepted. -/
def optional {α : Type} (value : Option PyValue) (read : Option PyValue → Option α) :
    Option (Option α) :=
  match value with
  | some .none => some none
  | some v => (read (some v)).map some
  | none => none

def flag (value : Option PyValue) : Option Bool :=
  match value with
  | some (.bool b) => some b
  | _ => none

def maxRunUs : Int := 14400 * 1000000

def maxCount : Int := 10 ^ 8

def maxTime : Int := 2 ^ 63 - 1

def timingFields : List String :=
  ["available", "ambiguous", "last_us", "max_us", "mean_us", "oldest_pending_age_us", "entered",
    "exited", "matched", "invalid", "unmatched", "tracking_evicted", "discontinuities"]

def cohortFields : List String :=
  ["version", "enabled", "scope", "complete", "closed", "requested_warmup_us",
    "requested_duration_us", "invalid_reason", "source_seq_first", "source_seq_end_exclusive",
    "encoder_src_eos_seen", "encoded_frames", "encoder_output_key_unknown",
    "encoder_sink_to_src_us", "boundary_frames_dropped", "pipeline_frames_dropped",
    "accepted_source_frames", "rejected_source_frames", "emitted_wire_frames",
    "rate_source_frames_dropped", "rate_frames_duplicated", "streaming_us", "epoch", "started_us",
    "ended_us", "closed_us"]

/-- The values of `encoder_sink_to_src_us`. -/
def readTiming (t : PyValue) : Option TimingReceipt := do
  guard (t.hasKeys timingFields)
  let count name := integer (t.get name) maxCount
  let age name := optional (t.get name) fun v => integer v maxRunUs
  return {
    available := ← flag (t.get "available")
    ambiguous := ← flag (t.get "ambiguous")
    entered := ← count "entered"
    exited := ← count "exited"
    matched := ← count "matched"
    invalid := ← count "invalid"
    unmatched := ← count "unmatched"
    trackingEvicted := ← count "tracking_evicted"
    discontinuities := ← count "discontinuities"
    lastUs := ← age "last_us"
    maxUs := ← age "max_us"
    meanUs := ← optional (t.get "mean_us") fun v => number v 0 maxRunUs
    oldestPendingAgeUs := ← age "oldest_pending_age_us" }

/-- The values of `boundary_frames_dropped`. -/
def readDrops (drops : PyValue) : Option (Boundary → Int) := do
  guard (drops.hasKeys (Boundary.all.map Boundary.name))
  guard (Boundary.all.all fun b => (integer (drops.get b.name) maxCount).isSome)
  return fun b => (integer (drops.get b.name) maxCount).getD 0

/-- `invalid_reason`: absent, or a bounded text. -/
def readReason (value : Option PyValue) : Option (Option String) :=
  optional value fun v =>
    match v with
    | some (.str text) => if 1 ≤ text.length ∧ text.length ≤ 96 then some text else none
    | _ => none

/-- The values of an enabled receipt. -/
def readCohort (c : PyValue) : Option Cohort := do
  let count name := integer (c.get name) maxCount
  let time name := optional (c.get name) fun v => integer v maxTime
  let total name := optional (c.get name) fun v => integer v maxCount
  return {
    enabled := ← flag (c.get "enabled")
    complete := ← flag (c.get "complete")
    closed := ← flag (c.get "closed")
    encoderSrcEosSeen := ← flag (c.get "encoder_src_eos_seen")
    encoderOutputKeyUnknown := ← flag (c.get "encoder_output_key_unknown")
    requestedWarmupUs := ← integer (c.get "requested_warmup_us") maxRunUs
    requestedDurationUs := ← integer (c.get "requested_duration_us") maxRunUs
    invalidReason := ← readReason (c.get "invalid_reason")
    streamingUs := ← time "streaming_us"
    epoch := ← time "epoch"
    startedUs := ← time "started_us"
    endedUs := ← time "ended_us"
    closedUs := ← time "closed_us"
    sourceSeqFirst := ← time "source_seq_first"
    sourceSeqEndExclusive := ← time "source_seq_end_exclusive"
    acceptedSourceFrames := ← count "accepted_source_frames"
    rejectedSourceFrames := ← count "rejected_source_frames"
    emittedWireFrames := ← count "emitted_wire_frames"
    rateSourceFramesDropped := ← count "rate_source_frames_dropped"
    rateFramesDuplicated := ← count "rate_frames_duplicated"
    encodedFrames := ← total "encoded_frames"
    timing := ← (c.get "encoder_sink_to_src_us").bind readTiming
    boundaryFramesDropped := ← (c.get "boundary_frames_dropped").bind readDrops
    pipelineFramesDropped := ← total "pipeline_frames_dropped" }

/-- The reasons that a receipt gives while its cohort is under way. -/
def pendingReasons : List String :=
  ["cohort-not-started", "source-window-not-ended", "encoder-sink-eos-pending",
    "rate-ledger-unsettled", "boundary-ledger-unsettled", "required-probe-unavailable"]

section Checks

variable (c : Cohort)

def closureInvalid : Bool :=
  (c.complete && (!c.closed || c.invalidReason.isSome)) ||
    (!c.complete && c.invalidReason.isNone) || (c.encoderSrcEosSeen && !c.closed) ||
    c.closed != c.closedUs.isSome

/-- The counts of a complete cohort agree, and another has no total. -/
def countsRefused : Bool :=
  if c.complete then c.countsInvalid else c.pipelineFramesDropped.isSome

/-- The latest and the mean duration are at most the longest one. -/
def durationsInvalid (t : TimingReceipt) : Bool :=
  match t.lastUs, t.maxUs, t.meanUs with
  | some last, some longest, some mean => decide (longest < last) || decide ((longest : Rat) < mean)
  | _, _, _ => true

def timingInvalid : Bool :=
  let t := c.timing
  decide (t.entered < t.matched) || decide (t.exited < t.matched) ||
    decide (t.exited < t.unmatched + t.matched) ||
    (if t.matched ≠ 0 then durationsInvalid t
      else t.lastUs.isSome || t.maxUs.isSome || t.meanUs.isSome)

def encodedInvalid : Bool :=
  c.encodedFrames.any fun encoded =>
    decide (encoded ≠ c.timing.matched) || decide (c.emittedWireFrames < encoded) ||
      c.encoderOutputKeyUnknown || c.timing.ambiguous || decide (c.timing.invalid ≠ 0) ||
      decide (c.timing.trackingEvicted ≠ 0)

/-- A reason outside the pending ones is not retained as text. -/
def sanitized : Cohort :=
  { c with
    invalidReason := c.invalidReason.map fun reason =>
      if reason ∈ pendingReasons then reason else "native-reported-invalid" }

/-- The checks of an enabled receipt whose shape is accepted. -/
def checkCohort : Except String (Option Cohort) :=
  if closureInvalid c then .error "cohort_closure_invalid"
  else if countsRefused c then .error "cohort_counts_invalid"
  else if timingInvalid c then .error "cohort_timing_invalid"
  else if encodedInvalid c then .error "cohort_timing_invalid"
  else .ok (some (sanitized c))

end Checks

/-- `_cohort`: a validated cohort, none, or the error of the receipt. -/
def cohortOf (sample : PyValue) : Except String (Option Cohort) :=
  match sample.get "local_frame_accounting" with
  | none => .ok none
  | some c =>
      if !c.hasKeys cohortFields || decide (c.get "version" ≠ some (.int 1)) ||
          decide (c.get "scope" ≠ some (.str "accepted-source-to-encoder-sink")) then
        .error "cohort_shape"
      else
        match flag (c.get "enabled"), flag (c.get "complete"), flag (c.get "closed"),
          flag (c.get "encoder_src_eos_seen"), flag (c.get "encoder_output_key_unknown") with
        | some false, some complete, some closed, some _, some _ =>
            if complete || closed then .error "cohort_shape" else .ok none
        | some true, some _, some _, some _, some _ =>
            match readCohort c with
            | some cohort => checkCohort cohort
            | none => .error "cohort_shape"
        | _, _, _, _, _ => .error "cohort_shape"

/-! ## What an accepted receipt says -/

/-- The durations of a table are known as soon as it matched a pair. -/
structure Consistent (c : Cohort) : Prop where
  counts : c.complete = true → c.CountsAgree
  matched : 0 ≤ c.timing.matched
  maxUs : c.timing.maxUs.isSome = true ↔ c.timing.matched ≠ 0

theorem integer_nonneg {value : Option PyValue} {high n : Int} (h : integer value high = some n) :
    0 ≤ n := by
  unfold integer at h
  split at h
  · split at h
    next hbounds =>
      cases h
      exact hbounds.1
    · cases h
  · cases h

theorem readTiming_matched {t : PyValue} {receipt : TimingReceipt}
    (h : readTiming t = some receipt) : 0 ≤ receipt.matched := by
  unfold readTiming at h
  dsimp only at h
  -- the guard and the four fields before the count
  iterate 5 obtain ⟨_, -, h⟩ := Option.bind_eq_some_iff.mp h
  obtain ⟨matched, hmatched, h⟩ := Option.bind_eq_some_iff.mp h
  iterate 8 obtain ⟨_, -, h⟩ := Option.bind_eq_some_iff.mp h
  cases Option.some.inj h
  exact integer_nonneg hmatched

theorem readCohort_matched {value : PyValue} {c : Cohort} (h : readCohort value = some c) :
    0 ≤ c.timing.matched := by
  unfold readCohort at h
  dsimp only at h
  -- the fields before the timings
  iterate 21 obtain ⟨_, -, h⟩ := Option.bind_eq_some_iff.mp h
  obtain ⟨timing, htiming, h⟩ := Option.bind_eq_some_iff.mp h
  iterate 2 obtain ⟨_, -, h⟩ := Option.bind_eq_some_iff.mp h
  cases Option.some.inj h
  obtain ⟨t, -, hread⟩ := Option.bind_eq_some_iff.mp htiming
  exact readTiming_matched hread

theorem checkCohort_consistent {c d : Cohort} (hmatched : 0 ≤ c.timing.matched)
    (h : checkCohort c = .ok (some d)) : Consistent d := by
  unfold checkCohort at h
  split at h
  · cases h
  next hclosure =>
  split at h
  · cases h
  next hcounts =>
  split at h
  · cases h
  next htiming =>
  split at h
  · cases h
  next hencoded =>
  cases h
  constructor
  · intro hcomplete
    have hcomplete' : c.complete = true := hcomplete
    rw [countsRefused, if_pos hcomplete'] at hcounts
    have hagree := Cohort.countsInvalid_eq_false_iff.mp (Bool.eq_false_iff.mpr hcounts)
    exact ⟨hagree.accepted, hagree.rejected, hagree.range, hagree.survivors, hagree.duplicated,
      hagree.total, hagree.conserved, hagree.entered⟩
  · exact hmatched
  · change c.timing.maxUs.isSome = true ↔ c.timing.matched ≠ 0
    simp only [timingInvalid, Bool.or_eq_true, not_or] at htiming
    obtain ⟨-, hdurations⟩ := htiming
    by_cases hzero : c.timing.matched = 0
    · rw [if_neg (not_not.mpr hzero)] at hdurations
      simp only [Bool.or_eq_true, not_or] at hdurations
      constructor
      · intro hsome
        exact absurd hsome hdurations.1.2
      · exact fun hne => absurd hzero hne
    · rw [if_pos hzero] at hdurations
      refine ⟨fun _ => hzero, fun _ => ?_⟩
      unfold durationsInvalid at hdurations
      cases hmax : c.timing.maxUs with
      | some longest => rfl
      | none =>
          rw [hmax] at hdurations
          exfalso
          apply hdurations
          split
          next heq _ => cases heq
          next => rfl

end HccastWired.Calibration
