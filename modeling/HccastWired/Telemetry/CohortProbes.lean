import HccastWired.Telemetry.Receipt
import HccastWired.Telemetry.RateLedger
import HccastWired.Telemetry.TimingTable

/-!
# The cohort behind the native probes

The worker stamps each source frame with its sequence, and the probes along the
pipeline move the stamped frames through nine loss ledgers and the rate ledger.
Each call runs under the lock and reads the clock once.
-/

namespace HccastWired.Telemetry

/-- `pb_calibration_rejection`. -/
def calibrationRejection (warmupSet durationSet : Bool) (warmupMs durationMs : Int)
    (raw adopted continuous secondsExplicit list selfTest : Bool) : Option String :=
  if !warmupSet && !durationSet then none
  else if !warmupSet || !durationSet then some "calibration-requires-warmup-and-duration"
  else if !raw || !adopted || list || selfTest then some "calibration-requires-adopted-raw-session"
  else if continuous || secondsExplicit then some "calibration-has-its-own-bounded-duration"
  else if warmupMs < 5000 ∨ warmupMs > 60000 ∨ durationMs < 30000 ∨ durationMs > 14335000 ∨
      warmupMs + durationMs > 14395000 then
    some "calibration-time-bounds"
  else none

/-- The bounds of an accepted calibration. -/
theorem calibration_bounds {warmupMs durationMs : Int}
    {raw adopted continuous secondsExplicit list selfTest : Bool}
    (h : calibrationRejection true true warmupMs durationMs raw adopted continuous
      secondsExplicit list selfTest = none) :
    5000 ≤ warmupMs ∧ warmupMs ≤ 60000 ∧ 30000 ≤ durationMs ∧ durationMs ≤ 14335000 ∧
      warmupMs + durationMs ≤ 14395000 := by
  simp only [calibrationRejection, Bool.not_true, Bool.and_self, Bool.or_self, Bool.false_eq_true,
    ↓reduceIte] at h
  split at h
  · cases h
  split at h
  · cases h
  split at h
  · cases h
  next hbounds =>
    simp only [not_or, not_lt] at hbounds
    exact hbounds

/-- `PbCohortClock`, with its flags as options. -/
structure CohortClock where
  warmupUs : UInt64
  durationUs : UInt64
  streamingUs : Option UInt64
  startedUs : Option UInt64
  endedUs : Option UInt64
deriving DecidableEq, Repr

/-- What `pb_cohort_admit` returns: 0, 1 or -1. -/
inductive Admission
  | warmup
  | cohort
  | eos
deriving DecidableEq, Repr

namespace CohortClock

def zero : CohortClock :=
  { warmupUs := 0, durationUs := 0, streamingUs := none, startedUs := none, endedUs := none }

def streaming (c : CohortClock) (nowUs : UInt64) : CohortClock :=
  { c with streamingUs := c.streamingUs.or (some nowUs) }

/-- Streaming has lasted for the warm-up. -/
def warm (c : CohortClock) (nowUs : UInt64) : Bool :=
  match c.streamingUs with
  | some streaming => !(decide (nowUs < streaming) || decide (nowUs - streaming < c.warmupUs))
  | none => false

def cohortAdmit (c : CohortClock) (nowUs : UInt64) : CohortClock × Admission :=
  if c.endedUs.isSome then (c, .eos)
  else if !c.warm nowUs then (c, .warmup)
  else
    let started := c.startedUs.getD nowUs
    if started ≤ nowUs ∧ c.durationUs ≤ nowUs - started then
      ({ c with startedUs := some started, endedUs := some nowUs }, .eos)
    else ({ c with startedUs := some started }, .cohort)

end CohortClock

inductive ProbeKind
  | source
  | rateIn
  | rateOut
  | scaleIn
  | scaleOut
  | convertIn
  | convertOut
  | queueIn
  | queueOut
  | encoderIn
  | encoderOut
deriving DecidableEq, Repr

def ProbeKind.all : List ProbeKind :=
  [.source, .rateIn, .rateOut, .scaleIn, .scaleOut, .convertIn, .convertOut, .queueIn, .queueOut,
    .encoderIn, .encoderOut]

/-- `PbFrameMeta`, the tag that a frame carries. -/
structure FrameMeta where
  epoch : UInt64
  sequence : UInt64
deriving DecidableEq, Repr

/-- What the probes read of a buffer: its tag, its time and its running time in
the segment of the probe. -/
structure Buffer where
  frameMeta : Option FrameMeta
  pts : UInt64
  runningTime : UInt64
deriving DecidableEq, Repr

structure Caps where
  description : String
  alignment : Option String
deriving DecidableEq, Repr

/-- `metrics.cohort`. -/
structure CohortMetrics where
  enabled : Bool
  closed : Bool
  clock : CohortClock
  nextSequence : UInt64
  firstSequence : UInt64
  endSequence : UInt64
  closedUs : UInt64
  boundaries : Boundary → PbLoss
  rate : PbRateLoss
  encoderTiming : PbTiming
  encodedFrames : UInt64
  unknownEncoded : UInt64
  encoderOutputKeyUnknown : Bool
  invalidReason : Option String

/-- The part of `metrics` that the cohort depends on. -/
structure Metrics where
  pad : ProbeKind → Bool
  segmentValid : ProbeKind → Bool
  eos : ProbeKind → Bool
  caps : ProbeKind → Option Caps
  encoderTiming : PbTiming
  encoderAttached : Bool
  alignmentAu : Bool
  cohort : CohortMetrics

namespace CohortMetrics

/-- A cleared cohort. -/
def zero : CohortMetrics :=
  { enabled := false, closed := false, clock := CohortClock.zero
    nextSequence := 0, firstSequence := 0, endSequence := 0, closedUs := 0
    boundaries := fun _ => PbLoss.zero, rate := PbRateLoss.zero, encoderTiming := PbTiming.zero
    encodedFrames := 0, unknownEncoded := 0, encoderOutputKeyUnknown := false
    invalidReason := none }

/-- `invalidate_cohort`. -/
def invalidate (c : CohortMetrics) (reason : String) : CohortMetrics :=
  if c.enabled then { c with invalidReason := c.invalidReason.or (some reason) } else c

/-- Frames belong to the cohort and the encoder has not seen its end. -/
def measuring (c : CohortMetrics) : Bool := c.clock.startedUs.isSome && !c.closed

def exitBoundary (c : CohortMetrics) (b : Boundary) (key : FrameKey) : CohortMetrics :=
  { c with boundaries := Function.update c.boundaries b ((c.boundaries b).exit key) }

def enterBoundary (c : CohortMetrics) (b : Boundary) (key : FrameKey)
    (awaitingPushResult : Bool) : CohortMetrics :=
  { c with
    boundaries := Function.update c.boundaries b ((c.boundaries b).enter key awaitingPushResult) }

def closeBoundary (c : CohortMetrics) (b : Boundary) : CohortMetrics :=
  { c with boundaries := Function.update c.boundaries b (c.boundaries b).close }

def exitRate (c : CohortMetrics) (key : FrameKey) : CohortMetrics :=
  { c with rate := c.rate.exit key }

def enterRate (c : CohortMetrics) (sequence : UInt64) : CohortMetrics :=
  { c with rate := c.rate.enter sequence }

/-- The switch of `cohort_buffer`. -/
def move (c : CohortMetrics) (kind : ProbeKind) (key : FrameKey) : CohortMetrics :=
  match kind with
  | .source => (c.exitBoundary .appsrc key).enterBoundary .sourceToRate key false
  | .rateIn => (c.exitBoundary .sourceToRate key).enterRate key.sequence
  | .rateOut => (c.exitRate key).enterBoundary .rateToScale key false
  | .scaleIn => (c.exitBoundary .rateToScale key).enterBoundary .scale key false
  | .scaleOut => (c.exitBoundary .scale key).enterBoundary .scaleToConvert key false
  | .convertIn => (c.exitBoundary .scaleToConvert key).enterBoundary .convert key false
  | .convertOut => (c.exitBoundary .convert key).enterBoundary .convertToQueue key false
  | .queueIn => (c.exitBoundary .convertToQueue key).enterBoundary .queue key false
  | .queueOut => (c.exitBoundary .queue key).enterBoundary .queueToEncoder key false
  | .encoderIn => c.exitBoundary .queueToEncoder key
  | .encoderOut => c

/-- The key of a tagged buffer at a probe: up to the rate converter the source
identity alone. -/
def keyAt (kind : ProbeKind) (frame : FrameMeta) (pts : UInt64) : FrameKey :=
  ⟨frame.sequence, if kind = .source ∨ kind = .rateIn then 0 else pts⟩

/-- `cohort_buffer`. -/
def buffer (c : CohortMetrics) (kind : ProbeKind) (buffer : Buffer) : CohortMetrics :=
  match c.clock.startedUs with
  | none => c
  | some started =>
      if !c.enabled || decide (kind = .encoderOut) then c
      else
        match buffer.frameMeta with
        | none => c.invalidate "missing-frame-metadata"
        | some frame =>
            if frame.epoch = 0 ∧ frame.sequence < c.firstSequence then c
            else if frame.epoch ≠ started then c.invalidate "wrong-cohort-epoch"
            else c.move kind (keyAt kind frame buffer.pts)

/-- `cohort_eos`. -/
def endOfStream (c : CohortMetrics) (kind : ProbeKind) (nowUs : UInt64) : CohortMetrics :=
  if !c.enabled then c
  else
    match kind with
    | .source => c.closeBoundary .appsrc
    | .rateIn => c.closeBoundary .sourceToRate
    | .rateOut => { c with rate := c.rate.close }
    | .scaleIn => c.closeBoundary .rateToScale
    | .scaleOut => c.closeBoundary .scale
    | .convertIn => c.closeBoundary .scaleToConvert
    | .convertOut => c.closeBoundary .convert
    | .queueIn => c.closeBoundary .convertToQueue
    | .queueOut => c.closeBoundary .queue
    | .encoderIn => { c.closeBoundary .queueToEncoder with closed := true, closedUs := nowUs }
    | .encoderOut => c

/-- `pb_wfd_telemetry_calibration_configure`. -/
def configure (warmupMs durationMs : Int) : CohortMetrics :=
  { zero with
    enabled := true
    clock := { CohortClock.zero with
      warmupUs := UInt64.ofInt warmupMs * 1000
      durationUs := UInt64.ofInt durationMs * 1000 } }

/-- `pb_wfd_telemetry_calibration_streaming`. -/
def streaming (c : CohortMetrics) (nowUs : UInt64) : CohortMetrics :=
  if c.enabled then { c with clock := c.clock.streaming nowUs } else c

/-- The frame that `pb_wfd_telemetry_raw_begin` lets in: it is stamped, which can
fail, and a frame of the cohort is entered. -/
def stamp (c : CohortMetrics) (wasStarted inCohort stamped : Bool) : CohortMetrics :=
  let sequence := c.nextSequence
  let c := { c with
    nextSequence := sequence + 1
    firstSequence :=
      if !wasStarted && c.clock.startedUs.isSome then sequence else c.firstSequence }
  let c := if stamped then c else c.invalidate "cannot-stamp-frame-metadata"
  if inCohort then c.enterBoundary .appsrc ⟨sequence, 0⟩ true else c

/-- `pb_wfd_telemetry_raw_begin`. -/
def rawBegin (c : CohortMetrics) (nowUs : UInt64) (stamped : Bool) : CohortMetrics :=
  if !c.enabled then c
  else
    let admitted := c.clock.cohortAdmit nowUs
    let next := { c with clock := admitted.1 }
    match admitted.2 with
    | .eos => if c.clock.endedUs.isNone then { next with endSequence := c.nextSequence } else next
    | .cohort => next.stamp c.clock.startedUs.isSome true stamped
    | .warmup => next.stamp c.clock.startedUs.isSome false stamped

/-- `pb_wfd_telemetry_raw_result`. -/
def rawResult (c : CohortMetrics) (sequence : UInt64) (accepted : Bool) : CohortMetrics :=
  if c.enabled && c.clock.startedUs.isSome && decide (c.firstSequence ≤ sequence) &&
      (c.clock.endedUs.isNone || decide (sequence < c.endSequence)) then
    let settled := { c with
      boundaries := Function.update c.boundaries .appsrc
        ((c.boundaries .appsrc).pushResult ⟨sequence, 0⟩ accepted) }
    if accepted then settled else settled.invalidate "cohort-push-not-accepted"
  else c

/-- The frames dropped at the boundaries and by the rate converter. -/
def dropped (c : CohortMetrics) : UInt64 :=
  Boundary.all.foldl (fun total b => total + (c.boundaries b).dropped) c.rate.dropped

end CohortMetrics

namespace Metrics

/-- The metrics of a worker that starts a calibration. -/
def configure (warmupMs durationMs : Int) : Metrics :=
  { pad := fun _ => false, segmentValid := fun _ => false, eos := fun _ => false
    caps := fun _ => none, encoderTiming := PbTiming.zero, encoderAttached := false
    alignmentAu := false, cohort := CohortMetrics.configure warmupMs durationMs }

def invalidateCohort (m : Metrics) (reason : String) : Metrics :=
  { m with cohort := m.cohort.invalidate reason }

/-- The key of a buffer in the timing tables. -/
def timingKey (m : Metrics) (kind : ProbeKind) (b : Buffer) : UInt64 :=
  if m.segmentValid kind && decide (b.pts ≠ FrameKey.noKey) then b.runningTime else FrameKey.noKey

/-- `count_buffer` at the encoder's input, behind `cohort_buffer`. -/
def encoderInput (m : Metrics) (b : Buffer) (nowUs : UInt64) : Metrics :=
  let key := m.timingKey .encoderIn b
  let inCohort := m.cohort.enabled && m.cohort.clock.startedUs.isSome &&
    decide (b.frameMeta.map FrameMeta.epoch = m.cohort.clock.startedUs)
  { m with
    encoderTiming := m.encoderTiming.enter key nowUs
    cohort := if inCohort then
        { m.cohort with encoderTiming := m.cohort.encoderTiming.enter key nowUs }
      else m.cohort }

/-- `count_buffer` at the encoder's output, behind `cohort_buffer`. -/
def encoderOutput (m : Metrics) (b : Buffer) (nowUs : UInt64) : Metrics :=
  let key := m.timingKey .encoderOut b
  let inputKeyKnown := (m.encoderTiming.find key).isSome
  let c := m.cohort
  { m with
    encoderTiming := m.encoderTiming.exit key nowUs
    cohort :=
      if !(c.enabled && c.clock.startedUs.isSome) then c
      else if key = FrameKey.noKey ∨ inputKeyKnown = false then
        { c with encoderOutputKeyUnknown := true }
      else if (c.encoderTiming.find key).isNone then c
      else
        { c with
          encodedFrames := if m.alignmentAu then c.encodedFrames + 1 else c.encodedFrames
          unknownEncoded := if m.alignmentAu then c.unknownEncoded else c.unknownEncoded + 1
          encoderTiming := c.encoderTiming.exit key nowUs } }

/-- `count_buffer`. -/
def countBuffer (m : Metrics) (kind : ProbeKind) (b : Buffer) (nowUs : UInt64) : Metrics :=
  let m := { m with cohort := m.cohort.buffer kind b }
  match kind with
  | .encoderIn => m.encoderInput b nowUs
  | .encoderOut => m.encoderOutput b nowUs
  | _ => m

/-- A discontinuity at the encoder's input clears its table. -/
def discontinuity (m : Metrics) (kind : ProbeKind) : Metrics :=
  if kind = .encoderIn then { m with encoderTiming := m.encoderTiming.discontinuity } else m

/-- `observe` of a segment. -/
def segment (m : Metrics) (kind : ProbeKind) (timeFormat : Bool) : Metrics :=
  let m := if m.segmentValid kind && m.cohort.measuring then
      m.invalidateCohort "segment-changed-during-cohort" else m
  { m with segmentValid := Function.update m.segmentValid kind timeFormat }.discontinuity kind

/-- `observe` of the end of a flush. -/
def flushStop (m : Metrics) (kind : ProbeKind) : Metrics :=
  let m := if m.cohort.measuring then m.invalidateCohort "flush-during-cohort" else m
  { m with segmentValid := Function.update m.segmentValid kind false }.discontinuity kind

/-- `observe` of the capabilities of the stream. -/
def setCaps (m : Metrics) (kind : ProbeKind) (caps : Caps) : Metrics :=
  let changed := (m.caps kind).any fun old => decide (old ≠ caps)
  let m := if changed && m.cohort.measuring then
      m.invalidateCohort "caps-changed-during-cohort" else m
  { m with
    caps := Function.update m.caps kind (some caps)
    alignmentAu := if kind = .encoderOut then decide (caps.alignment = some "au")
      else m.alignmentAu }

/-- `observe` of the end of the stream. -/
def endOfStream (m : Metrics) (kind : ProbeKind) (nowUs : UInt64) : Metrics :=
  { m with
    eos := Function.update m.eos kind true
    cohort := m.cohort.endOfStream kind nowUs }

/-- `attach`: a probe gets its pad once. -/
def attach (m : Metrics) (kind : ProbeKind) : Metrics :=
  if m.pad kind then m
  else
    { m with
      pad := Function.update m.pad kind true
      segmentValid := Function.update m.segmentValid kind false
      eos := Function.update m.eos kind false }

/-- The last step of `pb_wfd_telemetry_attach_encoder`. -/
def encoderReady (m : Metrics) : Metrics :=
  { m with encoderAttached := m.pad .encoderIn && m.pad .encoderOut }

/-- `cohort_problem`. -/
def cohortProblem (m : Metrics) : Option String :=
  let c := m.cohort
  if !c.enabled then some "disabled"
  else if c.invalidReason.isSome then c.invalidReason
  else if (Boundary.all.findSome? fun b => (c.boundaries b).invalidReason).isSome then
    Boundary.all.findSome? fun b => (c.boundaries b).invalidReason
  else if c.rate.invalidReason.isSome then c.rate.invalidReason
  else if ProbeKind.all.any fun kind => !m.pad kind then some "required-probe-unavailable"
  else if c.clock.startedUs.isNone then some "cohort-not-started"
  else if c.clock.endedUs.isNone then some "source-window-not-ended"
  else if !c.closed then some "encoder-sink-eos-pending"
  else if !c.rate.complete then some "rate-ledger-unsettled"
  else if Boundary.all.any fun b => !(c.boundaries b).complete then
    some "boundary-ledger-unsettled"
  else if (c.boundaries .appsrc).accepted + c.rate.duplicated ≠
      (c.boundaries .queueToEncoder).emitted + c.dropped then some "unbalanced-cohort"
  else none

/-- `(gint64)value`, as `add_int` prints it. -/
def printed (value : UInt64) : Int := value.toInt64.toInt

/-- `add_timing`; the mean is a floating-point number of the table. -/
def addTiming (t : PbTiming) (nowUs : UInt64) (mean : Rat) (available : Bool) :
    TimingReceipt :=
  { available := available
    ambiguous := t.ambiguous
    entered := printed t.entered
    exited := printed t.exited
    matched := printed t.matched
    invalid := printed t.invalid
    unmatched := printed t.unmatched
    trackingEvicted := printed t.evicted
    discontinuities := printed t.discontinuities
    lastUs := if t.matched = 0 then none else some (printed t.lastUs)
    maxUs := if t.matched = 0 then none else some (printed t.maxUs)
    meanUs := if t.matched = 0 then none else some mean
    oldestPendingAgeUs := (t.oldestAge nowUs).map printed }

/-- `add_cohort`. -/
def addCohort (m : Metrics) (nowUs : UInt64) (mean : Rat) : Cohort :=
  let c := m.cohort
  let problem := m.cohortProblem
  let countable := m.alignmentAu && decide (c.unknownEncoded = 0) &&
    !c.encoderOutputKeyUnknown && !c.encoderTiming.ambiguous &&
    decide (c.encoderTiming.evicted = 0) && decide (c.encoderTiming.invalid = 0)
  { enabled := c.enabled
    complete := problem.isNone
    closed := c.closed
    encoderSrcEosSeen := m.eos .encoderOut
    encoderOutputKeyUnknown := c.encoderOutputKeyUnknown
    requestedWarmupUs := printed c.clock.warmupUs
    requestedDurationUs := printed c.clock.durationUs
    invalidReason := problem
    streamingUs := c.clock.streamingUs.map printed
    epoch := c.clock.startedUs.map printed
    startedUs := c.clock.startedUs.map printed
    endedUs := c.clock.endedUs.map printed
    closedUs := if c.closed then some (printed c.closedUs) else none
    sourceSeqFirst := c.clock.startedUs.map fun _ => printed c.firstSequence
    sourceSeqEndExclusive := c.clock.endedUs.map fun _ => printed c.endSequence
    acceptedSourceFrames := printed (c.boundaries .appsrc).accepted
    rejectedSourceFrames := printed (c.boundaries .appsrc).rejected
    emittedWireFrames := printed (c.boundaries .queueToEncoder).emitted
    rateSourceFramesDropped := printed c.rate.dropped
    rateFramesDuplicated := printed c.rate.duplicated
    encodedFrames := if countable then some (printed c.encodedFrames) else none
    timing := addTiming c.encoderTiming nowUs mean
      (c.enabled && m.encoderAttached && !c.encoderOutputKeyUnknown)
    boundaryFramesDropped := fun b => printed (c.boundaries b).dropped
    pipelineFramesDropped := if problem.isNone then some (printed c.dropped) else none }

end Metrics

/-- A call on the metrics under their lock. -/
inductive ProbeCall
  | attach (kind : ProbeKind)
  | encoderReady
  | streaming
  | rawBegin (stamped : Bool)
  | rawResult (sequence : UInt64) (accepted : Bool)
  | buffer (kind : ProbeKind) (b : Buffer)
  | eos (kind : ProbeKind)
  | segment (kind : ProbeKind) (timeFormat : Bool)
  | flushStop (kind : ProbeKind)
  | caps (kind : ProbeKind) (caps : Caps)
  | abort (reason : String)
deriving DecidableEq, Repr

/-- A call at the time of its reading of the clock. -/
def Metrics.call (m : Metrics) (nowUs : UInt64) : ProbeCall → Metrics
  | .attach kind => m.attach kind
  | .encoderReady => m.encoderReady
  | .streaming => { m with cohort := m.cohort.streaming nowUs }
  | .rawBegin stamped => { m with cohort := m.cohort.rawBegin nowUs stamped }
  | .rawResult sequence accepted => { m with cohort := m.cohort.rawResult sequence accepted }
  | .buffer kind b => m.countBuffer kind b nowUs
  | .eos kind => m.endOfStream kind nowUs
  | .segment kind timeFormat => m.segment kind timeFormat
  | .flushStop kind => m.flushStop kind
  | .caps kind caps => m.setCaps kind caps
  | .abort reason => m.invalidateCohort reason

/-- The metrics that a calibration reaches, on a clock that does not go
backwards. -/
inductive Reached (warmupMs durationMs : Int) : Metrics → UInt64 → Prop
  | configured (nowUs : UInt64) :
      Reached warmupMs durationMs (Metrics.configure warmupMs durationMs) nowUs
  | call {m : Metrics} {nowUs laterUs : UInt64} (c : ProbeCall)
      (before : Reached warmupMs durationMs m nowUs) (hlater : nowUs ≤ laterUs) :
      Reached warmupMs durationMs (m.call laterUs c) laterUs

/-- Calls at the times of their readings. -/
def Metrics.run (m : Metrics) (calls : List (UInt64 × ProbeCall)) : Metrics :=
  calls.foldl (fun m c => m.call c.1 c.2) m

theorem Reached.run {warmupMs durationMs : Int} {m : Metrics} {nowUs : UInt64}
    {calls : List (UInt64 × ProbeCall)} (h : Reached warmupMs durationMs m nowUs)
    (hsorted : (nowUs :: calls.map Prod.fst).IsChain (· ≤ ·)) :
    ∃ laterUs, Reached warmupMs durationMs (m.run calls) laterUs := by
  induction calls generalizing m nowUs with
  | nil => exact ⟨nowUs, h⟩
  | cons c rest ih =>
      rw [List.map_cons, List.isChain_cons_cons] at hsorted
      exact ih (h.call c.2 hsorted.1) hsorted.2

end HccastWired.Telemetry
