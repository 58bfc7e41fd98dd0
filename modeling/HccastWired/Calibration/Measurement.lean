import HccastWired.Calibration.CohortReader

/-!
# The accumulator of one measurement

Native and health samples are kept in the order of their timestamps. What goes
wrong is recorded as a stop with its time; what touches the evidence of the
cohort is latched as well.
-/

namespace HccastWired.Calibration

open Foundation Telemetry

/-- The bounds of a `CalibrationPolicy` in the units in which they are compared,
with the values that the floating-point products and sums have. -/
structure Limits where
  healthGapUs : Rat
  minWarmupUs : Rat
  minTrialUs : Rat
  maxTemperatureC : Rat
  /-- A time and `max_health_gap_s * 1e6`, added. -/
  healthGapAfter : Int → Rat

inductive PyError
  | valueError (text : String)
  | runtimeError (text : String)
  | typeError
deriving DecidableEq, Repr

/-- The queue fields of a native row. -/
structure QueueRow where
  buffers : Option Int
  mediaDurationNs : Option Int
  available : Bool
  oldestPendingAgeUs : Option Int
deriving DecidableEq

/-- The timing fields of a native row. -/
structure TimingRow where
  counters : List (Option Int)
  available : Bool
  ambiguous : Bool
  maxUs : Option Rat
deriving DecidableEq

structure NativeRow where
  monotonicUs : Int
  counters : List (Option Int)
  elapsedUs : Option Int
  sourceProbeAvailable : Bool
  encoderProbesAvailable : Bool
  timing : TimingRow
  queue : QueueRow
  cohortError : Option String
  cohort : Option Cohort
  final : Bool
deriving DecidableEq

structure HealthRow where
  monotonicUs : Int
  temperatureC : Option Rat
  cpuPercent : Option Rat
  throttledBits : Option UInt32
  cpuInterval : Option (Int × Int)
deriving DecidableEq

def nativeCounters : List String :=
  ["raw_frames_pushed", "encoded_frames", "encoded_buffers_with_unknown_frame_count",
    "videorate_frames_dropped", "appsrc_frames_dropped", "other_pipeline_frames_dropped",
    "videorate_frames_duplicated"]

def timingCounters : List String :=
  ["matched", "invalid", "unmatched", "tracking_evicted", "discontinuities"]

/-- `_time`. -/
def time (value : Option PyValue) : Option Int := integer value maxTime

def timeError : PyError :=
  .valueError "monotonic timestamps must be nonnegative integer microseconds"

/-- `value is True`. -/
def valueIsTrue (value : Option PyValue) : Bool := decide (value = some (.bool true))

/-- `value if isinstance(value, dict) else {}`. -/
def dictOrEmpty (value : Option PyValue) : PyValue :=
  match value with
  | some (.dict fields) => .dict fields
  | _ => .dict []

/-- `_native`, of a sample with a valid time and a boolean `final`. -/
def native (sample : PyValue) (atUs : Int) : NativeRow :=
  let count (v : PyValue) (name : String) := integer (v.get name) (10 ^ 12)
  let timing := dictOrEmpty (sample.get "encoder_sink_to_src_us")
  let queue := dictOrEmpty (sample.get "pre_encoder_queue_residence_us")
  { monotonicUs := atUs
    counters := nativeCounters.map (count sample)
    elapsedUs := count sample "elapsed_us"
    sourceProbeAvailable := valueIsTrue (sample.get "source_probe_available")
    encoderProbesAvailable := valueIsTrue (sample.get "encoder_probes_available")
    timing := {
      counters := timingCounters.map (count timing)
      available := valueIsTrue (timing.get "available")
      ambiguous := decide (timing.get "ambiguous" ≠ some (.bool false))
      maxUs := number (timing.get "max_us") 0 (14400000 * 1000) }
    queue := {
      buffers := count sample "pre_encoder_queue_buffers"
      mediaDurationNs := integer (sample.get "pre_encoder_queue_media_duration_ns") (10 ^ 18)
      available := valueIsTrue (queue.get "available")
      oldestPendingAgeUs := count queue "oldest_pending_age_us" }
    cohortError := match cohortOf sample with
      | .error reason => some reason
      | .ok _ => none
    cohort := match cohortOf sample with
      | .error _ => none
      | .ok cohort => cohort
    final := valueIsTrue (sample.get "final") }

/-- The row of a health sample with a valid time. -/
def health (limits : Limits) (sample : PyValue) (atUs : Int) : HealthRow :=
  { monotonicUs := atUs
    temperatureC := number (sample.get "temperature_c") (-20) 150
    cpuPercent := number (sample.get "cpu_percent") 0 100
    throttledBits := (integer (sample.get "throttled_bits") 0xFFFFFFFF).map UInt32.ofInt
    cpuInterval :=
      let interval := (sample.get "cpu_interval").getD .none
      if interval.hasKeys ["start_us", "end_us"] then
        match integer (interval.get "start_us") maxTime, integer (interval.get "end_us") maxTime with
        | some start, some last =>
            if start < last ∧ last ≤ atUs ∧ ((last - start : Int) : Rat) ≤ limits.healthGapUs then
              some (start, last)
            else none
        | _, _ => none
      else none }

/-- `safety_action` of a row. -/
def safetyAction (row : HealthRow) : String :=
  let bits := row.throttledBits.filter fun bits => decide (bits &&& ~~~0xF000F = 0)
  let temperature := row.temperatureC.filter fun t => decide (-20 ≤ t) && decide (t ≤ 150)
  if bits.any (fun b => decide (b &&& 0xF ≠ 0)) || temperature.any (fun t => decide (75 ≤ t)) then
    "stop"
  else if temperature.isNone || bits.isNone then "unknown"
  else if temperature.any fun t => decide (70 ≤ t) then "backoff"
  else "ok"

structure Accumulator where
  limits : Limits
  streamId : String
  streamingUs : Int
  maxSamples : Nat
  nativeRows : List NativeRow
  healthRows : List HealthRow
  stops : List (String × Int)
  startUs : Option Int
  lastCheckUs : Int
  finished : Bool
  finalSeen : Bool
  cohortSeen : Bool
  cohortBad : Bool
  cohortFirstUs : Option Int
  cohortLatest : Option Cohort
  cohortLatestUs : Int
  seenBits : UInt32
  bitsUnknown : Bool
  baselineBits : Option UInt32

namespace Accumulator

def shouldStop (a : Accumulator) : Bool := !a.stops.isEmpty

/-- A stop of this name is also a fault of the cohort evidence. -/
def faults (reason : String) : Bool :=
  "native_".toList.isPrefixOf reason.toList || "timing_".toList.isPrefixOf reason.toList ||
    decide (reason ∈ ["stream_changed", "sample_limit"])

/-- `_stop`: the first time of a reason stays. -/
def stop (a : Accumulator) (reason : String) (atUs : Int) : Accumulator :=
  { a with
    stops := if reason ∈ a.stops.map Prod.fst then a.stops else a.stops ++ [(reason, atUs)]
    cohortBad := a.cohortBad || faults reason }

/-- `_remember`, up to the insertion of the row: whether a row of that time is
stored and equal, and the time of the last row of its kind. -/
def remember (a : Accumulator) (duplicate : Option Bool) (last : Option Int) (kind : String)
    (atUs : Int) : Accumulator × Bool :=
  match duplicate with
  | some true => (a, false)
  | some false => (a.stop (kind ++ "_conflicting_duplicate") atUs, false)
  | none =>
      if last.any fun t => decide (atUs < t) then (a.stop (kind ++ "_backwards") atUs, false)
      else if a.maxSamples ≤ a.nativeRows.length + a.healthRows.length then
        (a.stop "sample_limit" atUs, false)
      else
        let checked :=
          if last.any fun t => decide (a.limits.healthGapUs < ((atUs - t : Int) : Rat)) then
            a.stop (kind ++ "_gap") atUs
          else a
        if maxRunUs < atUs - a.streamingUs then (checked.stop "run_deadline" atUs, false)
        else (checked, true)

def lastNative (a : Accumulator) : Option NativeRow := a.nativeRows.getLast?

/-- A stored row of the time of the row is equal to it. -/
def nativeDuplicate (a : Accumulator) (row : NativeRow) : Option Bool :=
  (a.nativeRows.find? fun old => decide (old.monotonicUs = row.monotonicUs)).map
    fun old => decide (old = row)

def rememberNative (a : Accumulator) (row : NativeRow) : Accumulator × Bool :=
  let remembered := a.remember (a.nativeDuplicate row) (a.lastNative.map NativeRow.monotonicUs)
    "native" row.monotonicUs
  if remembered.2 then ({ remembered.1 with nativeRows := a.nativeRows ++ [row] }, true)
  else (remembered.1, false)

def rememberHealth (a : Accumulator) (row : HealthRow) : Accumulator × Bool :=
  let duplicate := (a.healthRows.find? fun old => decide (old.monotonicUs = row.monotonicUs)).map
    fun old => decide (old = row)
  let remembered := a.remember duplicate (a.healthRows.getLast?.map HealthRow.monotonicUs)
    "health" row.monotonicUs
  if remembered.2 then ({ remembered.1 with healthRows := a.healthRows ++ [row] }, true)
  else (remembered.1, false)

/-- What a kept health row stops for. -/
def healthStops (a : Accumulator) (row : HealthRow) : List (Bool × String) :=
  [(decide (safetyAction row ≠ "ok"), "health_" ++ safetyAction row),
    (row.temperatureC.any fun t => decide (a.limits.maxTemperatureC ≤ t),
      "calibration_temperature_limit"),
    (match row.throttledBits, a.baselineBits with
      | some bits, some baseline => decide (bits &&& ~~~baseline &&& 0xF0000 ≠ 0)
      | _, _ => false, "new_sticky_fault")]

def stopAll (a : Accumulator) (reasons : List (Bool × String)) (atUs : Int) : Accumulator :=
  reasons.foldl (fun a reason => if reason.1 then a.stop reason.2 atUs else a) a

/-- `add_health`. -/
def addHealth (a : Accumulator) (sample : PyValue) : Accumulator × Except PyError Bool :=
  if a.finished then (a, .error (.runtimeError "Measurement already finished"))
  else
    match sample with
    | .dict _ =>
        match time (sample.get "monotonic_us") with
        | none => (a, .error timeError)
        | some atUs =>
            let row := health a.limits sample atUs
            let remembered := a.rememberHealth row
            if remembered.2 then
              let stopped := remembered.1.stopAll (a.healthStops row) atUs
              ({ stopped with
                seenBits := a.seenBits ||| row.throttledBits.getD 0
                bitsUnknown := a.bitsUnknown || row.throttledBits.isNone }, .ok true)
            else (remembered.1, .ok false)
    | _ => (a, .error (.valueError "Health sample must be a timestamped object"))

/-- `reject` of `_accept_cohort`. -/
def reject (a : Accumulator) (reason : String) (atUs : Int) : Accumulator :=
  { a.stop reason atUs with cohortBad := true }

def rejectAll (a : Accumulator) (reasons : List (Bool × String)) (atUs : Int) : Accumulator :=
  reasons.foldl (fun a reason => if reason.1 then a.reject reason.2 atUs else a) a

section Cohort

variable (a : Accumulator) (row : NativeRow) (c : Cohort)

def timeBounds : Bool :=
  !(decide (a.limits.minWarmupUs ≤ (c.requestedWarmupUs : Rat)) &&
      decide (c.requestedWarmupUs ≤ 60000000)) ||
    !(decide (a.limits.minTrialUs ≤ (c.requestedDurationUs : Rat)) &&
      decide (c.requestedDurationUs ≤ 14335000000)) ||
    decide (maxRunUs - 5000000 < c.requestedWarmupUs + c.requestedDurationUs)

def streamingMismatch : Bool :=
  c.streamingUs.any fun streaming =>
    !(decide (a.streamingUs ≤ streaming) && decide (streaming ≤ row.monotonicUs) &&
      decide ((streaming : Rat) ≤ a.limits.healthGapAfter a.streamingUs))

/-- The counts of a cohort that has not started are zero. -/
def anyCount : Bool :=
  decide (c.acceptedSourceFrames ≠ 0) || decide (c.rejectedSourceFrames ≠ 0) ||
    decide (c.emittedWireFrames ≠ 0) || decide (c.rateSourceFramesDropped ≠ 0) ||
    decide (c.rateFramesDuplicated ≠ 0)

/-- `firstUs` is the time of the first sample with a cohort. -/
def startInvalid (firstUs : Int) : Bool :=
  match c.startedUs, c.streamingUs with
  | none, _ => c.epoch.isSome || c.sourceSeqFirst.isSome || c.endedUs.isSome || anyCount c
  | some _, none => true
  | some start, some streaming =>
      decide (c.epoch ≠ some start) || c.sourceSeqFirst.isNone || decide (start ≤ 0) ||
        !(decide (streaming + c.requestedWarmupUs ≤ start) && decide (start ≤ row.monotonicUs)) ||
        decide (a.limits.healthGapAfter start < (firstUs : Rat))

/-- The end is given without the end of the sequence range, or the other way. -/
def endHalf : Bool := c.endedUs.isSome != c.sourceSeqEndExclusive.isSome

/-- The end lies in the window of a started cohort, up to the comparison of the
sequences. -/
def endPlaced (ended : Int) : Bool :=
  match c.startedUs with
  | none => false
  | some start =>
      decide (start + c.requestedDurationUs ≤ ended) && decide (ended ≤ row.monotonicUs) &&
        c.sourceSeqFirst.isSome

/-- `last < first` with no `last`, which raises. -/
def unorderable : Bool :=
  c.endedUs.any (endPlaced row c) && c.sourceSeqEndExclusive.isNone

def endInvalid : Bool :=
  c.endedUs.any fun ended => !endPlaced row c ended ||
    (match c.sourceSeqFirst, c.sourceSeqEndExclusive with
      | some first, some last => decide (last < first)
      | _, _ => false)

def closeInvalid : Bool :=
  c.closedUs.any fun closed =>
    match c.endedUs, c.streamingUs with
    | some ended, some streaming =>
        !(decide (ended ≤ closed) && decide (closed ≤ row.monotonicUs)) ||
          decide (5000000 < closed - ended) ||
          decide (c.requestedWarmupUs + c.requestedDurationUs + 5000000 < closed - streaming)
    | _, _ => true

/-- The boundary times of a cohort. -/
def boundaryTimes : List (Option Int) := [c.streamingUs, c.startedUs, c.endedUs, c.closedUs]

/-- A boundary that the previous sample did not have lies before that sample. -/
def backdated (previous : Cohort) (latestUs : Int) : Bool :=
  ((boundaryTimes previous).zip (boundaryTimes c)).any fun pair =>
    pair.1.isNone && pair.2.any fun t => decide (t < latestUs)

/-- What stays fixed once it is known. -/
def fixedFields : List (Option Int) :=
  [some c.requestedWarmupUs, some c.requestedDurationUs, c.streamingUs, c.epoch, c.startedUs,
    c.endedUs, c.closedUs, c.sourceSeqFirst, c.sourceSeqEndExclusive]

def identityChanged (previous : Cohort) : Bool :=
  ((fixedFields previous).zip (fixedFields c)).any fun pair =>
    pair.1.isSome && decide (pair.2 ≠ pair.1)

def stateFlags : List Bool :=
  [c.complete, c.closed, c.encoderSrcEosSeen, c.encoderOutputKeyUnknown]

def stateReversed (previous : Cohort) : Bool :=
  ((stateFlags previous).zip (stateFlags c)).any fun pair => pair.1 && !pair.2

def cohortCounts : List Int :=
  [c.acceptedSourceFrames, c.rejectedSourceFrames, c.emittedWireFrames, c.rateSourceFramesDropped,
    c.rateFramesDuplicated]

def countReset (previous : Cohort) : Bool :=
  ((cohortCounts previous).zip (cohortCounts c)).any fun pair => decide (pair.2 < pair.1)

def dropReset (previous : Cohort) : Bool :=
  Boundary.all.any fun b =>
    decide (c.boundaryFramesDropped b < previous.boundaryFramesDropped b)

def timingCounts (t : TimingReceipt) : List (Option Int) :=
  [some t.entered, some t.exited, some t.matched, some t.invalid, some t.unmatched,
    some t.trackingEvicted, some t.discontinuities, t.maxUs]

def timingReset (previous : Cohort) : Bool :=
  ((timingCounts previous.timing).zip (timingCounts c.timing)).any fun pair =>
    match pair.1, pair.2 with
    | some old, some new => decide (new < old)
    | _, _ => false

/-- The receipt without the age of its oldest pending input, which may grow. -/
def settledPart : Cohort := { c with timing := { c.timing with oldestPendingAgeUs := none } }

def changedAfterEos (previous : Cohort) : Bool :=
  previous.encoderSrcEosSeen && decide (settledPart previous ≠ settledPart c)

/-- The checks of `_accept_cohort` before the comparison that can raise. -/
def openingChecks (firstUs : Int) : List (Bool × String) :=
  [(c.complete && !(row.sourceProbeAvailable && row.encoderProbesAvailable),
      "cohort_probe_unavailable"),
    (timeBounds a c, "cohort_time_bounds"),
    (streamingMismatch a row c, "cohort_streaming_mismatch"),
    (startInvalid a row c firstUs, "cohort_window_invalid"),
    (endHalf c, "cohort_window_invalid")]

def closingChecks : List (Bool × String) :=
  [(endInvalid row c, "cohort_window_invalid"), (closeInvalid row c, "cohort_window_invalid"),
    (c.complete && (c.startedUs.isNone || c.endedUs.isNone || c.closedUs.isNone),
      "cohort_window_invalid")]

def historyChecks (previous : Cohort) (latestUs : Int) : List (Bool × String) :=
  [(backdated c previous latestUs, "cohort_boundary_backdated"),
    (identityChanged c previous, "cohort_identity_changed"),
    (stateReversed c previous, "cohort_state_reversed"),
    (countReset c previous, "cohort_counter_reset"),
    (dropReset c previous, "cohort_counter_reset"),
    (timingReset c previous, "cohort_timing_reset"),
    (changedAfterEos c previous, "cohort_changed_after_eos")]

def reportedInvalid : List (Bool × String) :=
  [(decide (c.invalidReason = some "native-reported-invalid"), "cohort_reported_invalid")]

end Cohort

/-- All checks of a cohort against the accumulator that it is taken into. -/
def cohortChecks (a : Accumulator) (row : NativeRow) (c : Cohort) : List (Bool × String) :=
  openingChecks a row c (a.cohortFirstUs.getD row.monotonicUs) ++ closingChecks row c ++
    (a.cohortLatest.elim [] fun previous => historyChecks c previous a.cohortLatestUs) ++
    reportedInvalid c

/-- `_accept_cohort`, and whether it raised. -/
def acceptCohort (a : Accumulator) (row : NativeRow) : Accumulator × Bool :=
  let atUs := row.monotonicUs
  match row.cohortError, row.cohort with
  | some reason, _ => ({ a with cohortSeen := true }.reject reason atUs, false)
  | none, none => (if a.cohortSeen then a.reject "cohort_missing" atUs else a, false)
  | none, some c =>
      let firstUs := a.cohortFirstUs.getD atUs
      let seen := { a with cohortSeen := true, cohortFirstUs := some firstUs }
      if unorderable row c then (seen.rejectAll (openingChecks a row c firstUs) atUs, true)
      else
        ({ seen.rejectAll (cohortChecks a row c) atUs with
          cohortLatest := some c
          cohortLatestUs := atUs }, false)

/-- A counter of the row is lower than it was. -/
def lower (old new : List (Option Int)) : Bool :=
  (old.zip new).any fun pair =>
    match pair.1, pair.2 with
    | some before, some after => decide (after < before)
    | _, _ => false

/-- What a kept native row stops for, by the row before it. -/
def rowStops (a : Accumulator) (row : NativeRow) : List (Bool × String) :=
  (match a.lastNative with
    | some previous =>
        [(lower (previous.counters ++ [previous.elapsedUs]) (row.counters ++ [row.elapsedUs]),
            "native_counter_reset"),
          (lower previous.timing.counters row.timing.counters, "timing_counter_reset")]
    | none =>
        [(decide (a.limits.healthGapUs < ((row.monotonicUs - a.streamingUs : Int) : Rat)),
          "native_gap")]) ++
    [(a.startUs.isSome && !(row.sourceProbeAvailable && row.encoderProbesAvailable),
      "native_probe_lost")]

/-- The window of a producer without cohorts starts at its first usable row. -/
def startAt (a : Accumulator) (row : NativeRow) : Option Int :=
  if a.startUs.isNone && row.sourceProbeAvailable && row.encoderProbesAvailable &&
      decide (a.limits.minWarmupUs ≤ ((row.monotonicUs - a.streamingUs : Int) : Rat)) then
    some row.monotonicUs
  else a.startUs

/-- The result of a sample, once its cohort has been looked at. -/
def answered (accepted : Accumulator × Bool) (answer : Bool) : Accumulator × Except PyError Bool :=
  (accepted.1, if accepted.2 then .error .typeError else .ok answer)

/-- A final sample is looked at only for its cohort. -/
def takeFinal (a : Accumulator) (row : NativeRow) : Accumulator × Except PyError Bool :=
  let ended := { a with finalSeen := true }
  if a.cohortSeen || row.cohort.isSome || row.cohortError.isSome then
    let remembered := ended.rememberNative row
    if remembered.2 then answered (remembered.1.acceptCohort row) false
    else (remembered.1, .ok false)
  else (ended, .ok false)

/-- A sample of the running stream. -/
def takeRow (a : Accumulator) (row : NativeRow) : Accumulator × Except PyError Bool :=
  let remembered := a.rememberNative row
  if remembered.2 then
    let stopped := remembered.1.stopAll (a.rowStops row) row.monotonicUs
    answered ({ stopped with startUs := a.startAt row }.acceptCohort row) true
  else (remembered.1, .ok false)

/-- The sample is a version 1 telemetry event with a boolean `final`. -/
def wellFormed (sample : PyValue) : Bool :=
  decide (sample.get "metrics_version" = some (.int 1)) &&
    decide (sample.get "event" = some (.str "pipeline-telemetry")) &&
    (flag (sample.get "final")).isSome

/-- `add_native` of a sample with a valid time. -/
def takeNative (a : Accumulator) (streamId sample : PyValue) (atUs : Int) :
    Accumulator × Except PyError Bool :=
  if streamId ≠ .str a.streamId then
    ({ a.stop "stream_changed" atUs with cohortBad := true }, .ok false)
  else if !wellFormed sample then (a.stop "native_version_or_shape" atUs, .ok false)
  else if atUs < a.streamingUs then (a.stop "native_before_streaming" atUs, .ok false)
  else if a.finalSeen && !valueIsTrue (sample.get "final") then
    ({ a.stop "native_after_teardown" atUs with cohortBad := true }, .ok false)
  else
    let row := native sample atUs
    if row.final then a.takeFinal row else a.takeRow row

/-- `add_native`. -/
def addNative (a : Accumulator) (streamId sample : PyValue) : Accumulator × Except PyError Bool :=
  if a.finished then (a, .error (.runtimeError "Measurement already finished"))
  else
    match sample with
    | .dict _ =>
        match time (sample.get "monotonic_us") with
        | none => (a, .error timeError)
        | some atUs => a.takeNative streamId sample atUs
    | _ => (a, .error (.valueError "Native sample must be a timestamped object"))

/-- The gap of one kind of rows at a deadline check. -/
def checkRows (a : Accumulator) (kind : String) (last : Option Int) (atUs : Int) :
    Accumulator × Bool :=
  let lastUs := last.getD a.streamingUs
  if atUs < lastUs then (a, false)
  else if a.limits.healthGapUs < ((atUs - lastUs : Int) : Rat) then
    (a.stop (kind ++ "_gap") atUs, true)
  else (a, true)

/-- The run may not last for longer than its bound. -/
def overdue (a : Accumulator) (atUs : Int) : Accumulator :=
  if maxRunUs < atUs - a.streamingUs then a.stop "run_deadline" atUs else a

/-- `check_deadline`. -/
def checkDeadline (a : Accumulator) (atValue : PyValue) : Accumulator × Except PyError Bool :=
  if a.finished then (a, .error (.runtimeError "Measurement already finished"))
  else
    match time (some atValue) with
    | none => (a, .error timeError)
    | some atUs =>
        if atUs < a.streamingUs then (a, .error (.valueError "Deadline check precedes streaming"))
        else if atUs < a.lastCheckUs then
          (a, .error (.valueError "Deadline clock went backwards"))
        else
          let health := (a.overdue atUs).checkRows "health"
            (a.healthRows.getLast?.map HealthRow.monotonicUs) atUs
          if !health.2 then
            (health.1, .error (.valueError "Deadline check precedes a producer sample"))
          else
            let native := health.1.checkRows "native" (a.lastNative.map NativeRow.monotonicUs) atUs
            if !native.2 then
              (native.1, .error (.valueError "Deadline check precedes a producer sample"))
            else ({ native.1 with lastCheckUs := atUs }, .ok native.1.shouldStop)

/-- What `finish` says about the evidence of the cohort. -/
structure Result where
  pipelineDropCountsComplete : Bool
  cohortEvidenceUsable : Bool
  localFrameAccounting : Option Cohort
  windowStartUs : Option Int
  stopReasons : List String

/-- The cohort is the evidence of the measurement. -/
def useCohort (a : Accumulator) : Bool :=
  !a.cohortBad && a.cohortLatest.any fun c => c.complete && c.closed && c.encoderSrcEosSeen

def windowStart (a : Accumulator) : Option Int :=
  if a.useCohort then a.cohortLatest.bind Cohort.startedUs else a.startUs

/-- `finish`; whether the whole record passes its own validation is given. -/
def finish (a : Accumulator) (atValue : PyValue) (recordable : Bool) :
    Accumulator × Except PyError Result :=
  match a.checkDeadline atValue with
  | (checked, .error e) => (checked, .error e)
  | (checked, .ok _) =>
      if recordable then
        ({ checked with finished := true },
          .ok {
            pipelineDropCountsComplete := checked.useCohort && checked.windowStart.isSome
            cohortEvidenceUsable := checked.useCohort
            localFrameAccounting := checked.cohortLatest
            windowStartUs := checked.windowStart
            stopReasons := checked.stops.map Prod.fst })
      else (checked, .error (.valueError "invalid trial record"))

/-- `__init__`, before the baseline health sample is added. -/
def fresh (limits : Limits) (streamId : String) (streamingUs : Int) (maxSamples : Nat)
    (baselineBits : Option UInt32) : Accumulator :=
  { limits := limits, streamId := streamId, streamingUs := streamingUs, maxSamples := maxSamples
    nativeRows := [], healthRows := [], stops := [], startUs := none, lastCheckUs := streamingUs
    finished := false, finalSeen := false, cohortSeen := false, cohortBad := false
    cohortFirstUs := none, cohortLatest := none, cohortLatestUs := 0, seenBits := 0
    bitsUnknown := false, baselineBits := baselineBits }

/-- `__init__`, of a valid stream identity, sample bound and trial. -/
def create (limits : Limits) (streamId : String) (streamingUs : Int) (maxSamples : Nat)
    (baseline : PyValue) : Except PyError Accumulator :=
  match baseline, time (some (.int streamingUs)), time (baseline.get "monotonic_us") with
  | .dict _, some _, some baselineUs =>
      if baselineUs ≤ streamingUs ∧
          ((streamingUs - baselineUs : Int) : Rat) ≤ limits.healthGapUs then
        .ok ((fresh limits streamId streamingUs maxSamples
          ((integer (baseline.get "throttled_bits") 0xFFFFFFFF).map UInt32.ofInt)).addHealth
            baseline).1
      else .error (.valueError "Health baseline must immediately precede streaming/warmup")
  | .dict _, _, _ => .error timeError
  | _, _, _ => .error (.valueError "A timestamped pre-warmup health baseline is required")

end Accumulator

/-- A call on the accumulator. -/
inductive MeasurementCall
  | native (streamId sample : PyValue)
  | health (sample : PyValue)
  | deadline (atValue : PyValue)
  | finish (atValue : PyValue) (recordable : Bool)
deriving DecidableEq

namespace Accumulator

/-- What a call leaves, whether it returned or raised. -/
def call (a : Accumulator) : MeasurementCall → Accumulator
  | .native streamId sample => (a.addNative streamId sample).1
  | .health sample => (a.addHealth sample).1
  | .deadline atValue => (a.checkDeadline atValue).1
  | .finish atValue recordable => (a.finish atValue recordable).1

def run (a : Accumulator) (calls : List MeasurementCall) : Accumulator := calls.foldl call a

end Accumulator

end HccastWired.Calibration
