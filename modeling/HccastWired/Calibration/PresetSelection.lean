import HccastWired.Calibration.TrialRecord
import HccastWired.Foundation.Grouping

/-!
# Presets from calibration trials

The trials are grouped by their exact settings. A group passes when each of its
completed trials in the context does, and the presets are chosen among the
groups with thermal validation and physical confirmation.
-/

namespace HccastWired.Calibration

open Foundation Desktop

structure CalibrationPolicy where
  minTrialS : FiniteNumber
  minWarmupS : FiniteNumber
  thermalValidationS : FiniteNumber
  maxTemperatureC : FiniteNumber
  minEncoderHeadroom : FiniteNumber
  maxPipelineDropFraction : FiniteNumber
  minFrameRatio : FiniteNumber
  maxFrameRatio : FiniteNumber
  maxHealthGapS : FiniteNumber
  recommendedCpuPercent : FiniteNumber
  maxCandidates : BoundedInt 1 8
  maxTrials : BoundedInt 1 32

section Assess

variable (lib : Library) (contextId workloadId : String) (modes : List WireMode)
  (policy : CalibrationPolicy)

namespace TrialRecord

variable (t : TrialRecord)

/-- `metrics[key]`. -/
def metric (f : NumericField) : Option FiniteNumber := t.measurements.numeric f

def wire : WireMode := (t.profile.1.wireWidth, t.profile.1.wireHeight, t.profile.1.wireFps)

def matchesContext : Bool := decide (t.contextId = contextId) && decide (t.workloadId = workloadId)

/-- A health word, of a field that is an integer below `2 ^ 32`. -/
def bits (f : NumericField) : Option UInt32 :=
  (t.metric f).map fun x => UInt32.ofInt x.value.floor

/-- `value not in (None, 0)`. -/
def nonzero (f : NumericField) : Bool := (t.metric f).any fun x => decide (x.value ≠ 0)

/-- The number, when it is known and not zero. -/
def truthy (f : NumericField) : Option FiniteNumber :=
  (t.metric f).filter fun x => decide (x.value ≠ 0)

/-- The essential measurements, sorted by their names. -/
def essential : List NumericField :=
  [.cpuMeanPercent, .decodeFailures, .disconnects, .elapsedS, .encoderLatencyMs,
    .encoderLatencySamples, .healthMaxGapS, .healthSamples, .outputFrames,
    .pipelineDroppedFrames, .sourceFrames, .temperaturePeakC, .throttledBitsBefore,
    .throttledBitsSeen, .warmupS]

def missing : List String :=
  (essential.filter fun f => (t.metric f).isNone).map NumericField.name

def runtimeKnown : Bool :=
  let r := t.runtimeSettings
  r.encoder.isSome && r.encoderPreset.isSome && r.keyframeIntervalFrames.isSome &&
    r.cpuGovernor.isSome && r.cpuCapMhz.isSome && r.stockClock.isSome && r.wifiPowerPolicy.isSome

/-- `drops / inputs`. -/
def dropFraction : Option FiniteNumber :=
  match t.metric .pipelineDroppedFrames, t.truthy .sourceFrames with
  | some drops, some inputs => some (lib.div drops inputs)
  | _, _ => none

/-- The measured frames by the requested ones, for the source and the encoder. -/
def ratios : Option (FiniteNumber × FiniteNumber) :=
  match t.truthy .elapsedS, t.metric .sourceFrames, t.metric .outputFrames with
  | some duration, some inputs, some outputs =>
      some (lib.div inputs (lib.mul duration (.int t.profile.1.contentFps)),
        lib.div outputs (lib.mul duration (.int t.profile.1.wireFps)))
  | _, _, _ => none

/-- `1 - latency / (1000 / wire_fps)`. -/
def headroom : Option FiniteNumber :=
  (t.metric .encoderLatencyMs).map fun latency =>
    lib.sub (.int 1) (lib.div latency (lib.div (.int 1000) (.int t.profile.1.wireFps)))

def physicalFailed : Bool := decide (some false ∈ t.observations.values)

def physicalConfirmed : Bool := t.observations.values.all fun o => decide (o = some true)

/-- `0.9`. -/
def timingCoverage : FiniteNumber := ⟨.float (8106479329266893 / 9007199254740992), rfl⟩

def tooFew (samples outputs : FiniteNumber) : Bool :=
  let covered := lib.mul outputs timingCoverage
  decide (samples.value < max 30 covered.value)

def healthFlags : List (Bool × String) :=
  match t.bits .throttledBitsBefore, t.bits .throttledBitsSeen with
  | some before, some seen =>
      [(decide ((before ||| seen) &&& 0xF ≠ 0) || decide (seen &&& ~~~before &&& 0xF0000 ≠ 0),
          "Active or new undervoltage, capping, throttling or thermal flags were observed."),
        (decide ((before ||| seen) &&& ~~~0xF000F ≠ 0),
          "Unrecognized health flags require diagnosis.")]
  | _, _ => []

/-- The criteria of a completed trial that it does not meet, in the order in which
they are checked. -/
def checks : List (Bool × String) :=
  [(!t.matchesContext contextId workloadId,
      "Context or workload changed; recalibrate this setup."),
    (decide (t.wire ∉ modes) || decide (t.measurements.negotiatedWireMode ≠ some t.wire),
      "Wire mode lacks matching receiver advertisement and negotiated-mode evidence."),
    (decide (t.profile.1.rotation ≠ 0), "Rotated capture remains unverified."),
    (!t.runtimeKnown, "Exact runtime settings are incomplete."),
    (decide (t.runtimeSettings.stockClock ≠ some true),
      "Presets require a verified stock clock; overclock trials are separate."),
    (!t.missing.isEmpty,
      "Required measurements are unknown: " ++ ", ".intercalate t.missing),
    (decide (t.measurements.window ≠ some "steady_state") ||
        (t.metric .warmupS).all fun w => decide (w.value < policy.minWarmupS.value),
      "Use a measured steady-state window after the warmup interval."),
    ((t.metric .elapsedS).any fun d => decide (d.value < policy.minTrialS.value),
      "At least " ++ lib.general policy.minTrialS ++ " measured seconds are required."),
    ((t.metric .temperaturePeakC).any fun x => decide (policy.maxTemperatureC.value ≤ x.value),
      "Temperature reached the calibration backoff limit.")] ++
  t.healthFlags ++
  [(t.nonzero .decodeFailures || t.nonzero .disconnects,
      "The trial had a decode failure or stream disconnect."),
    (decide (t.measurements.queueGrowing ≠ some false),
      "A stable pre-encoder queue has not been demonstrated."),
    (decide (t.measurements.pipelineDropCountsComplete ≠ some true),
      "Pipeline drop observation is incomplete."),
    ((t.dropFraction lib).any fun x => decide (policy.maxPipelineDropFraction.value ≤ x.value),
      "Observed pipeline drops reached the admission limit."),
    ((t.ratios lib).any fun r => [r.1, r.2].any fun ratio =>
        !(decide (policy.minFrameRatio.value ≤ ratio.value) &&
          decide (ratio.value ≤ policy.maxFrameRatio.value)),
      "Measured source or encoded-frame cadence does not match the requested rates."),
    ((t.truthy .elapsedS).any fun d => (t.metric .healthSamples).any fun n =>
        decide (n.value < (lib.ceil (lib.div d policy.maxHealthGapS) : Rat)),
      "Health sample coverage is insufficient."),
    ((t.metric .healthMaxGapS).any fun x => decide (policy.maxHealthGapS.value < x.value),
      "The health signal was absent for too long."),
    (decide (t.measurements.encoderLatencyStatistic ≠ some "max" ∧
        t.measurements.encoderLatencyStatistic ≠ some "p95"),
      "A measured encoder maximum or p95 is required; a mean is insufficient."),
    ((t.metric .encoderLatencySamples).any fun n => (t.metric .outputFrames).any fun outputs =>
        tooFew lib n outputs, "Encoder timing coverage is insufficient."),
    ((t.headroom lib).any fun x => decide (x.value < policy.minEncoderHeadroom.value),
      "Encoder timing does not retain the required stream-rate headroom."),
    (t.physicalFailed,
      "The recorded physical readability, geometry or motion check failed.")]

end TrialRecord

structure Assessment where
  trialId : String
  outcome : String
  blocksCandidate : Bool
  contextMatches : Bool
  softwarePassed : Bool
  reasons : List String
  physicalConfirmed : Bool
  thermalValidated : Bool
  pipelineDropFraction : Option FiniteNumber
  encoderHeadroom : Option FiniteNumber
  evidenceRef : String

/-- `_assess`; the receiver's dropped frames are never known. -/
def assess (t : TrialRecord) : Assessment :=
  match t.outcome with
  | .transportAborted stage reason =>
      { trialId := t.trialId
        outcome := "transport_aborted"
        blocksCandidate := false
        contextMatches := t.matchesContext contextId workloadId
        softwarePassed := false
        reasons := ["Transport aborted during " ++ stage ++ ": " ++ reason ++
          ". Capture performance was not measured."]
        physicalConfirmed := false
        thermalValidated := false
        pipelineDropFraction := none
        encoderHeadroom := none
        evidenceRef := t.evidenceRef }
  | .completed =>
      let reasons := ((t.checks lib contextId workloadId modes policy).filter Prod.fst).map Prod.snd
      { trialId := t.trialId
        outcome := "completed"
        blocksCandidate := t.matchesContext contextId workloadId && !reasons.isEmpty
        contextMatches := t.matchesContext contextId workloadId
        softwarePassed := reasons.isEmpty
        reasons := reasons
        physicalConfirmed := t.physicalConfirmed
        thermalValidated := reasons.isEmpty && (t.metric .elapsedS).any fun d =>
          decide (policy.thermalValidationS.value ≤ d.value)
        pipelineDropFraction := t.dropFraction lib
        encoderHeadroom := t.headroom lib
        evidenceRef := t.evidenceRef }

end Assess

/-! ## The choice among groups -/

/-- The settings as a dictionary, sorted by its keys. -/
def RuntimeSettings.toDict (r : RuntimeSettings) : PyValue :=
  let text (s : Option String) : PyValue := s.elim .none .str
  .dict [("cpu_cap_mhz", r.cpuCapMhz.elim .none fun n => .int n.1),
    ("cpu_governor", text r.cpuGovernor), ("encoder", text r.encoder),
    ("encoder_preset", text r.encoderPreset),
    ("keyframe_interval_frames", r.keyframeIntervalFrames.elim .none fun n => .int n.1),
    ("stock_clock", r.stockClock.elim .none .bool), ("wifi_power_policy", text r.wifiPowerPolicy)]

/-- The profile as a dictionary, sorted by its keys. -/
def sortedProfile (p : Profile) : PyValue :=
  .dict [("bitrate_kbps", .int p.1.bitrateKbps), ("content_fps", .int p.1.contentFps),
    ("rotation", .int p.1.rotation), ("scale", .number p.1.scale),
    ("source_height", .int p.1.sourceHeight), ("source_width", .int p.1.sourceWidth),
    ("wire_fps", .int p.1.wireFps), ("wire_height", .int p.1.wireHeight),
    ("wire_width", .int p.1.wireWidth)]

/-- `_candidate_key`: the text of the settings, sorted by their keys. -/
def candidateKey (enc : Encoding) (t : TrialRecord) : Option Bytes :=
  enc.dumps (.list [sortedProfile t.profile, t.runtimeSettings.toDict])

abbrev TrialGroup := List TrialRecord

section Choose

variable (lib : Library) (policy : CalibrationPolicy)

/-- `_cpu`: the mean load, weighted by the durations; both are known of a trial
that passed. -/
def cpu (group : TrialGroup) : FiniteNumber :=
  let samples := group.map fun t =>
    ((t.metric .cpuMeanPercent).getD (.int 0),
      (t.measurements.cpuWindow.map CpuWindow.durationS).getD
        ((t.metric .elapsedS).getD (.int 0)))
  lib.div (lib.sum (samples.map fun s => lib.mul s.1 s.2)) (lib.sum (samples.map Prod.snd))

/-- `_quality`, as the values of the tuple. -/
def quality (group : TrialGroup) : List Rat :=
  match group with
  | [] => []
  | t :: _ =>
      let p := t.profile.1
      [(min (p.sourceWidth * p.sourceHeight) (p.wireWidth * p.wireHeight) : Int),
        (p.contentFps : Int), -(cpu lib group).value, (p.bitrateKbps : Int)]

structure PowerSummary where
  wattsMean : FiniteNumber
  uncertaintyWatts : FiniteNumber
  meterId : String
  repeats : Nat

def powers (group : TrialGroup) : List Power := group.filterMap fun t => t.measurements.wholePiPower

/-- The first greatest of the numbers. -/
def greatest (xs : List FiniteNumber) : FiniteNumber :=
  (firstBest (fun x y => decide (y.value < x.value)) xs).getD (.int 0)

def least (xs : List FiniteNumber) : FiniteNumber :=
  (firstBest (fun x y => decide (x.value < y.value)) xs).getD (.int 0)

/-- `_power_summary`. -/
def powerSummary (group : TrialGroup) : Option PowerSummary :=
  match powers group with
  | [] => none
  | first :: rest =>
      let all := first :: rest
      if all.length < 2 ∨ (all.any fun p => decide (p.samples.value < 10)) = true then none
      else if all.any fun p => decide (p.meterId ≠ first.meterId) then none
      else
        let watts := all.map Power.wattsMean
        let spread := lib.div (lib.sub (greatest watts) (least watts)) (.int 2)
        some {
          wattsMean := lib.mean watts
          uncertaintyWatts := greatest [greatest (all.map Power.uncertaintyWatts), spread]
          meterId := first.meterId
          repeats := all.length }

namespace PowerSummary

/-- `watts_mean + uncertainty_watts`. -/
def upper (p : PowerSummary) : FiniteNumber := lib.add p.wattsMean p.uncertaintyWatts

/-- `watts_mean - uncertainty_watts`. -/
def lower (p : PowerSummary) : FiniteNumber := lib.sub p.wattsMean p.uncertaintyWatts

end PowerSummary

inductive PresetName
  | recommended
  | performance
  | batterySaver
deriving DecidableEq, Repr

def PresetName.all : List PresetName := [.recommended, .performance, .batterySaver]

structure Comparison where
  confidence : String
  candidateCount : Nat
  uncertaintyOverlap : Option Bool
  power : Option PowerSummary

structure Choice where
  selected : PresetName → Option TrialGroup
  comparison : Comparison

/-- A candidate of the power comparison: its index, its group and its power. -/
abbrev Contender := Nat × TrialGroup × PowerSummary

/-- The candidates, when each has a power and all powers are of one meter. -/
def contenders (groups : List TrialGroup) : Option (List Contender) :=
  match groups.zipIdx.mapM fun g => (powerSummary lib g.1).map fun p => (g.2, g.1, p) with
  | some all =>
      if all.all fun c => all.all fun d => decide (d.2.2.meterId = c.2.2.meterId) then some all
      else none
  | none => none

/-- A candidate whose lower bound the best one's upper bound reaches. -/
def overlaps (best other : Contender) : Bool :=
  decide (other.1 ≠ best.1) && decide ((other.2.2.lower lib).value ≤ (best.2.2.upper lib).value)

/-- `_choose`. -/
def choose (groups : List TrialGroup) : Option Choice :=
  match groups with
  | [] => none
  | _ =>
      let best := firstBest fun a b => decide (quality lib b < quality lib a)
      let moderate := groups.filter fun g =>
        decide ((cpu lib g).value ≤ policy.recommendedCpuPercent.value)
      let saverKey (g : TrialGroup) : List Rat := (cpu lib g).value :: (quality lib g).map Neg.neg
      let byLoad := firstBest (fun a b => decide (saverKey a < saverKey b)) groups
      let winner := (contenders lib groups).bind fun all =>
        (firstBest (fun a b : Contender =>
          decide ([a.2.2.wattsMean.value, (cpu lib a.2.1).value] <
            [b.2.2.wattsMean.value, (cpu lib b.2.1).value])) all).map fun w => (w, all)
      match winner with
      | none =>
          some {
            selected := fun
              | .recommended => best moderate
              | .performance => best groups
              | .batterySaver => byLoad
            comparison := ⟨"estimated", groups.length, none, none⟩ }
      | some (w, all) =>
          let overlap := all.any (overlaps lib w)
          some {
            selected := fun
              | .recommended => best moderate
              | .performance => best groups
              | .batterySaver => some w.2.1
            comparison := ⟨if overlap then "inconclusive" else "measured", groups.length,
              some overlap, some w.2.2⟩ }

end Choose

/-! ## The presets -/

structure Confidence where
  selection : String
  physicalObservation : String
  thermalValidation : String
  power : String
  panelLatency : String
  nativePanelResolution : String
  receiverDelivery : String

structure Preset where
  available : Bool
  reason : String
  settings : Option Profile
  runtimeSettings : Option RuntimeSettings
  measurement : Option String
  trialIds : List String
  confidence : Option Confidence
  powerComparison : Option Comparison

def unavailable (reason : String) : Preset :=
  { available := false, reason := reason, settings := none, runtimeSettings := none
    measurement := none, trialIds := [], confidence := none, powerComparison := none }

section Select

variable (lib : Library) (assessment : TrialRecord → Assessment)

/-- What the summary of a preset says about the power. -/
def powerText (comparison : Comparison) : String :=
  if comparison.confidence = "measured" then
    "Lowest measured whole-Pi input power among " ++ toString comparison.candidateCount ++
      " qualified tested candidate(s): " ++
      (comparison.power.elim "" fun p => lib.fixed 2 p.wattsMean) ++ " ± " ++
      (comparison.power.elim "" fun p => lib.fixed 2 p.uncertaintyWatts) ++ " W. "
  else if comparison.confidence = "inconclusive" then
    "Whole-Pi power was measured, but candidate uncertainty intervals overlap. "
  else
    "Battery Saver is estimated from measured CPU load; whole-Pi power was not compared across every candidate. "

/-- `_preset` of a group, whose trial of the longest window represents it. -/
def presetOf (key : PresetName) (group : TrialGroup) (representative : TrialRecord)
    (comparison : Comparison) (provisional : Bool) : Preset :=
  let physical := group.any fun t => (assessment t).physicalConfirmed
  let thermal := group.any fun t => (assessment t).thermalValidated
  let missing := (if thermal then [] else ["20-minute thermal validation"]) ++
    (if physical then [] else ["physical readability, geometry and motion confirmation"])
  let latencyObserved := group.any fun t => (t.metric .panelLatencyMs).isSome
  let power := if key = .batterySaver then comparison.confidence
    else if representative.measurements.wholePiPower.isSome then "measured" else "unmeasured"
  { available := missing.isEmpty
    reason := if missing.isEmpty then "" else "Needs " ++ " and ".intercalate missing ++ "."
    settings := some representative.profile
    runtimeSettings := some representative.runtimeSettings
    measurement := some (strip
      ("Measured sender pipeline: " ++ lib.fixed 1 (cpu lib group) ++ "% mean CPU; peak " ++
        lib.general (greatest (group.filterMap fun t => t.metric .temperaturePeakC)) ++ " °C. " ++
        (if key = .batterySaver then powerText lib comparison else "") ++
        (if latencyObserved then "" else "Physical panel latency is unmeasured.")))
    trialIds := (group.map TrialRecord.trialId).mergeSort fun a b => decide (a ≤ b)
    confidence := some {
      selection := if provisional then "provisional" else "qualified"
      physicalObservation := if physical then "recorded" else "missing"
      thermalValidation := if thermal then "recorded" else "missing"
      power := power
      panelLatency := if latencyObserved then "physically_measured" else "unmeasured"
      nativePanelResolution := "unknown"
      receiverDelivery := "unmeasured" }
    powerComparison := if key = .batterySaver then some comparison else none }

/-- The later of two trials has the longer window. -/
def longer (t u : TrialRecord) : Bool :=
  match t.metric .elapsedS, u.metric .elapsedS with
  | some d, some e => decide (e.value < d.value)
  | _, _ => false

/-- `_preset`. -/
def preset (key : PresetName) (group : Option TrialGroup) (comparison : Comparison)
    (provisional : Bool) : Preset :=
  match group with
  | none => unavailable "No tested candidate meets the moderate CPU-load criterion."
  | some group =>
      match firstBest longer group with
      | none => unavailable ""
      | some representative => presetOf lib assessment key group representative comparison provisional

end Select

structure Selection where
  contextId : String
  workloadId : String
  policy : CalibrationPolicy
  advertisedModes : List WireMode
  records : List TrialRecord
  assessments : List Assessment
  shortlist : PresetName → Preset
  presets : PresetName → Preset

section Groups

variable (assessment : TrialRecord → Assessment)

/-- The completed trials of a group in the context. -/
def measured (group : TrialGroup) : TrialGroup :=
  group.filter fun t => decide (t.outcome = .completed) && (assessment t).contextMatches

/-- A failed trial of the exact settings prevents their promotion. -/
def passing (groups : List TrialGroup) : List TrialGroup :=
  (groups.map (measured assessment)).filter fun group =>
    !group.isEmpty && group.all fun t => (assessment t).softwarePassed

def qualified (groups : List TrialGroup) : List TrialGroup :=
  (passing assessment groups).filter fun group =>
    group.any (fun t => (assessment t).thermalValidated) &&
      group.any fun t => (assessment t).physicalConfirmed

end Groups

/-- The shortlist and the presets of the records. -/
def selectionOf (lib : Library) (enc : Encoding) (contextId workloadId : String)
    (modes : List WireMode) (policy : CalibrationPolicy) (records : List TrialRecord) : Selection :=
  let assessment := assess lib contextId workloadId modes policy
  let grouped := groupBy (candidateKey enc) records
  let provisional := choose lib policy (passing assessment grouped)
  let selected := choose lib policy (qualified assessment grouped)
  let shortlist (key : PresetName) : Preset :=
    match provisional with
    | some choice => preset lib assessment key (choice.selected key) choice.comparison true
    | none => unavailable "No candidate passed the measured software and safety criteria."
  { contextId := contextId
    workloadId := workloadId
    policy := policy
    advertisedModes := ProfileFields.wireModes.filter fun m => decide (m ∈ modes)
    records := records
    assessments := records.map assessment
    shortlist := shortlist
    presets := fun key =>
      match selected with
      | some choice => preset lib assessment key (choice.selected key) choice.comparison false
      | none => unavailable (if (shortlist key).reason ≠ "" then (shortlist key).reason
          else "Physical and thermal validation is still required.") }

/-- `select_presets`. The identifiers are distinct, so each trial has its own
assessment. -/
def selectPresets (lib : Library) (enc : Encoding) (trials : List PyValue)
    (contextId workloadId : PyValue) (advertisedModes : List PyValue)
    (policy : CalibrationPolicy) : Except String Selection := do
  let context ← text contextId "context_id" 160
  let workload ← text workloadId "workload_id" 160
  if policy.maxTrials.1 < trials.length then throw "Calibration trials must be a bounded list"
  if 32 < advertisedModes.length then throw "Receiver modes must be a bounded list"
  let modes ← advertisedModes.mapM mode
  let records ← trials.mapM (recordTrial lib)
  if ¬ (records.map TrialRecord.trialId).Nodup then
    throw "Duplicate trial IDs cannot establish independent repeats"
  if policy.maxCandidates.1 < (groupBy (candidateKey enc) records).length then
    throw "Too many calibration candidates"
  return selectionOf lib enc context workload modes policy records

end HccastWired.Calibration
