import HccastWired.Desktop.Profile

/-!
# Records of calibration trials

`record_trial` checks the structure of an externally measured trial. A record is
the trial after these checks; an unknown measurement stays unknown.
-/

namespace HccastWired.Calibration

open Foundation Desktop

/-- A number that is neither infinite nor NaN. -/
abbrev FiniteNumber := { x : Number // x.isFinite = true }

namespace FiniteNumber

def value (x : FiniteNumber) : Rat := x.1.toRat.get x.2

def int (n : Int) : FiniteNumber := ⟨.int n, rfl⟩

end FiniteNumber

/-- What the interpreter's library computes: arithmetic on finite numbers, which
rounds, the texts of numbers, and whether a text is an ISO timestamp with a
timezone. -/
structure Library where
  add : FiniteNumber → FiniteNumber → FiniteNumber
  sub : FiniteNumber → FiniteNumber → FiniteNumber
  mul : FiniteNumber → FiniteNumber → FiniteNumber
  div : FiniteNumber → FiniteNumber → FiniteNumber
  sum : List FiniteNumber → FiniteNumber
  mean : List FiniteNumber → FiniteNumber
  ceil : FiniteNumber → Int
  /-- `math.isclose` with its default relative tolerance. -/
  isClose : FiniteNumber → FiniteNumber → Rat → Bool
  /-- The text of a number under the format `g`. -/
  general : FiniteNumber → String
  /-- The text of a number with so many decimals. -/
  fixed : Nat → FiniteNumber → String
  timezoned : String → Bool

/-! ## The checks of single values -/

/-- Bounds of a number, with the text that an error gives them. -/
structure Bounds where
  low : Rat
  high : Rat
  range : String

def Bounds.ints (low high : Int) : Bounds := ⟨low, high, s!"{low}..{high}"⟩

def numericError {α : Type} (name : String) (bounds : Bounds) (integer : Bool) : Except String α :=
  .error (name ++ " must be a finite " ++ (if integer then "integer" else "number") ++ " in " ++
    bounds.range)

/-- `_numeric`. -/
def numeric (value : PyValue) (name : String) (bounds : Bounds) (integer : Bool) :
    Except String FiniteNumber :=
  match value with
  | .number x =>
      if h : x.isFinite = true then
        let isInt := match x with
          | .int _ => true
          | _ => false
        if bounds.low ≤ FiniteNumber.value ⟨x, h⟩ ∧ FiniteNumber.value ⟨x, h⟩ ≤ bounds.high ∧
            (integer = true → isInt = true) then
          .ok ⟨x, h⟩
        else numericError name bounds integer
      else numericError name bounds integer
  | _ => numericError name bounds integer

/-- `_numeric` with `optional=True`. -/
def optionalNumeric (value : PyValue) (name : String) (bounds : Bounds) (integer : Bool) :
    Except String (Option FiniteNumber) :=
  match value with
  | .none => .ok none
  | v => (numeric v name bounds integer).map some

/-- An integer within its bounds. -/
abbrev BoundedInt (low high : Int) := { n : Int // low ≤ n ∧ n ≤ high }

/-- `_numeric` with `integer=True` between integers. -/
def boundedInt (value : PyValue) (name : String) (low high : Int) :
    Except String (BoundedInt low high) :=
  match value with
  | .number (.int n) =>
      if h : low ≤ n ∧ n ≤ high then .ok ⟨n, h⟩
      else numericError name (Bounds.ints low high) true
  | _ => numericError name (Bounds.ints low high) true

/-- `str.isspace` of a character. -/
def isSpace (c : Char) : Bool :=
  c ∈ ['\t', '\n', '\x0b', '\x0c', '\r', '\x1c', '\x1d', '\x1e', '\x1f', ' ', '\x85',
    '\u00a0', '\u1680', '\u2028', '\u2029', '\u202f', '\u205f', '\u3000'] ||
    decide (0x2000 ≤ c.toNat ∧ c.toNat ≤ 0x200a)

/-- `str.strip`. -/
def strip (s : String) : String :=
  String.ofList ((s.toList.dropWhile isSpace).reverse.dropWhile isSpace).reverse

/-- `_text`. -/
def text (value : PyValue) (name : String) (limit : Nat) : Except String String :=
  match value with
  | .str s =>
      if decide (strip s = "") || decide (limit < s.length) ||
          s.toList.any fun c => decide (c.toNat < 32) then
        .error (name ++ " needs a bounded, nonempty text value")
      else .ok s
  | _ => .error (name ++ " needs a bounded, nonempty text value")

/-- `_reference`: a relative path without a step to the parent. -/
def reference (value : PyValue) (name : String) : Except String String := do
  let s ← text value name 240
  let path := s.toList
  if path.head? = some '/' ∨ ['.', '.'] ∈ path.splitOn '/' ∨ ':' ∈ path ∨ '\\' ∈ path then
    throw (name ++ " must be a relative evidence reference")
  return s

abbrev WireMode := Int × Int × Int

/-- `_mode`. -/
def mode (value : PyValue) : Except String WireMode :=
  match value with
  | .list [.number (.int w), .number (.int h), .number (.int r)] =>
      if (w, h, r) ∈ ProfileFields.wireModes then .ok (w, h, r)
      else .error "Wire mode must be a supported width, height, refresh tuple"
  | _ => .error "Wire mode must be a supported width, height, refresh tuple"

/-! ## The parts of a record -/

/-- The keys of `NUMERIC_FIELDS`. -/
inductive NumericField
  | warmupS
  | elapsedS
  | sourceFrames
  | outputFrames
  | pipelineDroppedFrames
  | decodeFailures
  | disconnects
  | cpuMeanPercent
  | temperaturePeakC
  | throttledBitsBefore
  | throttledBitsSeen
  | healthSamples
  | healthMaxGapS
  | encoderLatencyMs
  | encoderLatencySamples
  | panelLatencyMs
deriving DecidableEq, Repr

namespace NumericField

/-- The rows of `NUMERIC_FIELDS`, in their order. -/
def all : List NumericField :=
  [warmupS, elapsedS, sourceFrames, outputFrames, pipelineDroppedFrames, decodeFailures,
    disconnects, cpuMeanPercent, temperaturePeakC, throttledBitsBefore, throttledBitsSeen,
    healthSamples, healthMaxGapS, encoderLatencyMs, encoderLatencySamples, panelLatencyMs]

def name : NumericField → String
  | warmupS => "warmup_s"
  | elapsedS => "elapsed_s"
  | sourceFrames => "source_frames"
  | outputFrames => "output_frames"
  | pipelineDroppedFrames => "pipeline_dropped_frames"
  | decodeFailures => "decode_failures"
  | disconnects => "disconnects"
  | cpuMeanPercent => "cpu_mean_percent"
  | temperaturePeakC => "temperature_peak_c"
  | throttledBitsBefore => "throttled_bits_before"
  | throttledBitsSeen => "throttled_bits_seen"
  | healthSamples => "health_samples"
  | healthMaxGapS => "health_max_gap_s"
  | encoderLatencyMs => "encoder_latency_ms"
  | encoderLatencySamples => "encoder_latency_samples"
  | panelLatencyMs => "panel_latency_ms"

/-- The bounds, and whether the field is an integer. -/
def bounds : NumericField → Int × Int × Bool
  | warmupS => (0, 14400, false)
  | elapsedS => (0, 14400, false)
  | sourceFrames => (0, 10 ^ 8, true)
  | outputFrames => (0, 10 ^ 8, true)
  | pipelineDroppedFrames => (0, 10 ^ 8, true)
  | decodeFailures => (0, 10 ^ 8, true)
  | disconnects => (0, 10 ^ 6, true)
  | cpuMeanPercent => (0, 100, false)
  | temperaturePeakC => (-20, 150, false)
  | throttledBitsBefore => (0, 0xFFFFFFFF, true)
  | throttledBitsSeen => (0, 0xFFFFFFFF, true)
  | healthSamples => (0, 10 ^ 7, true)
  | healthMaxGapS => (0, 14400, false)
  | encoderLatencyMs => (0, 14400000, false)
  | encoderLatencySamples => (0, 10 ^ 8, true)
  | panelLatencyMs => (0, 14400000, false)

end NumericField

structure RuntimeSettings where
  encoder : Option String
  encoderPreset : Option String
  keyframeIntervalFrames : Option (BoundedInt 1 10000)
  cpuGovernor : Option String
  cpuCapMhz : Option (BoundedInt 1 2700)
  stockClock : Option Bool
  wifiPowerPolicy : Option String
deriving DecidableEq

def runtimeFields : List String :=
  ["encoder", "encoder_preset", "keyframe_interval_frames", "cpu_governor", "cpu_cap_mhz",
    "stock_clock", "wifi_power_policy"]

structure Observations where
  readable : Option Bool
  geometryCorrect : Option Bool
  motionAcceptable : Option Bool
deriving DecidableEq

def Observations.values (o : Observations) : List (Option Bool) :=
  [o.readable, o.geometryCorrect, o.motionAcceptable]

structure CpuWindow where
  startOffsetS : FiniteNumber
  endOffsetS : FiniteNumber
  durationS : FiniteNumber
  coverage : FiniteNumber
  intervals : FiniteNumber
deriving DecidableEq

structure Power where
  wattsMean : FiniteNumber
  uncertaintyWatts : FiniteNumber
  meterId : String
  samples : FiniteNumber
deriving DecidableEq

structure Measurements where
  numeric : NumericField → Option FiniteNumber
  cpuWindow : Option CpuWindow
  window : Option String
  queueGrowing : Option Bool
  pipelineDropCountsComplete : Option Bool
  encoderLatencyStatistic : Option String
  negotiatedWireMode : Option WireMode
  wholePiPower : Option Power

inductive Outcome
  | completed
  | transportAborted (stage reason : String)
deriving DecidableEq, Repr

structure TrialRecord where
  trialId : String
  contextId : String
  workloadId : String
  evidenceRef : String
  outcome : Outcome
  profile : Profile
  runtimeSettings : RuntimeSettings
  observations : Observations
  measurements : Measurements

/-! ## Reading the parts -/

/-- `value[key]`, for a key that is known to be there. -/
def item (value : PyValue) (key : String) : PyValue := (value.get key).getD .none

def hasField (value : PyValue) (key : String) : Bool := (value.get key).isSome

/-- The keys of a dictionary include the required ones and no undocumented one. -/
def documented (value : PyValue) (required allowed : List String) : Bool :=
  match value with
  | .dict fields => required.all (hasField value) &&
      fields.all fun f => decide (f.1 ∈ required) || decide (f.1 ∈ allowed)
  | _ => false

/-- `None`, or a value that passes its own check. -/
def orNone {α : Type} (value : PyValue) (check : PyValue → Except String α) :
    Except String (Option α) :=
  match value with
  | .none => .ok none
  | v => (check v).map some

/-- `None`, or a `bool`. -/
def boolOrNone (value : PyValue) (error : String) : Except String (Option Bool) :=
  match value with
  | .none => .ok none
  | .bool b => .ok (some b)
  | _ => .error error

/-- `None`, or one of the texts. -/
def choiceOrNone (value : PyValue) (choices : List String) (error : String) :
    Except String (Option String) :=
  match value with
  | .none => .ok none
  | .str s => if s ∈ choices then .ok (some s) else .error error
  | _ => .error error

/-- The outcome of the trial, with the stage and the reason of an aborted one. -/
def readOutcome (value : PyValue) : Except String Outcome :=
  match (value.get "outcome").getD (.str "completed") with
  | .str "completed" =>
      if hasField value "failure_stage" || hasField value "failure_reason" then
        .error "Failure-stage fields belong to aborted transport attempts"
      else .ok .completed
  | .str "transport_aborted" =>
      match value.get "failure_stage" with
      | some (.str stage) =>
          if stage ∈ ["discovery", "association", "rtsp_setup"] then do
            let reason ← text (item value "failure_reason") "failure_reason" 400
            return .transportAborted stage reason
          else .error "Aborted transport attempts need a pre-capture failure stage"
      | _ => .error "Aborted transport attempts need a pre-capture failure stage"
  | _ => .error "Trial outcome must be completed or transport_aborted"

def readRuntime (runtime : PyValue) : Except String RuntimeSettings := do
  if ¬ runtime.hasKeys runtimeFields then throw "Exact runtime settings are required"
  let named (key : String) := orNone (item runtime key) fun v => text v key 80
  let encoder ← named "encoder"
  let preset ← named "encoder_preset"
  let governor ← named "cpu_governor"
  let wifi ← named "wifi_power_policy"
  let keyframe ← orNone (item runtime "keyframe_interval_frames") fun v =>
    boundedInt v "keyframe_interval_frames" 1 10000
  let cap ← orNone (item runtime "cpu_cap_mhz") fun v => boundedInt v "cpu_cap_mhz" 1 2700
  let stock ← boolOrNone (item runtime "stock_clock")
    "stock_clock must be observed true, false or unknown"
  return ⟨encoder, preset, keyframe, governor, cap, stock, wifi⟩

def readObservations (value : PyValue) : Except String Observations := do
  if ¬ value.hasKeys ["readable", "geometry_correct", "motion_acceptable"] then
    throw "Readability, geometry and motion observations are required"
  let observed (key : String) := boolOrNone (item value key)
    "Physical observations must be true, false or unknown"
  return ⟨← observed "readable", ← observed "geometry_correct", ← observed "motion_acceptable"⟩

/-- The CPU subwindow, which is contiguous and lies in the measured window. -/
def readCpuWindow (lib : Library) (elapsed mean : Option FiniteNumber) (value : PyValue) :
    Except String CpuWindow := do
  if ¬ value.hasKeys ["start_offset_s", "end_offset_s", "duration_s", "coverage", "intervals"] then
    throw "CPU subwindow needs its measured boundaries and coverage"
  let offset (key : String) := numeric (item value key) key (Bounds.ints 0 14400) false
  let start ← offset "start_offset_s"
  let last ← offset "end_offset_s"
  let duration ← offset "duration_s"
  let coverage ← numeric (item value "coverage") "CPU coverage"
    ⟨3602879701896397 / 4503599627370496, 1, "0.8..1"⟩ false
  let intervals ← numeric (item value "intervals") "CPU intervals" (Bounds.ints 1 (10 ^ 7)) true
  let contained := mean.isSome && elapsed.any fun elapsed =>
    decide (0 < elapsed.value ∧ 0 ≤ start.value ∧ start.value < last.value ∧
      last.value ≤ elapsed.value) &&
    lib.isClose duration (lib.sub last start) (4722366482869645 / 4722366482869645213696) &&
    lib.isClose coverage (lib.div duration elapsed)
      (4835703278458517 / 4835703278458516698824704)
  if ¬ contained then
    throw "CPU subwindow must be contiguous and contained in the native window"
  return ⟨start, last, duration, coverage, intervals⟩

def readPower (value : PyValue) : Except String Power := do
  if ¬ value.hasKeys ["watts_mean", "uncertainty_watts", "scope", "meter_id", "samples"] then
    throw "Power needs watts, uncertainty, scope, meter identity and sample count"
  if value.get "scope" ≠ some (.str "whole_pi_input") then
    throw "Only separate whole-Pi input measurements can support the power preset"
  let watts ← numeric (item value "watts_mean") "watts_mean"
    ⟨5764607523034235 / 576460752303423488, 1000, "0.01..1000"⟩ false
  let uncertainty ← numeric (item value "uncertainty_watts") "uncertainty_watts"
    ⟨4722366482869645 / 4722366482869645213696, 1000, "1e-06..1000"⟩ false
  let samples ← numeric (item value "samples") "power samples" (Bounds.ints 1 (10 ^ 8)) true
  let meter ← text (item value "meter_id") "meter_id" 160
  return ⟨watts, uncertainty, meter, samples⟩

def requiredMetrics : List String :=
  NumericField.all.map NumericField.name ++
    ["window", "pipeline_drop_counts_complete", "encoder_latency_statistic", "queue_growing",
      "negotiated_wire_mode", "whole_pi_power"]

/-- The numbers of `NUMERIC_FIELDS`, each within its own bounds. -/
def readNumbers (metrics : PyValue) :
    List NumericField → Except String (NumericField → Option FiniteNumber)
  | [] => .ok fun _ => none
  | f :: rest => do
      let x ← optionalNumeric (item metrics f.name) f.name
        (Bounds.ints f.bounds.1 f.bounds.2.1) f.bounds.2.2
      let others ← readNumbers metrics rest
      return Function.update others f x

/-- No measurement of an encoded stream belongs to an aborted attempt. -/
def encodedMeasured (numbers : NumericField → Option FiniteNumber) : Bool :=
  [NumericField.sourceFrames, .outputFrames, .encoderLatencySamples].any fun f =>
    (numbers f).any fun x => decide (x.value ≠ 0)

def readMeasurements (lib : Library) (outcome : Outcome) (metrics : PyValue) :
    Except String Measurements := do
  match metrics with
  | .dict _ => pure ()
  | _ => throw "Measured trial aggregates are required"
  if ¬ documented metrics requiredMetrics
      ["cpu_window", "panel_latency_method", "panel_latency_evidence_ref"] then
    throw "Complete documented measurement fields are required; use null for unknowns"
  let numbers ← readNumbers metrics NumericField.all
  let cpuWindow ← orNone (item metrics "cpu_window")
    (readCpuWindow lib (numbers .elapsedS) (numbers .cpuMeanPercent))
  let window ← choiceOrNone (item metrics "window") ["steady_state", "startup"]
    "Measurement window must be steady_state, startup or unknown"
  if outcome ≠ .completed ∧ encodedMeasured numbers = true then
    throw "An aborted pre-capture transport attempt cannot contain encoded trial measurements"
  let observed (key : String) := boolOrNone (item metrics key)
    (key ++ " must be true, false or unknown")
  let queueGrowing ← observed "queue_growing"
  let dropsComplete ← observed "pipeline_drop_counts_complete"
  let statistic ← choiceOrNone (item metrics "encoder_latency_statistic") ["max", "p95", "mean"]
    "Encoder latency statistic must be max, p95, mean or unknown"
  let negotiated ← orNone (item metrics "negotiated_wire_mode") mode
  if (numbers .panelLatencyMs).isSome then
    if metrics.get "panel_latency_method" ≠ some (.str "physical_marker_capture") then
      throw "Panel latency requires a physical marker capture measurement"
    let _ ← reference (item metrics "panel_latency_evidence_ref") "panel_latency_evidence_ref"
  let power ← orNone (item metrics "whole_pi_power") readPower
  return {
    numeric := numbers
    cpuWindow := cpuWindow
    window := window
    queueGrowing := queueGrowing
    pipelineDropCountsComplete := dropsComplete
    encoderLatencyStatistic := statistic
    negotiatedWireMode := negotiated
    wholePiPower := power }

def requiredFields : List String :=
  ["trial_id", "context_id", "workload_id", "observed_at", "evidence_ref", "profile",
    "runtime_settings", "measurements", "observations"]

/-- `record_trial`. -/
def recordTrial (lib : Library) (value : PyValue) : Except String TrialRecord := do
  match value with
  | .dict _ => pure ()
  | _ => throw "A trial record must be an object"
  if ¬ documented value requiredFields
      ["api_version", "outcome", "failure_stage", "failure_reason"] then
    throw "A complete trial record with only documented fields is required"
  if (value.get "api_version").any fun v => decide (v ≠ .int 1) then
    throw "Unsupported calibration record version"
  let outcome ← readOutcome value
  let trialId ← text (item value "trial_id") "trial_id" 160
  let contextId ← text (item value "context_id") "context_id" 160
  let workloadId ← text (item value "workload_id") "workload_id" 160
  let evidenceRef ← reference (item value "evidence_ref") "evidence_ref"
  match item value "observed_at" with
  | .str when =>
      if ¬ lib.timezoned when then throw "observed_at needs an ISO timestamp with timezone"
  | _ => throw "observed_at needs an ISO timestamp with timezone"
  let profile ← (Profile.fromDict (item value "profile")).mapError CheckError.text
  let runtime ← readRuntime (item value "runtime_settings")
  let observations ← readObservations (item value "observations")
  let measurements ← readMeasurements lib outcome (item value "measurements")
  if ¬ value.printable then throw "Trial record must contain only finite JSON values"
  return ⟨trialId, contextId, workloadId, evidenceRef, outcome, profile, runtime, observations,
    measurements⟩

end HccastWired.Calibration
