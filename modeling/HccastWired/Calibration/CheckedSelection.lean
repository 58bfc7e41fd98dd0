import HccastWired.Calibration.PresetSelection
import HccastWired.Foundation.Checked

/-!
# The selection with what it raises

The expressions of the selection that can raise: arithmetic, operands that may be
`None`, a greatest or least value of an empty sequence, and missing keys. The values are
those of the selection itself.
-/

namespace HccastWired.Calibration

open Foundation Desktop

/-! ## The policy -/

namespace CalibrationPolicy

/-- The bounds of the numbers of a policy. -/
def bounds : List ((CalibrationPolicy → FiniteNumber) × String × Bounds) :=
  [(minWarmupS, "min_warmup_s", Bounds.ints 5 60),
    (minTrialS, "min_trial_s", Bounds.ints 30 14400),
    (thermalValidationS, "thermal_validation_s", Bounds.ints 1200 14400),
    (maxTemperatureC, "max_temperature_c", Bounds.ints 1 70),
    (minEncoderHeadroom, "min_encoder_headroom",
      ⟨3602879701896397 / 18014398509481984, 4458563631096791 / 4503599627370496, "0.2..0.99"⟩),
    (maxPipelineDropFraction, "max_pipeline_drop_fraction",
      ⟨4722366482869645 / 4722366482869645213696, 5764607523034235 / 576460752303423488,
        "1e-06..0.01"⟩),
    (minFrameRatio, "min_frame_ratio", ⟨2206763817411543 / 2251799813685248, 1, "0.98..1"⟩),
    (maxFrameRatio, "max_frame_ratio", ⟨1, 4728779608739021 / 4503599627370496, "1..1.05"⟩),
    (maxHealthGapS, "max_health_gap_s", ⟨3602879701896397 / 36028797018963968, 5, "0.1..5"⟩),
    (recommendedCpuPercent, "recommended_cpu_percent", Bounds.ints 1 100)]

/-- `__post_init__`; the two counts carry their bounds. -/
def check (policy : CalibrationPolicy) : Except String Unit :=
  bounds.forM fun row => do
    let _ ← numeric (.number (row.1 policy).1) row.2.1 row.2.2 false

end CalibrationPolicy

/-! ## Arithmetic -/

/-- The operand has a nearest `float`. Between two integers none is needed. -/
def FiniteNumber.fits (x : FiniteNumber) : Bool := !x.1.overflows

section Arithmetic

variable (lib : Library)

def operate (op : FiniteNumber → FiniteNumber → FiniteNumber) (x y : FiniteNumber) :
    Checked FiniteNumber :=
  if (x.fits && y.fits) = true then .ok (op x y) else .error .overflow

/-- `x / y`. -/
def divide (x y : FiniteNumber) : Checked FiniteNumber :=
  if y.value = 0 then .error .zeroDivision else operate lib.div x y

/-- `math.ceil(x / y)`, which raises when the quotient is infinite. -/
def ceilDivide (x y : FiniteNumber) : Checked Int := do
  let quotient ← divide lib x y
  if (Number.floatLimit : Rat) ≤ |x.value / y.value| then .error .overflow
  else return lib.ceil quotient

/-- `sum(xs)`. -/
def total (xs : List FiniteNumber) : Checked FiniteNumber :=
  if xs.all FiniteNumber.fits = true then .ok (lib.sum xs) else .error .overflow

/-- `statistics.mean(xs)`. -/
def average (xs : List FiniteNumber) : Checked FiniteNumber :=
  if xs.isEmpty = true then .error .statistics else .ok (lib.mean xs)

end Arithmetic

/-! ## The assessment of a trial -/

section Assess

variable (lib : Library) (contextId workloadId : String) (modes : List WireMode)
  (policy : CalibrationPolicy)

namespace TrialRecord

variable (t : TrialRecord)

def evalDropFraction : Checked (Option FiniteNumber) :=
  match t.metric .pipelineDroppedFrames, t.truthy .sourceFrames with
  | some drops, some inputs => do return some (← divide lib drops inputs)
  | _, _ => return none

def evalRatios : Checked (Option (FiniteNumber × FiniteNumber)) :=
  match t.truthy .elapsedS, t.metric .sourceFrames, t.metric .outputFrames with
  | some duration, some inputs, some outputs => do
      let source ← divide lib inputs
        (← operate lib.mul duration (.int t.profile.1.contentFps))
      let wire ← divide lib outputs (← operate lib.mul duration (.int t.profile.1.wireFps))
      return some (source, wire)
  | _, _, _ => return none

/-- `math.ceil(duration / policy.max_health_gap_s)`, where it is compared. -/
def evalSampleCount : Checked (Option Int) :=
  match t.truthy .elapsedS, t.metric .healthSamples with
  | some duration, some _ => do return some (← ceilDivide lib duration policy.maxHealthGapS)
  | _, _ => return none

/-- `outputs * 0.9`, where it is compared. -/
def evalCovered : Checked (Option FiniteNumber) :=
  match t.metric .encoderLatencySamples, t.metric .outputFrames with
  | some _, some outputs => do
      return some (← operate lib.mul outputs timingCoverage)
  | _, _ => return none

def evalHeadroom : Checked (Option FiniteNumber) :=
  match t.metric .encoderLatencyMs with
  | some latency => do
      let frame ← divide lib (.int 1000) (.int t.profile.1.wireFps)
      return some (← operate lib.sub (.int 1) (← divide lib latency frame))
  | none => return none

end TrialRecord

/-- `_assess`. -/
def evalAssess (t : TrialRecord) : Checked Assessment :=
  let assessed := assess lib contextId workloadId modes policy t
  match t.outcome with
  | .transportAborted _ _ => return assessed
  | .completed => do
      let fraction ← t.evalDropFraction lib
      let _ ← t.evalRatios lib
      let _ ← t.evalSampleCount lib policy
      let _ ← t.evalCovered lib
      let headroom ← t.evalHeadroom lib
      let thermal ←
        if assessed.reasons.isEmpty then do
          let duration ← Checked.known (t.metric .elapsedS)
          pure (decide (policy.thermalValidationS.value ≤ duration.value))
        else pure false
      return { assessed with
        thermalValidated := thermal
        pipelineDropFraction := fraction
        encoderHeadroom := headroom }

end Assess

/-! ## The choice among groups -/

section Choose

variable (lib : Library) (policy : CalibrationPolicy)

/-- `window["duration_s"] if window is not None else metrics["elapsed_s"]`. -/
def TrialRecord.loadDuration (t : TrialRecord) : Option FiniteNumber :=
  match t.measurements.cpuWindow with
  | some window => some window.durationS
  | none => t.metric .elapsedS

/-- `_cpu`. -/
def evalCpu (group : TrialGroup) : Checked FiniteNumber := do
  let products ← group.mapM fun t => do
    operate lib.mul (← Checked.known (t.metric .cpuMeanPercent)) (← Checked.known t.loadDuration)
  let weighted ← total lib products
  let durations ← group.mapM fun t => Checked.known t.loadDuration
  divide lib weighted (← total lib durations)

/-- `_quality`. -/
def evalQuality (group : TrialGroup) : Checked (List Rat) := do
  let p := (← Checked.first group).profile.1
  let load ← evalCpu lib group
  return [(min (p.sourceWidth * p.sourceHeight) (p.wireWidth * p.wireHeight) : Int),
    (p.contentFps : Int), -load.value, (p.bitrateKbps : Int)]

/-- The key of the Battery Saver by the load. -/
def evalSaverKey (group : TrialGroup) : Checked (List Rat) := do
  let load ← evalCpu lib group
  return load.value :: (← evalQuality lib group).map Neg.neg

def greater (x y : FiniteNumber) : Bool := decide (y.value < x.value)

def smaller (x y : FiniteNumber) : Bool := decide (x.value < y.value)

/-- `_power_summary`. -/
def evalPowerSummary (group : TrialGroup) : Checked (Option PowerSummary) :=
  let all := powers group
  if all.length < 2 ∨ (all.any fun p => decide (p.samples.value < 10)) = true then return none
  else do
    let meter := (← Checked.first all).meterId
    if all.any fun p => decide (p.meterId ≠ meter) then return none
    else do
      let watts := all.map Power.wattsMean
      let mean ← average lib watts
      let uncertainty ← Checked.extreme greater (all.map Power.uncertaintyWatts)
      let range ← operate lib.sub (← Checked.extreme greater watts)
        (← Checked.extreme smaller watts)
      let spread ← divide lib range (.int 2)
      return some {
        wattsMean := mean
        uncertaintyWatts := ← Checked.extreme greater [uncertainty, spread]
        meterId := meter
        repeats := all.length }

/-- The candidates of the power comparison, of the powers of all groups. -/
def contest (groups : List TrialGroup) (summaries : List (Option PowerSummary)) :
    Option (List Contender) :=
  match (groups.zipIdx.zip summaries).mapM fun g => g.2.map fun p => (g.1.2, g.1.1, p) with
  | some all =>
      if all.all fun c => all.all fun d => decide (d.2.2.meterId = c.2.2.meterId) then some all
      else none
  | none => none

/-- The mean power of a candidate, then its load. -/
def evalContenderKey (c : Contender) : Checked (List Rat) := do
  let load ← evalCpu lib c.2.1
  return [c.2.2.wattsMean.value, load.value]

def evalOverlaps (best other : Contender) : Checked Bool :=
  if other.1 ≠ best.1 then do
    let upper ← operate lib.add best.2.2.wattsMean best.2.2.uncertaintyWatts
    let lower ← operate lib.sub other.2.2.wattsMean other.2.2.uncertaintyWatts
    return decide (lower.value ≤ upper.value)
  else return false

/-- `_choose`. -/
def evalChoose (groups : List TrialGroup) : Checked (Option Choice) :=
  if groups.isEmpty then return none
  else do
    let better (a b : List Rat) : Bool := decide (b < a)
    let worse (a b : List Rat) : Bool := decide (a < b)
    let moderate ← Checked.select (fun g => do
      return decide ((← evalCpu lib g).value ≤ policy.recommendedCpuPercent.value)) groups
    let recommended ← Checked.extremeByOrNone (evalQuality lib) better moderate
    let performance ← Checked.extremeBy (evalQuality lib) better groups
    let byLoad ← Checked.extremeBy (evalSaverKey lib) worse groups
    let summaries ← groups.mapM (evalPowerSummary lib)
    match contest groups summaries with
    | none =>
        return some {
          selected := fun
            | .recommended => recommended
            | .performance => some performance
            | .batterySaver => some byLoad
          comparison := ⟨"estimated", groups.length, none, none⟩ }
    | some all => do
        let best ← Checked.extremeBy (evalContenderKey lib) worse all
        let overlap ← Checked.anyOf (evalOverlaps lib best) all
        return some {
          selected := fun
            | .recommended => recommended
            | .performance => some performance
            | .batterySaver => some best.2.1
          comparison := ⟨if overlap then "inconclusive" else "measured", groups.length,
            some overlap, some best.2.2⟩ }

end Choose

/-! ## The presets -/

deriving instance Inhabited for Assessment

/-- `assessment_map`. -/
abbrev AssessmentTable := List (String × Assessment)

section Select

variable (lib : Library) (table : AssessmentTable)

/-- `assessment_map[item["trial_id"]]`. -/
def evalRow (t : TrialRecord) : Checked Assessment := Checked.entry table t.trialId

/-- The row of a trial that is in the table. -/
def row (t : TrialRecord) : Assessment := (table.lookup t.trialId).getD default

/-- `_preset`. -/
def evalPreset (key : PresetName) (group : Option TrialGroup) (comparison : Comparison)
    (provisional : Bool) : Checked Preset :=
  match group with
  | none => return unavailable "No tested candidate meets the moderate CPU-load criterion."
  | some group => do
      let representative ← Checked.extremeBy
        (fun t : TrialRecord => Checked.known (t.metric .elapsedS)) greater group
      let _ ← group.mapM (evalRow table)
      let _ ← evalCpu lib group
      let peaks ← group.mapM fun t => Checked.known (t.metric .temperaturePeakC)
      let _ ← Checked.extreme greater peaks
      if key = .batterySaver ∧ comparison.confidence = "measured" ∧ comparison.power.isNone then
        .error .key
      else return presetOf lib (row table) key group representative comparison provisional

/-- The completed trials of a group in the context. -/
def evalMeasured (group : TrialGroup) : Checked TrialGroup :=
  Checked.select (fun t => do
    if t.outcome = .completed then return (← evalRow table t).contextMatches
    else return false) group

/-- The groups that pass. -/
def evalPassing (groups : List TrialGroup) : Checked (List TrialGroup) := do
  let held ← groups.mapM (evalMeasured table)
  Checked.select (fun group => do
    if group.isEmpty then return false
    else Checked.allOf (fun t => do return (← evalRow table t).softwarePassed) group) held

/-- The passing groups with thermal validation and physical confirmation. -/
def evalQualified (groups : List TrialGroup) : Checked (List TrialGroup) :=
  Checked.select (fun group => do
    if ← Checked.anyOf (fun t => do return (← evalRow table t).thermalValidated) group then
      Checked.anyOf (fun t => do return (← evalRow table t).physicalConfirmed) group
    else return false) groups

/-- One entry of the shortlist or of the presets. -/
def evalEntry (choice : Option Choice) (otherwise : String) (key : PresetName)
    (provisional : Bool) : Checked Preset :=
  match choice with
  | some choice => evalPreset lib table key (choice.selected key) choice.comparison provisional
  | none => return unavailable otherwise

end Select

/-- The entries by their names. -/
def entries (recommended performance batterySaver : Preset) : PresetName → Preset
  | .recommended => recommended
  | .performance => performance
  | .batterySaver => batterySaver

/-- `select_presets`. -/
def evalSelectPresets (lib : Library) (enc : Encoding) (trials : List PyValue)
    (contextId workloadId : PyValue) (advertisedModes : List PyValue)
    (policy : CalibrationPolicy) : Checked Selection := do
  let validated {α : Type} (x : Except String α) : Checked α := x.mapError .value
  let context ← validated (text contextId "context_id" 160)
  let workload ← validated (text workloadId "workload_id" 160)
  if policy.maxTrials.1 < trials.length then
    throw (.value "Calibration trials must be a bounded list")
  if 32 < advertisedModes.length then throw (.value "Receiver modes must be a bounded list")
  let modes ← validated (advertisedModes.mapM mode)
  let records ← validated (trials.mapM (recordTrial lib))
  if ¬ (records.map TrialRecord.trialId).Nodup then
    throw (.value "Duplicate trial IDs cannot establish independent repeats")
  -- the text of a candidate has only finite numbers, or `json.dumps` raises
  let _ ← records.mapM fun t => Checked.known (candidateKey enc t)
  let grouped := groupBy (candidateKey enc) records
  if policy.maxCandidates.1 < grouped.length then
    throw (.value "Too many calibration candidates")
  let assessments ← records.mapM (evalAssess lib context workload modes policy)
  let table := (records.map TrialRecord.trialId).zip assessments
  let passed ← evalPassing table grouped
  let accepted ← evalQualified table passed
  let provisional ← evalChoose lib policy passed
  let selected ← evalChoose lib policy accepted
  let short (key : PresetName) := evalEntry lib table provisional
    "No candidate passed the measured software and safety criteria." key true
  let shortlist := entries (← short .recommended) (← short .performance) (← short .batterySaver)
  let offered (key : PresetName) := evalEntry lib table selected
    (if (shortlist key).reason ≠ "" then (shortlist key).reason
      else "Physical and thermal validation is still required.") key false
  let presets := entries (← offered .recommended) (← offered .performance)
    (← offered .batterySaver)
  return {
    contextId := context
    workloadId := workload
    policy := policy
    advertisedModes := ProfileFields.wireModes.filter fun m => decide (m ∈ modes)
    records := records
    assessments := assessments
    shortlist := shortlist
    presets := presets }

end HccastWired.Calibration
