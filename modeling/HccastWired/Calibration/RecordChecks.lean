import HccastWired.Calibration.TrialRecord
import HccastWired.Foundation.Outcome

/-!
# What the checks of a record accept

Each check of a trial as what its result says about the value that it read.
-/

namespace HccastWired.Calibration

open Foundation Desktop

/-! ## Single values -/

theorem numeric_ok {value : PyValue} {name : String} {bounds : Bounds} {integer : Bool}
    {x : FiniteNumber} (h : numeric value name bounds integer = .ok x) :
    bounds.low ≤ x.value ∧ x.value ≤ bounds.high := by
  cases value with
  | number y =>
      simp only [numeric] at h
      split_ifs at h with hfinite hbounds
      · cases h
        exact ⟨hbounds.1, hbounds.2.1⟩
      · cases h
      · cases h
  | _ => cases h

theorem optionalNumeric_ok {value : PyValue} {name : String} {bounds : Bounds} {integer : Bool}
    {x : FiniteNumber} (h : optionalNumeric value name bounds integer = .ok (some x)) :
    bounds.low ≤ x.value ∧ x.value ≤ bounds.high := by
  unfold optionalNumeric at h
  split at h
  · cases h
  · cases hx : numeric value name bounds integer with
    | error e =>
        rw [hx] at h
        cases h
    | ok y =>
        rw [hx] at h
        cases h
        exact numeric_ok hx

theorem readNumbers_bounds {metrics : PyValue} : ∀ {fields : List NumericField}
    {numbers : NumericField → Option FiniteNumber}, readNumbers metrics fields = .ok numbers →
    ∀ f x, numbers f = some x → (f.bounds.1 : Rat) ≤ x.value ∧ x.value ≤ (f.bounds.2.1 : Rat)
  | [], numbers, h, f, x, hx => by
      cases h
      cases hx
  | g :: rest, numbers, h, f, x, hx => by
      obtain ⟨y, hy, h⟩ := bind_ok_iff.mp h
      obtain ⟨others, hothers, h⟩ := bind_ok_iff.mp h
      cases h
      by_cases heq : f = g
      · subst heq
        rw [Function.update_self] at hx
        rw [hx] at hy
        exact optionalNumeric_ok hy
      · rw [Function.update_of_ne heq] at hx
        exact readNumbers_bounds hothers f x hx

theorem orNone_ok {α : Type} {value : PyValue} {check : PyValue → Except String α} {x : α}
    (h : orNone value check = .ok (some x)) : check value = .ok x := by
  unfold orNone at h
  split at h
  · cases h
  · cases hx : check value with
    | error e =>
        rw [hx] at h
        cases h
    | ok y =>
        rw [hx] at h
        cases h
        rfl

theorem mode_ok {value : PyValue} {m : WireMode} (h : mode value = .ok m) :
    value = .list [.int m.1, .int m.2.1, .int m.2.2] := by
  unfold mode at h
  split at h
  · split at h
    · cases h
      rfl
    · cases h
  · cases h

/-! ## Values that are no containers -/

/-- The value is no list and no dictionary. -/
def isAtom : PyValue → Bool
  | .list _ | .dict _ => false
  | _ => true

section Atoms

variable {value : PyValue} {name error : String} {bounds : Bounds} {integer : Bool}

theorem text_atom {s : String} {limit : Nat} (h : text value name limit = .ok s) :
    isAtom value = true := by
  cases value with
  | str s => rfl
  | _ => cases h

theorem numeric_atom {x : FiniteNumber} (h : numeric value name bounds integer = .ok x) :
    isAtom value = true := by
  cases value with
  | number x => rfl
  | _ => cases h

theorem optionalNumeric_atom {x : Option FiniteNumber}
    (h : optionalNumeric value name bounds integer = .ok x) : isAtom value = true := by
  cases value with
  | list items => cases h
  | dict fields => cases h
  | _ => rfl

theorem boundedInt_atom {low high : Int} {n : BoundedInt low high}
    (h : boundedInt value name low high = .ok n) : isAtom value = true := by
  cases value with
  | list items => cases h
  | dict fields => cases h
  | _ => rfl

theorem boolOrNone_atom {b : Option Bool} (h : boolOrNone value error = .ok b) :
    isAtom value = true := by
  cases value with
  | list items => cases h
  | dict fields => cases h
  | _ => rfl

theorem choiceOrNone_atom {choices : List String} {s : Option String}
    (h : choiceOrNone value choices error = .ok s) : isAtom value = true := by
  cases value with
  | list items => cases h
  | dict fields => cases h
  | _ => rfl

theorem orNone_atom {α : Type} {check : PyValue → Except String α} {x : Option α}
    (hcheck : ∀ y, check value = .ok y → isAtom value = true)
    (h : orNone value check = .ok x) : isAtom value = true := by
  cases value with
  | list items =>
      cases hy : check (.list items) with
      | error e => simp [orNone, hy, Except.map] at h
      | ok y => exact hcheck y hy
  | dict fields =>
      cases hy : check (.dict fields) with
      | error e => simp [orNone, hy, Except.map] at h
      | ok y => exact hcheck y hy
  | _ => rfl

theorem readNumbers_atom {metrics : PyValue} : ∀ {fields : List NumericField}
    {numbers : NumericField → Option FiniteNumber}, readNumbers metrics fields = .ok numbers →
    ∀ f ∈ fields, isAtom (item metrics f.name) = true
  | [], _, _, f, hf => absurd hf List.not_mem_nil
  | g :: rest, numbers, h, f, hf => by
      obtain ⟨x, hx, h⟩ := bind_ok_iff.mp h
      obtain ⟨others, hothers, -⟩ := bind_ok_iff.mp h
      rcases List.mem_cons.mp hf with rfl | hrest
      · exact optionalNumeric_atom hx
      · exact readNumbers_atom hothers f hrest

/-- The runtime settings are documented and hold no containers. -/
theorem readRuntime_atoms {r : RuntimeSettings} (h : readRuntime value = .ok r) :
    value.hasKeys runtimeFields = true ∧ ∀ k ∈ runtimeFields, isAtom (item value k) = true := by
  simp only [readRuntime, bind, Except.bind, pure, Except.pure, throw, throwThe,
    MonadExceptOf.throw] at h
  repeat' split at h
  all_goals cases h
  refine ⟨not_not.mp ‹¬ ¬ PyValue.hasKeys _ _ = true›, ?_⟩
  have htext : ∀ {k : String} {s : Option String},
      orNone (item value k) (fun v => text v k 80) = .ok s → isAtom (item value k) = true :=
    fun hs => orNone_atom (fun _ => text_atom) hs
  simp only [runtimeFields, List.forall_mem_cons, List.not_mem_nil, false_imp_iff, implies_true,
    and_true]
  exact ⟨htext ‹orNone (item value "encoder") _ = _›, htext ‹orNone (item value "encoder_preset") _ = _›,
    orNone_atom (fun _ => boundedInt_atom) ‹orNone (item value "keyframe_interval_frames") _ = _›,
    htext ‹orNone (item value "cpu_governor") _ = _›,
    orNone_atom (fun _ => boundedInt_atom) ‹orNone (item value "cpu_cap_mhz") _ = _›,
    boolOrNone_atom ‹boolOrNone (item value "stock_clock") _ = _›,
    htext ‹orNone (item value "wifi_power_policy") _ = _›⟩

theorem readObservations_atoms {o : Observations} (h : readObservations value = .ok o) :
    value.hasKeys ["readable", "geometry_correct", "motion_acceptable"] = true ∧
      ∀ k ∈ ["readable", "geometry_correct", "motion_acceptable"], isAtom (item value k) = true := by
  simp only [readObservations, bind, Except.bind, pure, Except.pure, throw, throwThe,
    MonadExceptOf.throw] at h
  repeat' split at h
  all_goals cases h
  refine ⟨not_not.mp ‹¬ ¬ PyValue.hasKeys _ _ = true›, ?_⟩
  simp only [List.forall_mem_cons, List.not_mem_nil, false_imp_iff, implies_true, and_true]
  exact ⟨boolOrNone_atom ‹boolOrNone (item value "readable") _ = _›,
    boolOrNone_atom ‹boolOrNone (item value "geometry_correct") _ = _›,
    boolOrNone_atom ‹boolOrNone (item value "motion_acceptable") _ = _›⟩

def cpuWindowKeys : List String :=
  ["start_offset_s", "end_offset_s", "duration_s", "coverage", "intervals"]

theorem readCpuWindow_atoms {lib : Library} {elapsed mean : Option FiniteNumber} {w : CpuWindow}
    (h : readCpuWindow lib elapsed mean value = .ok w) :
    value.hasKeys cpuWindowKeys = true ∧ ∀ k ∈ cpuWindowKeys, isAtom (item value k) = true := by
  simp only [readCpuWindow, bind, Except.bind, pure, Except.pure, throw, throwThe,
    MonadExceptOf.throw] at h
  repeat' split at h
  all_goals cases h
  refine ⟨not_not.mp ‹¬ ¬ PyValue.hasKeys _ _ = true›, ?_⟩
  simp only [cpuWindowKeys, List.forall_mem_cons, List.not_mem_nil, false_imp_iff, implies_true,
    and_true]
  exact ⟨numeric_atom ‹numeric (item value "start_offset_s") _ _ _ = _›,
    numeric_atom ‹numeric (item value "end_offset_s") _ _ _ = _›,
    numeric_atom ‹numeric (item value "duration_s") _ _ _ = _›,
    numeric_atom ‹numeric (item value "coverage") _ _ _ = _›,
    numeric_atom ‹numeric (item value "intervals") _ _ _ = _›⟩

def powerKeys : List String := ["watts_mean", "uncertainty_watts", "scope", "meter_id", "samples"]

theorem readPower_atoms {p : Power} (h : readPower value = .ok p) :
    value.hasKeys powerKeys = true ∧ ∀ k ∈ powerKeys, isAtom (item value k) = true := by
  simp only [readPower, bind, Except.bind, pure, Except.pure, throw, throwThe,
    MonadExceptOf.throw] at h
  repeat' split at h
  all_goals cases h
  have hscope := not_not.mp ‹¬ value.get "scope" ≠ _›
  refine ⟨not_not.mp ‹¬ ¬ PyValue.hasKeys _ _ = true›, ?_⟩
  simp only [powerKeys, List.forall_mem_cons, List.not_mem_nil, false_imp_iff, implies_true,
    and_true]
  exact ⟨numeric_atom ‹numeric (item value "watts_mean") _ _ _ = _›,
    numeric_atom ‹numeric (item value "uncertainty_watts") _ _ _ = _›,
    by rw [item, hscope]; rfl, text_atom ‹text (item value "meter_id") _ _ = _›,
    numeric_atom ‹numeric (item value "samples") _ _ _ = _›⟩

end Atoms

/-! ## A whole record -/

/-- The checks that a record passes. -/
structure PassesChecks (lib : Library) (value : PyValue) (record : TrialRecord) : Prop where
  documented : documented value requiredFields
    ["api_version", "outcome", "failure_stage", "failure_reason"] = true
  version : ∀ v, value.get "api_version" = some v → v = .int 1
  outcome : readOutcome value = .ok record.outcome
  trialId : text (item value "trial_id") "trial_id" 160 = .ok record.trialId
  contextId : text (item value "context_id") "context_id" 160 = .ok record.contextId
  workloadId : text (item value "workload_id") "workload_id" 160 = .ok record.workloadId
  evidenceRef : reference (item value "evidence_ref") "evidence_ref" = .ok record.evidenceRef
  observedAt : ∃ when, item value "observed_at" = .str when ∧ lib.timezoned when = true
  profile : Profile.fromDict (item value "profile") = .ok record.profile
  runtime : readRuntime (item value "runtime_settings") = .ok record.runtimeSettings
  observations : readObservations (item value "observations") = .ok record.observations
  measurements : readMeasurements lib record.outcome (item value "measurements") =
    .ok record.measurements
  printable : value.printable = true

theorem recordTrial_iff {lib : Library} {value : PyValue} {record : TrialRecord} :
    recordTrial lib value = .ok record ↔ PassesChecks lib value record := by
  have hversion : (¬ ((value.get "api_version").any fun v => decide (v ≠ .int 1)) = true) ↔
      ∀ v, value.get "api_version" = some v → v = .int 1 := by
    cases value.get "api_version" with
    | none => simp
    | some v => simp
  constructor
  · intro h
    simp only [recordTrial, bind, Except.bind, pure, Except.pure, throw, throwThe,
      MonadExceptOf.throw] at h
    repeat' split at h
    all_goals cases h
    constructor
    case documented => exact not_not.mp ‹¬ ¬ documented _ _ _ = true›
    case version => exact hversion.mp ‹_›
    case observedAt => exact ⟨_, ‹item _ "observed_at" = _›, not_not.mp ‹¬ ¬ lib.timezoned _ = true›⟩
    case profile => exact mapError_ok_iff.mp ‹Except.mapError _ _ = _›
    case printable => exact not_not.mp ‹¬ ¬ PyValue.printable _ = true›
    all_goals assumption
  · intro h
    obtain ⟨when, hwhen, hzone⟩ := h.observedAt
    have hno := hversion.mpr h.version
    have hdict : ∃ fields, value = .dict fields := by
      cases value with
      | dict fields => exact ⟨fields, rfl⟩
      | _ => cases h.documented
    obtain ⟨fields, rfl⟩ := hdict
    simp only [recordTrial, h.documented, h.outcome, h.trialId, h.contextId, h.workloadId,
      h.evidenceRef, hwhen, hzone, h.profile, h.runtime, h.observations, h.measurements,
      h.printable, hno, not_true, if_false, Except.mapError, bind, Except.bind, pure, Except.pure]
    rfl

/-- The checks that the measurements of a record pass. -/
structure MetricsRead (lib : Library) (metrics : PyValue) (m : Measurements) : Prop where
  documented : documented metrics requiredMetrics
    ["cpu_window", "panel_latency_method", "panel_latency_evidence_ref"] = true
  numbers : readNumbers metrics NumericField.all = .ok m.numeric
  cpuWindow : orNone (item metrics "cpu_window")
    (readCpuWindow lib (m.numeric .elapsedS) (m.numeric .cpuMeanPercent)) = .ok m.cpuWindow
  choices : ∀ key ∈ ["window", "encoder_latency_statistic"], ∃ choices error chosen,
    choiceOrNone (item metrics key) choices error = .ok chosen
  flags : ∀ key ∈ ["queue_growing", "pipeline_drop_counts_complete"], ∃ error observed,
    boolOrNone (item metrics key) error = .ok observed
  negotiated : orNone (item metrics "negotiated_wire_mode") mode = .ok m.negotiatedWireMode
  latency : (m.numeric .panelLatencyMs).isSome = true →
    metrics.get "panel_latency_method" = some (.str "physical_marker_capture") ∧
      ∃ s, reference (item metrics "panel_latency_evidence_ref") "panel_latency_evidence_ref" = .ok s
  power : orNone (item metrics "whole_pi_power") readPower = .ok m.wholePiPower

theorem metricsRead {lib : Library} {outcome : Outcome} {metrics : PyValue} {m : Measurements}
    (h : readMeasurements lib outcome metrics = .ok m) : MetricsRead lib metrics m := by
  simp only [readMeasurements, bind, Except.bind, pure, Except.pure, throw, throwThe,
    MonadExceptOf.throw] at h
  repeat' split at h
  all_goals cases h
  all_goals
    refine ⟨not_not.mp ‹¬ ¬ documented _ _ _ = true›, ‹readNumbers _ _ = _›,
      ‹orNone _ (readCpuWindow _ _ _) = _›, ?_, ?_, ‹orNone _ mode = _›, ?_, ‹orNone _ readPower = _›⟩
    · simp only [List.forall_mem_cons, List.not_mem_nil, false_imp_iff, implies_true, and_true]
      exact ⟨⟨_, _, _, ‹choiceOrNone (item _ "window") _ _ = _›⟩,
        _, _, _, ‹choiceOrNone (item _ "encoder_latency_statistic") _ _ = _›⟩
    · simp only [List.forall_mem_cons, List.not_mem_nil, false_imp_iff, implies_true, and_true]
      exact ⟨⟨_, _, ‹boolOrNone (item _ "queue_growing") _ = _›⟩,
        _, _, ‹boolOrNone (item _ "pipeline_drop_counts_complete") _ = _›⟩
  · intro _
    exact ⟨not_not.mp ‹¬ _ ≠ _›, _, ‹reference _ _ = _›⟩
  · intro hknown
    exact absurd hknown ‹_›

end HccastWired.Calibration
