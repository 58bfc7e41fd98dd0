import HccastWired.Calibration.RecordForm

/-!
# A record is a normal form

Recording a record changes nothing, and JSON keeps a record that has no container of a kind
of its own. Those can stand only in the metadata of a panel latency that is not known.
-/

namespace HccastWired.Calibration

open Foundation Desktop

/-! ## The fields of a record -/

section Fields

variable {lib : Library} {value : PyValue} {record : TrialRecord}

theorem reference_atom {name s : String} (h : reference value name = .ok s) :
    isAtom value = true := by
  obtain ⟨t, ht, -⟩ := bind_ok_iff.mp h
  exact text_atom ht

/-- The fields of the outcome hold no containers. -/
theorem readOutcome_atoms {o : Outcome} (h : readOutcome value = .ok o) :
    ∀ k ∈ ["outcome", "failure_stage", "failure_reason"], isAtom (item value k) = true := by
  have hatom : isAtom ((value.get "outcome").getD (.str "completed")) = true →
      isAtom (item value "outcome") = true := by
    intro hdefault
    unfold item
    cases hget : value.get "outcome" with
    | none => rfl
    | some v => rwa [hget] at hdefault
  simp only [List.forall_mem_cons, List.not_mem_nil, false_imp_iff, implies_true, and_true]
  unfold readOutcome at h
  split at h
  next hcompleted =>
    refine ⟨hatom (by rw [hcompleted]; rfl), ?_⟩
    split at h
    · cases h
    next hnone =>
      simp only [hasField, Bool.or_eq_true, not_or, Option.not_isSome_iff_eq_none] at hnone
      rw [item, item, hnone.1, hnone.2]
      exact ⟨rfl, rfl⟩
  next haborted =>
    refine ⟨hatom (by rw [haborted]; rfl), ?_⟩
    split at h
    next stage hstage =>
      split at h
      · obtain ⟨reason, hreason, -⟩ := bind_ok_iff.mp h
        rw [item, hstage]
        exact ⟨rfl, text_atom hreason⟩
      · cases h
    · cases h
  · cases h

/-- The fields of a record that hold no containers. -/
def atomFields : List String :=
  ["trial_id", "context_id", "workload_id", "observed_at", "evidence_ref", "api_version",
    "outcome", "failure_stage", "failure_reason"]

theorem PassesChecks.atoms (h : PassesChecks lib value record) :
    ∀ k ∈ atomFields, isAtom (item value k) = true := by
  have houtcome := readOutcome_atoms h.outcome
  simp only [List.forall_mem_cons, List.not_mem_nil, false_imp_iff, implies_true, and_true]
    at houtcome
  simp only [atomFields, List.forall_mem_cons, List.not_mem_nil, false_imp_iff, implies_true,
    and_true]
  refine ⟨text_atom h.trialId, text_atom h.contextId, text_atom h.workloadId, ?_,
    reference_atom h.evidenceRef, ?_, houtcome⟩
  · obtain ⟨when, hwhen, -⟩ := h.observedAt
    rw [hwhen]
    rfl
  · unfold item
    cases hget : value.get "api_version" with
    | none => rfl
    | some v =>
        rw [h.version v hget]
        rfl

end Fields

section Record

variable {lib : Library} {floatText : Rat → String} {next a b : Nat} {record : TrialRecord}
  {value result x : TrialObject}

theorem metadata_strip (key : String) :
    metadata key value.strip = (metadata key value).map PyObject.strip := by
  unfold metadata
  rw [PyObject.get_strip]
  cases value.get "measurements" with
  | none => rfl
  | some metrics => exact PyObject.get_strip key metrics

theorem plainMetadata_strip : PlainMetadata value.strip ↔ PlainMetadata value := by
  unfold PlainMetadata
  simp only [metadata_strip, Option.map_eq_some_iff, forall_exists_index, and_imp,
    forall_apply_eq_imp_iff₂, PyObject.plain_strip]

/-- A written record is plain when its metadata are. -/
theorem plain_rewritten (hformed : x.wellFormed = true)
    (haccepted : PassesChecks lib (seen (withProfileRead x)) record)
    (hwritten : PassesChecks lib (seen (rewritten a b record x)) record)
    (hmetadata : PlainMetadata x) : (rewritten a b record x).plain = true := by
  have hx := isDict_of_checks haccepted
  have hresult : (rewritten a b record x).wellFormed = true := wellFormed_rewritten hformed
  obtain ⟨-, -, hallowed⟩ := (documented_seen (by decide) _).mp hwritten.documented
  have hkeys : ∀ k ∈ (rewritten a b record x).keys, keyName k ∈
      atomFields ++ ["profile", "runtime_settings", "observations", "measurements"] := by
    intro k hk
    have hname := hallowed k hk
    simp only [requiredFields, atomFields, List.mem_cons, List.mem_append, List.not_mem_nil,
      or_false] at hname ⊢
    tauto
  have hget : ∀ {k y}, k ≠ "" → (rewritten a b record x).get k = some y →
      item (seen (rewritten a b record x)) k = seen y := by
    intro k y hne hy
    rw [item_seen hne, hy]
    rfl
  apply plain_of_fields hresult (by rw [isDict_rewritten, hx]) (by decide) hkeys
  intro k hk y hy
  rcases List.mem_append.mp hk with hatom | hother
  · have hne : k ≠ "" := fun heq => absurd (heq ▸ hatom) (by decide)
    exact atom_of_item hne (hwritten.atoms k hatom) hy
  simp only [List.mem_cons, List.not_mem_nil, or_false] at hother
  rcases hother with rfl | rfl | rfl | rfl
  · rw [get_rewritten_profile hx] at hy
    cases hy
    rw [← PyObject.plain_strip, PyObject.strip_withId, PyObject.plain_strip]
    exact PyObject.plain_embed _
  · have hread := hwritten.runtime
    rw [hget (by decide) hy] at hread
    obtain ⟨hnames, hatoms⟩ := readRuntime_atoms hread
    exact plain_of_hasKeys (PyObject.wellFormed_get hresult hy) (by decide) hnames hatoms
  · have hread := hwritten.observations
    rw [hget (by decide) hy] at hread
    obtain ⟨hnames, hatoms⟩ := readObservations_atoms hread
    exact plain_of_hasKeys (PyObject.wellFormed_get hresult hy) (by decide) hnames hatoms
  · rw [get_rewritten_measurements hx] at hy
    obtain ⟨metrics, hmetrics, rfl⟩ := Option.map_eq_some_iff.mp hy
    have hread := haccepted.measurements
    rw [item_seen (by decide), get_withProfileRead (by decide), hmetrics] at hread
    apply plain_metrics (PyObject.wellFormed_get hformed hmetrics) (metricsRead hread)
    intro key hkey z hz
    apply hmetadata key hkey z
    rw [metadata, hmetrics]
    exact hz

/-- The metadata of a plain record are plain. -/
theorem plainMetadata_of_rewritten (hx : x.isDict = true)
    (h : (rewritten a b record x).plain = true) : PlainMetadata x := by
  intro key hkey y hy
  obtain ⟨metrics, hmetrics, hget⟩ := Option.bind_eq_some_iff.mp hy
  have hne : key ≠ "negotiated_wire_mode" := fun heq => absurd (heq ▸ hkey) (by decide)
  have hwritten : (rewritten a b record x).get "measurements" =
      some (withModeList b record metrics) := by
    rw [get_rewritten_measurements hx, hmetrics, Option.map_some]
  apply PyObject.plain_get (PyObject.plain_get h hwritten)
  rw [get_withModeList hne]
  exact hget

/-- The containers of a written record are those of the object and two new ones. -/
theorem mutables_rewritten {i : Nat} (h : i ∈ (rewritten a b record x).mutables) :
    i = a ∨ i = b ∨ i ∈ x.mutables := by
  have hmode : ∀ {metrics : TrialObject}, i ∈ (withModeList b record metrics).mutables →
      i = b ∨ i ∈ metrics.mutables := by
    intro metrics hi
    unfold withModeList at hi
    split at hi
    · rcases PyObject.mutables_set hi with hitem | hmetrics
      · exact .inl (by simpa [modeList, PyObject.mutables, PyObject.mutableItems] using hitem)
      · exact .inr hmetrics
    · exact .inr hi
  have hresult : ∀ {i : Nat}, i ∈ (((x.set "api_version" (.number (.int 1))).setDefault "outcome"
      (.str "completed")).set "profile"
      ((PyObject.embed record.profile.toDict).withId a)).mutables → i = a ∨ i ∈ x.mutables := by
    intro i hi
    rcases PyObject.mutables_set hi with hprofile | hdefault
    · exact .inl (by simpa [Profile.toDict, ProfileFields.toDict, PyObject.embed, PyObject.withId,
        PyObject.embedFields, PyObject.mutables, PyObject.mutableFields] using hprofile)
    · unfold PyObject.setDefault at hdefault
      split at hdefault
      · rcases PyObject.mutables_set hdefault with hatom | hold
        · cases hatom
        · exact .inr hold
      · rcases PyObject.mutables_set hdefault with hatom | hversion
        · cases hatom
        · rcases PyObject.mutables_set hversion with hatom | hold
          · cases hatom
          · exact .inr hold
  unfold rewritten at h
  dsimp only at h
  split at h
  next metrics hmetrics =>
    rcases PyObject.mutables_set h with hmember | hmember
    · rcases hmode hmember with rfl | hmetric
      · exact .inr (.inl rfl)
      · rcases hresult (PyObject.mutables_get hmetrics hmetric) with rfl | hold
        · exact .inl rfl
        · exact .inr (.inr hold)
    · rcases hresult hmember with rfl | hold
      · exact .inl rfl
      · exact .inr (.inr hold)
  next =>
    rcases hresult h with rfl | hold
    · exact .inl rfl
    · exact .inr (.inr hold)

/-- A record has no container of what it was made from. -/
theorem recordObject_fresh (h : recordObject lib floatText next value = .ok result)
    (hnext : ∀ i ∈ value.mutables, i < next) : ∀ i ∈ result.mutables, i ∉ value.mutables := by
  obtain ⟨record, content, -, rfl, -, -⟩ := recordObject_iff.mp h
  intro i hi hmem
  have hlt := hnext i hmem
  rcases mutables_rewritten hi with rfl | rfl | hcopy
  · omega
  · omega
  · exact absurd (PyObject.le_deepcopy value i hcopy) (not_le.mpr hlt)

theorem recordObject_wellFormed (h : recordObject lib floatText next value = .ok result)
    (hformed : value.wellFormed = true) : result.wellFormed = true := by
  obtain ⟨record, content, -, rfl, -, -⟩ := recordObject_iff.mp h
  apply wellFormed_rewritten
  rw [← PyObject.wellFormed_strip, PyObject.strip_deepcopy, PyObject.wellFormed_strip, hformed]

/-- A record is plain where its metadata were. -/
theorem recordObject_plain_iff (h : recordObject lib floatText next value = .ok result)
    (hformed : value.wellFormed = true) : result.plain = true ↔ PlainMetadata value := by
  obtain ⟨record, content, haccepted, rfl, hcontent, hprintable⟩ := recordObject_iff.mp h
  have hcopy := accepted_deepcopy next haccepted
  have hx := isDict_of_checks hcopy
  have hcopied : (value.deepcopy next).wellFormed = true := by
    rw [← PyObject.wellFormed_strip, PyObject.strip_deepcopy, PyObject.wellFormed_strip, hformed]
  have hmetadata : PlainMetadata (value.deepcopy next) ↔ PlainMetadata value := by
    rw [← plainMetadata_strip, PyObject.strip_deepcopy, plainMetadata_strip]
  rw [← hmetadata]
  constructor
  · exact plainMetadata_of_rewritten hx
  · have hwritten := accepted_rewritten hcopy
      (printable_seen floatText _ content hcontent hprintable)
    rw [withProfileRead_rewritten hx] at hwritten
    exact plain_rewritten hcopied hcopy hwritten

theorem metadata_none_strip {key : String} :
    metadata key value.strip = some .none ↔ metadata key value = some .none := by
  rw [metadata_strip, Option.map_eq_some_iff]
  constructor
  · rintro ⟨y, hy, hnone⟩
    cases y with
    | none => exact hy
    | _ => simp [PyObject.strip] at hnone
  · intro hnone
    exact ⟨.none, hnone, by simp [PyObject.strip]⟩

/-- A mode that is not known gets no list. -/
theorem withModeList_unknown {metrics : TrialObject}
    (hread : MetricsRead lib (seen metrics) record.measurements)
    (hnone : metrics.get "negotiated_wire_mode" = some .none) :
    withModeList b record metrics = metrics := by
  have hmode := hread.negotiated
  rw [item_seen (by decide), hnone, Option.map_some, Option.getD_some,
    show seen .none = .none by simp [seen]] at hmode
  have hunknown : none = record.measurements.negotiatedWireMode := Except.ok.inj hmode
  rw [withModeList, ← hunknown]

/-- What was unknown is unknown in the record. -/
theorem recordObject_unknown (h : recordObject lib floatText next value = .ok result) {key : String}
    (hnone : metadata key value = some .none) : metadata key result = some .none := by
  obtain ⟨record, content, haccepted, rfl, -, -⟩ := recordObject_iff.mp h
  have hcopy := accepted_deepcopy next haccepted
  have hx := isDict_of_checks hcopy
  have hstrip : (value.deepcopy next).strip = value.strip := PyObject.strip_deepcopy value
  rw [← metadata_none_strip, ← hstrip, metadata_none_strip] at hnone
  obtain ⟨metrics, hmetrics, hget⟩ := Option.bind_eq_some_iff.mp hnone
  have hread := hcopy.measurements
  rw [item_seen (by decide), get_withProfileRead (by decide), hmetrics] at hread
  rw [metadata, get_rewritten_measurements hx, hmetrics, Option.map_some, Option.bind_some]
  by_cases hmode : key = "negotiated_wire_mode"
  · subst hmode
    rw [withModeList_unknown (metricsRead hread) hget, hget]
  · rw [get_withModeList hmode, hget]

end Record

/-! ## Recording a record -/

/-- The object is recorded as something equal to a record. -/
def RecordsAs (lib : Library) (floatText : Rat → String) (x result : TrialObject) : Prop :=
  ∀ next, ∃ again, recordObject lib floatText next x = .ok again ∧ again.eq result = true

/-- A record has no container of its original and keeps its unknowns. Recorded again it is
equal to itself, and so is what its JSON text decodes to. -/
structure NormalForm (lib : Library) (floatText : Rat → String) (enc : Encoding)
    (value result : TrialObject) : Prop where
  fresh : ∀ i ∈ result.mutables, i ∉ value.mutables
  again : RecordsAs lib floatText result result
  decoded : ∃ content raw decoded, result.content floatText = some content ∧
    enc.dumps content = some raw ∧ enc.loads raw = .ok decoded ∧ decoded.unique = true ∧
    RecordsAs lib floatText (.embed decoded) result
  unknown : ∀ key, metadata key value = some .none → metadata key result = some .none

section Normal

variable {lib : Library} {floatText : Rat → String} {enc : Encoding} {next : Nat}
  {value result x : TrialObject}

/-- A record that a JSON value is recorded as is plain. -/
theorem RecordsAs.plain {v : PyValue} (h : RecordsAs lib floatText (.embed v) result)
    (hunique : v.unique = true) (hformed : result.wellFormed = true) : result.plain = true := by
  obtain ⟨again, hagain, heq⟩ := h 0
  have hvalue : (PyObject.embed v : TrialObject).wellFormed = true := by
    rw [PyObject.wellFormed_embed, hunique]
  have hmetadata : PlainMetadata (.embed v) := by
    intro key _ y hy
    obtain ⟨metrics, hmetrics, hget⟩ := Option.bind_eq_some_iff.mp hy
    exact PyObject.plain_get (PyObject.plain_get (PyObject.plain_embed v) hmetrics) hget
  exact PyObject.plain_of_eq again result heq ((recordObject_plain_iff hagain hvalue).mpr hmetadata)
    (recordObject_wellFormed hagain hvalue) hformed

/-- What a plain record holds besides identities is a value of JSON. -/
theorem recordObject_content (h : recordObject lib floatText next value = .ok result)
    (hformed : value.wellFormed = true) (hplain : result.plain = true) :
    ∃ v, result.content floatText = some v ∧ result.strip = .embed v ∧ v.unique = true ∧
      v.printable = true := by
  obtain ⟨v, hcontent, hstrip⟩ := PyObject.content_plain floatText result hplain
  obtain ⟨record, content, -, -, hwritten, hprintable⟩ := recordObject_iff.mp h
  obtain rfl : v = content := Option.some.inj (hcontent.symm.trans hwritten)
  refine ⟨v, hcontent, hstrip, ?_, hprintable⟩
  have hresult := recordObject_wellFormed h hformed
  rwa [← PyObject.wellFormed_strip, hstrip, PyObject.wellFormed_embed] at hresult

/-- What differs from a plain record only by its identities is recorded as the record. -/
theorem recordsAs_of_strip (h : recordObject lib floatText next value = .ok result)
    (hformed : value.wellFormed = true) (hplain : result.plain = true)
    (hx : x.strip = result.strip) : RecordsAs lib floatText x result := by
  intro m
  obtain ⟨v, -, hstrip, hunique, hprintable⟩ := recordObject_content h hformed hplain
  obtain ⟨again, hagain, hsame⟩ := recordObject_again h hx m
  refine ⟨again, hagain, ?_⟩
  rw [← PyObject.eq_strip, hsame, hstrip]
  exact PyObject.embed_eq_self v hunique hprintable

/-- A record is a normal form exactly where the metadata of its panel latency hold only
containers that JSON has. -/
theorem record_normal_form_iff (h : recordObject lib floatText next value = .ok result)
    (hformed : value.wellFormed = true) (hnext : ∀ i ∈ value.mutables, i < next) :
    NormalForm lib floatText enc value result ↔ PlainMetadata value := by
  rw [← recordObject_plain_iff h hformed]
  constructor
  · intro hnormal
    obtain ⟨content, raw, decoded, -, -, -, hunique, hrecords⟩ := hnormal.decoded
    exact hrecords.plain hunique (recordObject_wellFormed h hformed)
  · intro hplain
    obtain ⟨v, hcontent, hstrip, hunique, hprintable⟩ := recordObject_content h hformed hplain
    obtain ⟨raw, hraw⟩ := enc.dumps_printable v hprintable
    constructor
    · exact recordObject_fresh h hnext
    · exact recordsAs_of_strip h hformed hplain rfl
    · refine ⟨v, raw, v, hcontent, hraw, enc.loads_dumps v raw hunique hraw, hunique, ?_⟩
      apply recordsAs_of_strip h hformed hplain
      rw [PyObject.strip_embed, hstrip]
    · exact fun key hnone => recordObject_unknown h hnone

/-- A trial with a method of a panel latency that is not known. -/
def sampleObject (method : TrialObject) : TrialObject :=
  let trial : TrialObject := .embed (sampleTrial "a" (.float 2) 0)
  trial.set "measurements"
    (((trial.get "measurements").getD .none).set "panel_latency_method" method)

/-- The text that `json.dumps` writes for the record of that trial. -/
def sampleRecordText : Bytes :=
  let fields := ["\x7b\"trial_id\": \"a\"", "\"context_id\": \"pi\"", "\"workload_id\": \"desktop\"",
    "\"observed_at\": \"2025-01-01T00:00:00+00:00\"", "\"evidence_ref\": \"trials/a.json\"",
    "\"profile\": \x7b\"source_width\": 1280", "\"source_height\": 720", "\"content_fps\": 30",
    "\"wire_width\": 1280", "\"wire_height\": 720", "\"wire_fps\": 30", "\"bitrate_kbps\": 4096",
    "\"scale\": 2.0", "\"rotation\": 0\x7d",
    "\"runtime_settings\": \x7b\"encoder\": \"v4l2h264enc\"", "\"encoder_preset\": \"none\"",
    "\"keyframe_interval_frames\": 30", "\"cpu_governor\": \"ondemand\"", "\"cpu_cap_mhz\": 1800",
    "\"stock_clock\": true", "\"wifi_power_policy\": \"off\"\x7d",
    "\"measurements\": \x7b\"warmup_s\": 10", "\"elapsed_s\": 1200", "\"source_frames\": 36000",
    "\"output_frames\": 36000", "\"pipeline_dropped_frames\": 0", "\"decode_failures\": 0",
    "\"disconnects\": 0", "\"cpu_mean_percent\": 50", "\"temperature_peak_c\": 60",
    "\"throttled_bits_before\": 0", "\"throttled_bits_seen\": 0", "\"health_samples\": 600",
    "\"health_max_gap_s\": 2", "\"encoder_latency_ms\": 10", "\"encoder_latency_samples\": 36000",
    "\"panel_latency_ms\": null", "\"window\": \"steady_state\"",
    "\"pipeline_drop_counts_complete\": true", "\"encoder_latency_statistic\": \"max\"",
    "\"queue_growing\": false", "\"negotiated_wire_mode\": [1280", "720", "30]",
    "\"whole_pi_power\": null", "\"panel_latency_method\": \"none\"\x7d",
    "\"observations\": \x7b\"readable\": true", "\"geometry_correct\": true",
    "\"motion_acceptable\": true\x7d", "\"api_version\": 1", "\"outcome\": \"completed\"\x7d"]
  ((fields.flatMap fun field => field.toList ++ [',', ' ']).dropLast.dropLast).map fun c =>
    UInt8.ofNat c.toNat

theorem sampleRecordText_head : sampleRecordText.head? = some 123 := by decide +kernel

theorem record_normal_form_sample : ∃ result content,
    recordObject .binary64 toString 1 (sampleObject (.str "none")) = .ok result ∧
      result.content toString = some content ∧
      NormalForm .binary64 toString (.sample content sampleRecordText sampleRecordText_head)
        (sampleObject (.str "none")) result := by
  have hok : (recordObject .binary64 toString 1 (sampleObject (.str "none"))).toOption.any
      (fun result => (result.content toString).isSome) = true := by
    decide +kernel
  rw [Option.any_eq_true] at hok
  obtain ⟨result, hresult, hsome⟩ := hok
  obtain ⟨content, hcontent⟩ := Option.isSome_iff_exists.mp hsome
  refine ⟨result, content, ok_of_toOption hresult, hcontent, ?_⟩
  have hplain : ["panel_latency_method", "panel_latency_evidence_ref"].all (fun key =>
      (metadata key (sampleObject (.str "none"))).all PyObject.plain) = true := by
    decide +kernel
  refine (record_normal_form_iff (ok_of_toOption hresult) (by decide +kernel)
    (by decide +kernel)).mpr ?_
  intro key hkey x hx
  have hall := List.all_eq_true.mp hplain key hkey
  rwa [hx, Option.all_some] at hall

/-- A tuple comes back from JSON as a list. -/
theorem tuple_metadata_not_normal : ∃ result,
    recordObject .binary64 toString 1 (sampleObject (.tuple 0 [])) = .ok result ∧
      ∀ enc, ¬ NormalForm .binary64 toString enc (sampleObject (.tuple 0 [])) result := by
  have hok : (recordObject .binary64 toString 1 (sampleObject (.tuple 0 []))).toOption.any
      (fun result => !result.plain && result.wellFormed) = true := by
    decide +kernel
  rw [Option.any_eq_true] at hok
  obtain ⟨result, hresult, hnot⟩ := hok
  simp only [Bool.and_eq_true, Bool.not_eq_true'] at hnot
  refine ⟨result, ok_of_toOption hresult, ?_⟩
  intro enc hnormal
  obtain ⟨content, raw, decoded, -, -, -, hunique, hrecords⟩ := hnormal.decoded
  have hplain := hrecords.plain hunique hnot.2
  rw [hnot.1] at hplain
  cases hplain

end Normal

end HccastWired.Calibration
