import HccastWired.Calibration.PresetSelection
import HccastWired.Foundation.Binary64

/-!
# The evidence behind a preset

A preset that is offered comes from the completed trials of one candidate, and
each of them met every criterion.
-/

namespace HccastWired.Calibration

open Foundation Desktop

/-- The criteria of the software, each as what the trial shows. -/
structure Passes (lib : Library) (contextId workloadId : String) (modes : List WireMode)
    (policy : CalibrationPolicy) (t : TrialRecord) : Prop where
  context : t.contextId = contextId ∧ t.workloadId = workloadId
  wire : t.wire ∈ modes ∧ t.measurements.negotiatedWireMode = some t.wire
  unrotated : t.profile.1.rotation = 0
  runtime : t.runtimeKnown = true
  stock : t.runtimeSettings.stockClock = some true
  known : ∀ f ∈ TrialRecord.essential, (t.metric f).isSome = true
  steady : t.measurements.window = some "steady_state"
  warm : ∃ w, t.metric .warmupS = some w ∧ policy.minWarmupS.value ≤ w.value
  long : ∃ d, t.metric .elapsedS = some d ∧ policy.minTrialS.value ≤ d.value
  cool : ∃ x, t.metric .temperaturePeakC = some x ∧ x.value < policy.maxTemperatureC.value
  healthy : ∃ before seen, t.bits .throttledBitsBefore = some before ∧
    t.bits .throttledBitsSeen = some seen ∧ (before ||| seen) &&& 0xF = 0 ∧
    seen &&& ~~~before &&& 0xF0000 = 0 ∧ (before ||| seen) &&& ~~~0xF000F = 0
  decoded : ∃ x, t.metric .decodeFailures = some x ∧ x.value = 0
  connected : ∃ x, t.metric .disconnects = some x ∧ x.value = 0
  stable : t.measurements.queueGrowing = some false
  counted : t.measurements.pipelineDropCountsComplete = some true
  kept : ∀ x, t.dropFraction lib = some x → x.value < policy.maxPipelineDropFraction.value
  cadence : ∀ r, t.ratios lib = some r → ∀ ratio ∈ [r.1, r.2],
    policy.minFrameRatio.value ≤ ratio.value ∧ ratio.value ≤ policy.maxFrameRatio.value
  sampled : ∀ d, t.truthy .elapsedS = some d → ∃ n, t.metric .healthSamples = some n ∧
    (lib.ceil (lib.div d policy.maxHealthGapS) : Rat) ≤ n.value
  attended : ∃ x, t.metric .healthMaxGapS = some x ∧ x.value ≤ policy.maxHealthGapS.value
  statistic : t.measurements.encoderLatencyStatistic = some "max" ∨
    t.measurements.encoderLatencyStatistic = some "p95"
  timed : ∃ n outputs, t.metric .encoderLatencySamples = some n ∧
    t.metric .outputFrames = some outputs ∧ TrialRecord.tooFew lib n outputs = false
  headroom : ∃ x, t.headroom lib = some x ∧ policy.minEncoderHeadroom.value ≤ x.value
  observed : some false ∉ t.observations.values

section Assess

variable {lib : Library} {contextId workloadId : String} {modes : List WireMode}
  {policy : CalibrationPolicy} {t : TrialRecord}

/-- No reason was found against a trial that passed. -/
theorem checks_of_passed
    (h : (assess lib contextId workloadId modes policy t).softwarePassed = true) :
    t.outcome = .completed ∧
      ∀ check ∈ t.checks lib contextId workloadId modes policy, check.1 = false := by
  cases houtcome : t.outcome with
  | transportAborted stage reason =>
      simp only [assess, houtcome] at h
      cases h
  | completed =>
      simp only [assess, houtcome, List.isEmpty_iff, List.map_eq_nil_iff,
        List.filter_eq_nil_iff] at h
      exact ⟨rfl, fun check hcheck => Bool.eq_false_iff.mpr (h check hcheck)⟩

theorem passes_of_checks
    (h : ∀ check ∈ t.checks lib contextId workloadId modes policy, check.1 = false) :
    Passes lib contextId workloadId modes policy t := by
  simp only [TrialRecord.checks, List.cons_append, List.nil_append, List.forall_mem_cons,
    List.forall_mem_append, List.not_mem_nil, false_imp_iff, implies_true, and_true] at h
  obtain ⟨hcontext, hwire, hrotation, hruntime, hstock, hmissing, hwindow, hlong, hcool, hflags,
    hfailures, hqueue, hcounted, hdrops, hcadence, hsamples, hgap, hstatistic, htimed, hheadroom,
    hphysical⟩ := h
  have hknown : ∀ f ∈ TrialRecord.essential, (t.metric f).isSome = true := by
    simp only [Bool.not_eq_false', List.isEmpty_iff, TrialRecord.missing, List.map_eq_nil_iff,
      List.filter_eq_nil_iff, Option.isNone_iff_eq_none] at hmissing
    intro f hf
    exact Option.isSome_iff_ne_none.mpr (hmissing f hf)
  have hvalue : ∀ f ∈ TrialRecord.essential, ∃ x, t.metric f = some x :=
    fun f hf => Option.isSome_iff_exists.mp (hknown f hf)
  simp only [Bool.or_eq_false_iff, decide_eq_false_iff_not, not_not, ne_eq]
    at hwire hstock hwindow hrotation hqueue hcounted hstatistic hfailures
  constructor
  case context =>
    simpa [TrialRecord.matchesContext] using hcontext
  case wire => exact ⟨hwire.1, hwire.2⟩
  case unrotated => exact hrotation
  case runtime => simpa using hruntime
  case stock => exact hstock
  case known => exact hknown
  case steady => exact hwindow.1
  case warm =>
    obtain ⟨w, hw⟩ := hvalue .warmupS (by decide)
    refine ⟨w, hw, ?_⟩
    simpa [hw] using hwindow.2
  case long =>
    obtain ⟨d, hd⟩ := hvalue .elapsedS (by decide)
    refine ⟨d, hd, ?_⟩
    simpa [hd] using hlong
  case cool =>
    obtain ⟨x, hx⟩ := hvalue .temperaturePeakC (by decide)
    refine ⟨x, hx, ?_⟩
    simpa [hx] using hcool
  case healthy =>
    obtain ⟨before, hbefore⟩ := hvalue .throttledBitsBefore (by decide)
    obtain ⟨seen, hseen⟩ := hvalue .throttledBitsSeen (by decide)
    refine ⟨_, _, by rw [TrialRecord.bits, hbefore]; rfl, by rw [TrialRecord.bits, hseen]; rfl, ?_⟩
    simp only [TrialRecord.healthFlags, TrialRecord.bits, hbefore, hseen, Option.map_some,
      List.forall_mem_cons, List.not_mem_nil, false_imp_iff, implies_true, and_true,
      Bool.or_eq_false_iff, decide_eq_false_iff_not, not_not, ne_eq] at hflags
    exact ⟨hflags.1.1, hflags.1.2, hflags.2⟩
  case decoded =>
    obtain ⟨x, hx⟩ := hvalue .decodeFailures (by decide)
    refine ⟨x, hx, ?_⟩
    simpa [TrialRecord.nonzero, hx] using hfailures.1
  case connected =>
    obtain ⟨x, hx⟩ := hvalue .disconnects (by decide)
    refine ⟨x, hx, ?_⟩
    simpa [TrialRecord.nonzero, hx] using hfailures.2
  case stable => exact hqueue
  case counted => exact hcounted
  case kept =>
    intro x hx
    simpa [hx] using hdrops
  case cadence =>
    intro r hr ratio hratio
    simp only [hr, Option.any_some, List.any_eq_false] at hcadence
    simpa using hcadence ratio hratio
  case sampled =>
    intro d hd
    obtain ⟨n, hn⟩ := hvalue .healthSamples (by decide)
    refine ⟨n, hn, ?_⟩
    simpa [hd, hn] using hsamples
  case attended =>
    obtain ⟨x, hx⟩ := hvalue .healthMaxGapS (by decide)
    refine ⟨x, hx, ?_⟩
    simpa [hx] using hgap
  case statistic =>
    by_contra hneither
    exact hstatistic (not_or.mp hneither)
  case timed =>
    obtain ⟨n, hn⟩ := hvalue .encoderLatencySamples (by decide)
    obtain ⟨outputs, houtputs⟩ := hvalue .outputFrames (by decide)
    refine ⟨n, outputs, hn, houtputs, ?_⟩
    simpa [hn, houtputs] using htimed
  case headroom =>
    obtain ⟨latency, hlatency⟩ := hvalue .encoderLatencyMs (by decide)
    refine ⟨_, by rw [TrialRecord.headroom, hlatency]; rfl, ?_⟩
    simpa [TrialRecord.headroom, hlatency] using hheadroom
  case observed => simpa [TrialRecord.physicalFailed] using hphysical

/-- A trial is validated thermally when its window is long enough. -/
theorem thermal_of_assess
    (h : (assess lib contextId workloadId modes policy t).thermalValidated = true) :
    ∃ d, t.metric .elapsedS = some d ∧ policy.thermalValidationS.value ≤ d.value := by
  cases houtcome : t.outcome with
  | transportAborted stage reason =>
      simp only [assess, houtcome] at h
      cases h
  | completed =>
      simp only [assess, houtcome, Bool.and_eq_true, Option.any_eq_true, decide_eq_true_eq] at h
      exact h.2

theorem physical_of_assess
    (h : (assess lib contextId workloadId modes policy t).physicalConfirmed = true) :
    ∀ o ∈ t.observations.values, o = some true := by
  cases houtcome : t.outcome with
  | transportAborted stage reason =>
      simp only [assess, houtcome] at h
      cases h
  | completed =>
      simpa [assess, houtcome, TrialRecord.physicalConfirmed] using h

end Assess

/-! ## The settings of a candidate -/

section Key

variable {enc : Encoding} {t u : TrialRecord}

theorem sortedProfile_printable (p : Profile) : (sortedProfile p).printable = true := by
  have h := p.toDict_printable
  simp only [Profile.toDict, ProfileFields.toDict, sortedProfile, PyValue.printable,
    PyValue.printableFields, Bool.and_true, Bool.and_eq_true] at h ⊢
  obtain ⟨hsw, hsh, hfps, hww, hwh, hwf, hbitrate, hscale, hrotation⟩ := h
  exact ⟨hbitrate, hfps, hrotation, hscale, hsh, hsw, hwf, hwh, hww⟩

theorem bounded_printable {low high : Int} (hlow : -8000 ≤ low) (hhigh : high ≤ 10000)
    (n : BoundedInt low high) : (Number.int n.1).printable = true := by
  have hpow : 10 ^ 5 ≤ 10 ^ Number.maxDigits := Nat.pow_le_pow_right (by decide) (by decide)
  have hbounds := n.2
  simp only [Number.printable, decide_eq_true_eq]
  omega

theorem runtime_printable (r : RuntimeSettings) : r.toDict.printable = true := by
  obtain ⟨encoder, preset, keyframe, governor, cap, stock, wifi⟩ := r
  have htext : ∀ s : Option String, (s.elim .none .str : PyValue).printable = true := by
    intro s
    cases s <;> rfl
  have hkeyframe : (keyframe.elim .none fun n => .int n.1 : PyValue).printable = true := by
    cases keyframe with
    | none => rfl
    | some n => exact bounded_printable (by decide) (by decide) n
  have hcap : (cap.elim .none fun n => .int n.1 : PyValue).printable = true := by
    cases cap with
    | none => rfl
    | some n => exact bounded_printable (by decide) (by decide) n
  have hstock : (stock.elim .none .bool : PyValue).printable = true := by
    cases stock <;> rfl
  simp only [RuntimeSettings.toDict, PyValue.printable, PyValue.printableFields, htext, hkeyframe,
    hcap, hstock, Bool.and_self]

theorem runtime_unique (r : RuntimeSettings) : r.toDict.unique = true := by
  obtain ⟨encoder, preset, keyframe, governor, cap, stock, wifi⟩ := r
  have htext : ∀ s : Option String, (s.elim .none .str : PyValue).unique = true := by
    intro s
    cases s <;> rfl
  have hkeyframe : (keyframe.elim .none fun n => .int n.1 : PyValue).unique = true := by
    cases keyframe <;> rfl
  have hcap : (cap.elim .none fun n => .int n.1 : PyValue).unique = true := by
    cases cap <;> rfl
  have hstock : (stock.elim .none .bool : PyValue).unique = true := by
    cases stock <;> rfl
  simp [RuntimeSettings.toDict, PyValue.unique, PyValue.uniqueFields, htext, hkeyframe, hcap,
    hstock]

theorem sortedProfile_unique (p : Profile) : (sortedProfile p).unique = true := by
  simp [sortedProfile, PyValue.unique, PyValue.uniqueFields]

theorem sortedProfile_injective {p q : Profile} (h : sortedProfile p = sortedProfile q) : p = q := by
  apply Subtype.ext
  simp only [sortedProfile, PyValue.dict.injEq, List.cons.injEq, Prod.mk.injEq, true_and,
    PyValue.number.injEq, Number.int.injEq, and_true] at h
  obtain ⟨hbitrate, hfps, hrotation, hscale, hsh, hsw, hwf, hwh, hww⟩ := h
  cases hp : p.1
  cases hq : q.1
  simp_all

theorem runtime_injective {r s : RuntimeSettings} (h : r.toDict = s.toDict) : r = s := by
  have htext : Function.Injective fun s : Option String => (s.elim .none .str : PyValue) := by
    intro a b hab
    cases a <;> cases b <;> simp_all
  have hint : ∀ {low high : Int}, Function.Injective fun n : Option (BoundedInt low high) =>
      (n.elim .none fun n => .int n.1 : PyValue) := by
    intro low high a b hab
    cases a <;> cases b <;> simp_all [Subtype.ext_iff]
  have hbool : Function.Injective fun b : Option Bool => (b.elim .none .bool : PyValue) := by
    intro a b hab
    cases a <;> cases b <;> simp_all
  simp only [RuntimeSettings.toDict, PyValue.dict.injEq, List.cons.injEq, Prod.mk.injEq, true_and,
    and_true] at h
  obtain ⟨hcap, hgovernor, hencoder, hpreset, hkeyframe, hstock, hwifi⟩ := h
  cases r
  cases s
  simp only [RuntimeSettings.mk.injEq]
  exact ⟨htext hencoder, htext hpreset, hint hkeyframe, htext hgovernor, hint hcap, hbool hstock,
    htext hwifi⟩

/-- The text of a candidate tells its settings. -/
theorem candidateKey_injective (h : candidateKey enc t = candidateKey enc u) :
    t.profile = u.profile ∧ t.runtimeSettings = u.runtimeSettings := by
  have hunique : ∀ t : TrialRecord,
      (PyValue.list [sortedProfile t.profile, t.runtimeSettings.toDict]).unique = true := by
    intro t
    simp only [PyValue.unique, PyValue.uniqueItems, sortedProfile_unique, runtime_unique,
      Bool.and_self]
  have hprintable : (PyValue.list [sortedProfile t.profile, t.runtimeSettings.toDict]).printable =
      true := by
    simp only [PyValue.printable, PyValue.printableItems, sortedProfile_printable,
      runtime_printable, Bool.and_self]
  obtain ⟨raw, hraw⟩ := enc.dumps_printable _ hprintable
  have hloads := enc.loads_dumps _ raw (hunique t) hraw
  have hraw' : enc.dumps (.list [sortedProfile u.profile, u.runtimeSettings.toDict]) = some raw :=
    h.symm.trans hraw
  have hloads' := enc.loads_dumps _ raw (hunique u) hraw'
  rw [hloads] at hloads'
  have hequal := Except.ok.inj hloads'
  simp only [PyValue.list.injEq, List.cons.injEq, and_true] at hequal
  exact ⟨sortedProfile_injective hequal.1, runtime_injective hequal.2⟩

end Key

/-! ## The chosen groups -/

section Chosen

variable {lib : Library} {policy : CalibrationPolicy} {groups : List TrialGroup} {choice : Choice}
  {key : PresetName} {group : TrialGroup}

/-- Each candidate of the power comparison is one of the groups, with its power. -/
theorem contenders_mem {all : List Contender} (h : contenders lib groups = some all) :
    (∀ c ∈ all, c.2.1 ∈ groups ∧ powerSummary lib c.2.1 = some c.2.2) ∧
      (∀ g ∈ groups, ∃ c ∈ all, c.2.1 = g) ∧
      (∀ c ∈ all, ∀ d ∈ all, c.1 = d.1 → c.2.1 = d.2.1) ∧
      ∀ c ∈ all, ∀ d ∈ all, d.2.2.meterId = c.2.2.meterId := by
  unfold contenders at h
  split at h
  next every hevery =>
    split at h
    next hmeters =>
      cases h
      obtain ⟨hback, hforth⟩ := mem_of_mapM hevery
      have hindex : ∀ c ∈ all, (c.2.1, c.1) ∈ groups.zipIdx ∧
          powerSummary lib c.2.1 = some c.2.2 := by
        intro c hc
        obtain ⟨⟨g, i⟩, hg, hpower⟩ := hback c hc
        obtain ⟨p, hp, rfl⟩ := Option.map_eq_some_iff.mp hpower
        exact ⟨hg, hp⟩
      refine ⟨?_, ?_, ?_, ?_⟩
      · intro c hc
        obtain ⟨hg, hp⟩ := hindex c hc
        exact ⟨List.fst_mem_of_mem_zipIdx hg, hp⟩
      · intro g hg
        obtain ⟨i, hi⟩ := List.getElem?_of_mem hg
        obtain ⟨c, hc, hpower⟩ := hforth (g, i) (List.mk_mem_zipIdx_iff_getElem?.mpr hi)
        obtain ⟨p, -, rfl⟩ := Option.map_eq_some_iff.mp hpower
        exact ⟨_, hc, rfl⟩
      · intro c hc d hd hsame
        have hcget := List.mk_mem_zipIdx_iff_getElem?.mp (hindex c hc).1
        have hdget := List.mk_mem_zipIdx_iff_getElem?.mp (hindex d hd).1
        rw [← hsame, hcget] at hdget
        exact Option.some.inj hdget
      · intro c hc d hd
        have hrow := List.all_eq_true.mp hmeters c hc
        exact of_decide_eq_true (List.all_eq_true.mp hrow d hd)
    next => cases h
  next => cases h

/-- What is chosen is one of the groups. -/
theorem choose_mem (h : choose lib policy groups = some choice)
    (hselected : choice.selected key = some group) : group ∈ groups := by
  unfold choose at h
  split at h
  · cases h
  dsimp only at h
  split at h
  · cases h
    cases key with
    | recommended => exact (List.mem_filter.mp (firstBest_mem hselected)).1
    | performance => exact firstBest_mem hselected
    | batterySaver => exact firstBest_mem hselected
  next w all hwinner =>
    cases h
    cases key with
    | recommended => exact (List.mem_filter.mp (firstBest_mem hselected)).1
    | performance => exact firstBest_mem hselected
    | batterySaver =>
        cases hselected
        obtain ⟨every, hevery, hfirst⟩ := Option.bind_eq_some_iff.mp hwinner
        obtain ⟨winner, hbest, heq⟩ := Option.map_eq_some_iff.mp hfirst
        cases heq
        exact ((contenders_mem hevery).1 w (firstBest_mem hbest)).1

end Chosen

/-! ## What a selection was made from -/

section Selected

variable {lib : Library} {enc : Encoding} {trials : List PyValue} {contextId workloadId : PyValue}
  {advertisedModes : List PyValue} {policy : CalibrationPolicy} {s : Selection}

theorem text_ok {value : PyValue} {name s : String} {limit : Nat}
    (h : text value name limit = .ok s) : value = .str s := by
  unfold text at h
  split at h
  · split at h
    · cases h
    · cases h
      rfl
  · cases h

/-- What `select_presets` accepts, and what it returns then. -/
theorem selectPresets_ok
    (h : selectPresets lib enc trials contextId workloadId advertisedModes policy = .ok s) :
    ∃ modes, text contextId "context_id" 160 = .ok s.contextId ∧
      text workloadId "workload_id" 160 = .ok s.workloadId ∧
      advertisedModes.mapM mode = .ok modes ∧ trials.mapM (recordTrial lib) = .ok s.records ∧
      (s.records.map TrialRecord.trialId).Nodup ∧
      s = selectionOf lib enc s.contextId s.workloadId modes policy s.records := by
  simp only [selectPresets, bind, Except.bind, pure, Except.pure, throw, throwThe,
    MonadExceptOf.throw] at h
  repeat' split at h
  all_goals cases h
  rename_i _ context hcontext _ workload hworkload _ _ _ modes hmodes _ records hrecords hdistinct _
  exact ⟨modes, hcontext, hworkload, hmodes, hrecords, not_not.mp hdistinct, rfl⟩

variable {assessment : TrialRecord → Assessment} {groups : List TrialGroup} {group : TrialGroup}

theorem passing_mem : group ∈ passing assessment groups ↔
    (∃ g ∈ groups, group = measured assessment g) ∧ group ≠ [] ∧
      ∀ t ∈ group, (assessment t).softwarePassed = true := by
  simp only [passing, List.mem_filter, List.mem_map, Bool.and_eq_true, Bool.not_eq_true',
    List.isEmpty_eq_false_iff, List.all_eq_true]
  constructor
  · rintro ⟨⟨g, hg, rfl⟩, hne, hall⟩
    exact ⟨⟨g, hg, rfl⟩, hne, hall⟩
  · rintro ⟨⟨g, hg, rfl⟩, hne, hall⟩
    exact ⟨⟨g, hg, rfl⟩, hne, hall⟩

theorem qualified_mem : group ∈ qualified assessment groups ↔
    group ∈ passing assessment groups ∧ (∃ t ∈ group, (assessment t).thermalValidated = true) ∧
      ∃ t ∈ group, (assessment t).physicalConfirmed = true := by
  simp only [qualified, List.mem_filter, Bool.and_eq_true, List.any_eq_true]

theorem measured_mem {t : TrialRecord} : t ∈ measured assessment group ↔
    t ∈ group ∧ t.outcome = .completed ∧ (assessment t).contextMatches = true := by
  simp only [measured, List.mem_filter, Bool.and_eq_true, decide_eq_true_eq]

/-- A preset with settings was made from a group and its longest trial. -/
theorem preset_cases (lib : Library) (assessment : TrialRecord → Assessment) (key : PresetName)
    (comparison : Comparison) (provisional : Bool) (chosen : Option TrialGroup) :
    (preset lib assessment key chosen comparison provisional).settings = none ∧
        (preset lib assessment key chosen comparison provisional).available = false ∧
        (preset lib assessment key chosen comparison provisional).trialIds = [] ∧
        (preset lib assessment key chosen comparison provisional).confidence = none ∨
      ∃ group t, chosen = some group ∧ t ∈ group ∧
        preset lib assessment key chosen comparison provisional =
          presetOf lib assessment key group t comparison provisional := by
  unfold preset
  split
  · exact .inl ⟨rfl, rfl, rfl, rfl⟩
  next group =>
    cases hbest : firstBest longer group with
    | none => exact .inl ⟨rfl, rfl, rfl, rfl⟩
    | some t => exact .inr ⟨group, t, rfl, firstBest_mem hbest, rfl⟩

/-- A preset is empty, or it was made from a qualified group that was chosen. -/
theorem selectionOf_preset (lib : Library) (enc : Encoding) (context workload : String)
    (modes : List WireMode) (policy : CalibrationPolicy) (records : List TrialRecord)
    (key : PresetName) :
    let assessment := assess lib context workload modes policy
    let grouped := groupBy (candidateKey enc) records
    let selection := selectionOf lib enc context workload modes policy records
    ((selection.presets key).settings = none ∧ (selection.presets key).available = false ∧
        (selection.presets key).trialIds = [] ∧ (selection.presets key).confidence = none) ∨
      ∃ choice group t, choose lib policy (qualified assessment grouped) = some choice ∧
        choice.selected key = some group ∧ t ∈ group ∧
        selection.presets key = presetOf lib assessment key group t choice.comparison false := by
  intro assessment grouped selection
  cases hchoice : choose lib policy (qualified assessment grouped) with
  | none =>
      left
      simp only [selection, selectionOf, grouped, assessment] at hchoice ⊢
      rw [hchoice]
      exact ⟨rfl, rfl, rfl, rfl⟩
  | some choice =>
      have heq : selection.presets key =
          preset lib assessment key (choice.selected key) choice.comparison false := by
        simp only [selection, selectionOf, grouped, assessment] at hchoice ⊢
        rw [hchoice]
      rw [heq]
      rcases preset_cases lib assessment key choice.comparison false (choice.selected key) with
        hnone | ⟨group, t, hgroup, ht, hpreset⟩
      · exact .inl hnone
      · exact .inr ⟨choice, group, t, rfl, hgroup, ht, hpreset⟩

end Selected

/-! ## The claim of a preset -/

section Evidence

variable {lib : Library} {enc : Encoding} {context workload : String} {modes : List WireMode}
  {policy : CalibrationPolicy} {records : List TrialRecord} {group : TrialGroup}

/-- The groups of the completed trials that passed, by candidate. -/
def passingGroups (lib : Library) (enc : Encoding) (context workload : String)
    (modes : List WireMode) (policy : CalibrationPolicy) (records : List TrialRecord) :
    List TrialGroup :=
  passing (assess lib context workload modes policy) (groupBy (candidateKey enc) records)

/-- The qualified candidates. -/
def qualifiedGroups (lib : Library) (enc : Encoding) (context workload : String)
    (modes : List WireMode) (policy : CalibrationPolicy) (records : List TrialRecord) :
    List TrialGroup :=
  qualified (assess lib context workload modes policy) (groupBy (candidateKey enc) records)

/-- A passing group holds the measured trials of one candidate, all of which passed. -/
theorem passingGroups_spec
    (h : group ∈ passingGroups lib enc context workload modes policy records) :
    group ≠ [] ∧
      (∀ t ∈ group, t ∈ records ∧ t.outcome = .completed ∧
        Passes lib context workload modes policy t) ∧
      (∀ t ∈ group, ∀ u ∈ group, t.profile = u.profile ∧ t.runtimeSettings = u.runtimeSettings) ∧
      ∀ t ∈ group, ∀ u ∈ records, u.outcome = .completed →
        u.matchesContext context workload = true → u.profile = t.profile →
        u.runtimeSettings = t.runtimeSettings → u ∈ group := by
  obtain ⟨⟨g, hg, rfl⟩, hne, hpassed⟩ := passing_mem.mp h
  refine ⟨hne, ?_, ?_, ?_⟩
  · intro t ht
    obtain ⟨houtcome, hchecks⟩ := checks_of_passed (hpassed t ht)
    have hgroup := (measured_mem.mp ht).1
    exact ⟨((mem_group_iff hg hgroup).mp hgroup).1, houtcome, passes_of_checks hchecks⟩
  · intro t ht u hu
    have hgt := (measured_mem.mp ht).1
    have hgu := (measured_mem.mp hu).1
    exact candidateKey_injective ((mem_group_iff hg hgu).mp hgt).2
  · intro t ht u hu hcompleted hmatches hprofile hruntime
    refine measured_mem.mpr ⟨(mem_group_iff hg (measured_mem.mp ht).1).mpr ⟨hu, ?_⟩, hcompleted, ?_⟩
    · rw [candidateKey, candidateKey, hprofile, hruntime]
    · simpa only [assess, hcompleted] using hmatches

/-- The power of a group is that of its measurements on one meter. -/
theorem powerSummary_spec {summary : PowerSummary} (h : powerSummary lib group = some summary) :
    2 ≤ (powers group).length ∧ ∀ p ∈ powers group, p.meterId = summary.meterId := by
  unfold powerSummary at h
  split at h
  · cases h
  next first rest hpowers =>
    dsimp only at h
    split at h
    · cases h
    next hcount =>
    split at h
    · cases h
    next hmeters =>
      cases h
      rw [hpowers]
      refine ⟨?_, ?_⟩
      · exact not_lt.mp fun hfew => hcount (.inl hfew)
      · intro p hp
        by_contra hother
        exact hmeters (List.any_eq_true.mpr ⟨p, hp, decide_eq_true hother⟩)

/-- A measured comparison has a winner whose upper bound is below every other
candidate's lower bound. -/
theorem choose_measured {groups : List TrialGroup} {choice : Choice}
    (h : choose lib policy groups = some choice) (hmeasured : choice.comparison.confidence =
      "measured") :
    ∃ chosen ∈ groups, choice.selected .batterySaver = some chosen ∧
      ∃ meter best, powerSummary lib chosen = some best ∧
        ∀ g ∈ groups, ∃ other, powerSummary lib g = some other ∧ other.meterId = meter ∧
          (g ≠ chosen → (best.upper lib).value < (other.lower lib).value) := by
  unfold choose at h
  split at h
  · cases h
  dsimp only at h
  split at h
  · cases h
    have hestimated : "estimated" ≠ "measured" := by decide
    exact absurd hmeasured hestimated
  next w all hwinner =>
    cases h
    dsimp only at hmeasured
    split at hmeasured
    · exact absurd hmeasured (by decide)
    next hclear =>
      obtain ⟨every, hevery, hfirst⟩ := Option.bind_eq_some_iff.mp hwinner
      obtain ⟨winner, hbest, heq⟩ := Option.map_eq_some_iff.mp hfirst
      cases heq
      obtain ⟨hpower, hgroup, hindex, hmeter⟩ := contenders_mem hevery
      have hw := firstBest_mem hbest
      refine ⟨w.2.1, (hpower w hw).1, rfl, w.2.2.meterId, w.2.2, (hpower w hw).2, ?_⟩
      intro g hg
      obtain ⟨c, hc, rfl⟩ := hgroup g hg
      refine ⟨c.2.2, (hpower c hc).2, hmeter w hw c hc, ?_⟩
      intro hother
      by_contra hreached
      have hne : c.1 ≠ w.1 := fun hsame => hother (hindex c hc w hw hsame)
      have hoverlap : overlaps lib w c = true := by
        rw [overlaps, decide_eq_true hne, decide_eq_true (not_lt.mp hreached)]
        rfl
      exact hclear (List.any_eq_true.mpr ⟨c, hc, hoverlap⟩)

/-- A preset that is offered comes from the completed trials of one candidate,
which all pass, of which one is long enough and one is confirmed; and its Battery
Saver is called measured only when the powers of all qualified candidates were
measured on one meter and the chosen one is clearly below the others. -/
theorem preset_has_evidence {trials : List PyValue} {contextId workloadId : PyValue}
    {advertisedModes : List PyValue} {s : Selection}
    (h : selectPresets lib enc trials contextId workloadId advertisedModes policy = .ok s) :
    ∃ modes, contextId = .str s.contextId ∧ workloadId = .str s.workloadId ∧
      advertisedModes.mapM mode = .ok modes ∧ trials.mapM (recordTrial lib) = .ok s.records ∧
      (∀ key, (s.presets key).available = true →
        ∃ (group : TrialGroup) (profile : Profile) (runtime : RuntimeSettings), group ≠ [] ∧
          (s.presets key).settings = some profile ∧
          (s.presets key).runtimeSettings = some runtime ∧
          (s.presets key).trialIds =
            (group.map TrialRecord.trialId).mergeSort (fun a b => decide (a ≤ b)) ∧
          (∀ t ∈ group, t ∈ s.records ∧ t.outcome = .completed ∧ t.profile = profile ∧
            t.runtimeSettings = runtime ∧ Passes lib s.contextId s.workloadId modes policy t) ∧
          (profile.1.wireWidth, profile.1.wireHeight, profile.1.wireFps) ∈ modes ∧
          (∀ t ∈ group, t.measurements.negotiatedWireMode =
            some (profile.1.wireWidth, profile.1.wireHeight, profile.1.wireFps)) ∧
          (∃ t ∈ group, ∃ d, t.metric .elapsedS = some d ∧
            policy.thermalValidationS.value ≤ d.value) ∧
          ∃ t ∈ group, ∀ o ∈ t.observations.values, o = some true) ∧
      ∀ confidence, (s.presets .batterySaver).confidence = some confidence →
        confidence.power = "measured" →
        ∃ chosen ∈ qualifiedGroups lib enc s.contextId s.workloadId modes policy s.records,
          (s.presets .batterySaver).trialIds =
            (chosen.map TrialRecord.trialId).mergeSort (fun a b => decide (a ≤ b)) ∧
          ∃ meter, ∀ g ∈ qualifiedGroups lib enc s.contextId s.workloadId modes policy s.records,
            2 ≤ (powers g).length ∧ (∀ p ∈ powers g, p.meterId = meter) ∧
            (g ≠ chosen → ∃ best other, powerSummary lib chosen = some best ∧
              powerSummary lib g = some other ∧
              (best.upper lib).value < (other.lower lib).value) := by
  obtain ⟨modes, hcontext, hworkload, hmodes, hrecords, -, hs⟩ := selectPresets_ok h
  have hpreset := fun key => selectionOf_preset lib enc s.contextId s.workloadId modes policy
    s.records key
  dsimp only at hpreset
  rw [← hs] at hpreset
  refine ⟨modes, text_ok hcontext, text_ok hworkload, hmodes, hrecords, ?_, ?_⟩
  · intro key havailable
    rcases hpreset key with ⟨-, hnone, -⟩ | ⟨choice, group, t, hchoice, hselected, ht, heq⟩
    · rw [hnone] at havailable
      cases havailable
    · obtain ⟨hpassing, ⟨hot, hhot, hthermal⟩, seen, hseen, hphysical⟩ :=
        qualified_mem.mp (choose_mem hchoice hselected)
      obtain ⟨hne, hpasses, hsame, -⟩ := passingGroups_spec hpassing
      have hwire : ∀ u ∈ group, u.wire = t.wire := by
        intro u hu
        rw [TrialRecord.wire, (hsame u hu t ht).1, TrialRecord.wire]
      refine ⟨group, t.profile, t.runtimeSettings, hne, by rw [heq]; rfl, by rw [heq]; rfl,
        by rw [heq]; rfl, ?_, ?_, ?_, ⟨hot, hhot, thermal_of_assess hthermal⟩,
        ⟨seen, hseen, physical_of_assess hphysical⟩⟩
      · intro u hu
        obtain ⟨hrecord, hcompleted, hu'⟩ := hpasses u hu
        exact ⟨hrecord, hcompleted, (hsame u hu t ht).1, (hsame u hu t ht).2, hu'⟩
      · exact (hpasses t ht).2.2.wire.1
      · intro u hu
        rw [(hpasses u hu).2.2.wire.2, hwire u hu]
        rfl
  · intro confidence hconfidence hmeasured
    rcases hpreset .batterySaver with ⟨-, -, -, hnone⟩ | ⟨choice, group, t, hchoice, hselected,
      ht, heq⟩
    · rw [hnone] at hconfidence
      cases hconfidence
    · rw [heq] at hconfidence ⊢
      cases hconfidence
      obtain ⟨chosen, hchosen, hsaver, meter, best, hbest, hothers⟩ :=
        choose_measured hchoice hmeasured
      rw [hselected] at hsaver
      cases hsaver
      refine ⟨group, hchosen, rfl, meter, ?_⟩
      intro g hg
      obtain ⟨other, hother, hmeter, hbelow⟩ := hothers g hg
      obtain ⟨htwo, hsame⟩ := powerSummary_spec hother
      refine ⟨htwo, fun p hp => (hsame p hp).trans hmeter, fun hne => ?_⟩
      exact ⟨best, other, hbest, hother, hbelow hne⟩

end Evidence

/-! ## A trial with all evidence -/

section Sample

/-- An operation that is exact on integers and rounds otherwise. -/
def rounded (onInts : Int → Int → Int) (exact : Rat → Rat → Rat) (x y : FiniteNumber) :
    FiniteNumber :=
  match x.1, y.1 with
  | .int m, .int n => .int (onInts m n)
  | _, _ => ⟨.float (roundBinary64 (exact x.value y.value)), rfl⟩

/-- The text of a number that is not negative, with so many decimals. -/
def fixedText (decimals : Nat) (x : FiniteNumber) : String :=
  let scaled := (roundHalfEven (x.value * 10 ^ decimals)).toNat
  let digits := toString (scaled % 10 ^ decimals)
  toString (scaled / 10 ^ decimals) ++ "." ++
    String.ofList (List.replicate (decimals - digits.length) '0') ++ digits

/-- The interpreter's arithmetic; texts of whole numbers, and timestamps in UTC. -/
def Library.binary64 : Library where
  add := rounded (· + ·) (· + ·)
  sub := rounded (· - ·) (· - ·)
  mul := rounded (· * ·) (· * ·)
  div x y := ⟨.float (roundBinary64 (x.value / y.value)), rfl⟩
  sum xs := xs.foldl (rounded (· + ·) (· + ·)) (.int 0)
  mean xs := ⟨.float (roundBinary64 ((xs.map FiniteNumber.value).sum / xs.length)), rfl⟩
  ceil x := x.value.ceil
  isClose x y tolerance := decide (|x.value - y.value| ≤ tolerance)
  general x := toString x.value.floor
  fixed := fixedText
  timezoned when := decide (when.toList.drop 19 = "+00:00".toList)

/-- `CalibrationPolicy()`. -/
def CalibrationPolicy.default : CalibrationPolicy where
  minTrialS := .int 30
  minWarmupS := .int 5
  thermalValidationS := .int 1200
  maxTemperatureC := .int 70
  minEncoderHeadroom := ⟨.float (3602879701896397 / 18014398509481984), rfl⟩
  maxPipelineDropFraction := ⟨.float (5764607523034235 / 576460752303423488), rfl⟩
  minFrameRatio := ⟨.float (2206763817411543 / 2251799813685248), rfl⟩
  maxFrameRatio := ⟨.float (4728779608739021 / 4503599627370496), rfl⟩
  maxHealthGapS := .int 5
  recommendedCpuPercent := .int 60
  maxCandidates := ⟨8, by decide⟩
  maxTrials := ⟨32, by decide⟩

/-- A trial of twenty minutes, of a scale and with a number of decode failures. -/
def sampleTrial (id : String) (scale : Number) (failures : Int) : PyValue :=
  .dict [("trial_id", .str id), ("context_id", .str "pi"), ("workload_id", .str "desktop"),
    ("observed_at", .str "2025-01-01T00:00:00+00:00"), ("evidence_ref", .str "trials/a.json"),
    ("profile", ProfileFields.toDict ⟨1280, 720, 30, 1280, 720, 30, 4096, scale, 0⟩),
    ("runtime_settings", .dict [("encoder", .str "v4l2h264enc"), ("encoder_preset", .str "none"),
      ("keyframe_interval_frames", .int 30), ("cpu_governor", .str "ondemand"),
      ("cpu_cap_mhz", .int 1800), ("stock_clock", .bool true),
      ("wifi_power_policy", .str "off")]),
    ("measurements", .dict [("warmup_s", .int 10), ("elapsed_s", .int 1200),
      ("source_frames", .int 36000), ("output_frames", .int 36000),
      ("pipeline_dropped_frames", .int 0), ("decode_failures", .int failures),
      ("disconnects", .int 0), ("cpu_mean_percent", .int 50), ("temperature_peak_c", .int 60),
      ("throttled_bits_before", .int 0), ("throttled_bits_seen", .int 0),
      ("health_samples", .int 600), ("health_max_gap_s", .int 2), ("encoder_latency_ms", .int 10),
      ("encoder_latency_samples", .int 36000), ("panel_latency_ms", .none),
      ("window", .str "steady_state"), ("pipeline_drop_counts_complete", .bool true),
      ("encoder_latency_statistic", .str "max"), ("queue_growing", .bool false),
      ("negotiated_wire_mode", .list [.int 1280, .int 720, .int 30]), ("whole_pi_power", .none)]),
    ("observations", .dict [("readable", .bool true), ("geometry_correct", .bool true),
      ("motion_acceptable", .bool true)])]

/-- One trial with all evidence is enough for an offer. -/
theorem preset_has_evidence_one_trial :
    ∃ s, selectPresets .binary64 .tagged [sampleTrial "a" (.float 2) 0] (.str "pi")
        (.str "desktop") [.list [.int 1280, .int 720, .int 30]] .default = .ok s ∧
      ∃ t ∈ s.records, ∀ o ∈ t.observations.values, o = some true := by
  have hoffered : (selectPresets .binary64 .tagged [sampleTrial "a" (.float 2) 0] (.str "pi")
      (.str "desktop") [.list [.int 1280, .int 720, .int 30]] .default).toOption.map
        (fun s => (s.presets .recommended).available) = some true := by
    decide +kernel
  obtain ⟨s, hs, havailable⟩ := Option.map_eq_some_iff.mp hoffered
  have hok := ok_of_toOption hs
  obtain ⟨modes, -, -, -, -, hevidence, -⟩ := preset_has_evidence hok
  obtain ⟨group, profile, runtime, -, -, -, -, hgroup, -, -, -, t, ht, hobserved⟩ :=
    hevidence .recommended havailable
  exact ⟨s, hok, t, (hgroup t ht).1, hobserved⟩

end Sample

end HccastWired.Calibration
