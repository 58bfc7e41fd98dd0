import HccastWired.Calibration.PresetEvidence

/-!
# A failed repeat and its candidate

The candidates are told apart by the text of their settings. Two profiles that
are equal as values can have different texts: a scale is an integer or a
floating-point number.
-/

namespace HccastWired.Calibration

open Foundation Desktop

/-- `==` of two profiles, which compares the scales as numbers. -/
def sameProfile (p q : Profile) : Bool :=
  decide (p.1.sourceWidth = q.1.sourceWidth) && decide (p.1.sourceHeight = q.1.sourceHeight) &&
    decide (p.1.contentFps = q.1.contentFps) && decide (p.1.wireWidth = q.1.wireWidth) &&
    decide (p.1.wireHeight = q.1.wireHeight) && decide (p.1.wireFps = q.1.wireFps) &&
    decide (p.1.bitrateKbps = q.1.bitrateKbps) && p.1.scale.eq q.1.scale &&
    decide (p.1.rotation = q.1.rotation)

section Criteria

variable {lib : Library} {context workload : String} {modes : List WireMode}
  {policy : CalibrationPolicy} {t : TrialRecord}

/-- Against a trial that meets every criterion there is no reason. -/
theorem checks_of_passes (h : Passes lib context workload modes policy t) :
    ∀ check ∈ t.checks lib context workload modes policy, check.1 = false := by
  have hmissing : t.missing = [] := by
    rw [TrialRecord.missing, List.map_eq_nil_iff, List.filter_eq_nil_iff]
    intro f hf hnone
    rw [Option.isNone_iff_eq_none] at hnone
    have hsome := h.known f hf
    rw [hnone] at hsome
    cases hsome
  obtain ⟨w, hw, hwarm⟩ := h.warm
  obtain ⟨d, hd, hlong⟩ := h.long
  obtain ⟨x, hx, hcool⟩ := h.cool
  obtain ⟨before, seen, hbefore, hseen, hactive, hnew, hunknown⟩ := h.healthy
  obtain ⟨failures, hfailures, hdecoded⟩ := h.decoded
  obtain ⟨disconnects, hdisconnects, hconnected⟩ := h.connected
  obtain ⟨gap, hgap, hattended⟩ := h.attended
  obtain ⟨n, outputs, hn, houtputs, htimed⟩ := h.timed
  obtain ⟨room, hroom, hheadroom⟩ := h.headroom
  have hflags : t.healthFlags = [(false,
      "Active or new undervoltage, capping, throttling or thermal flags were observed."),
      (false, "Unrecognized health flags require diagnosis.")] := by
    simp [TrialRecord.healthFlags, hbefore, hseen, hactive, hnew, hunknown]
  have hsampled : ((t.truthy .elapsedS).any fun d => (t.metric .healthSamples).any fun n =>
      decide (n.value < (lib.ceil (lib.div d policy.maxHealthGapS) : Rat))) = false := by
    cases htruthy : t.truthy .elapsedS with
    | none => rfl
    | some d =>
        obtain ⟨samples, hsamples, hle⟩ := h.sampled d htruthy
        simpa [hsamples] using hle
  have hdrops : ((t.dropFraction lib).any fun x =>
      decide (policy.maxPipelineDropFraction.value ≤ x.value)) = false := by
    cases hfraction : t.dropFraction lib with
    | none => rfl
    | some x => simpa using h.kept x hfraction
  have hcadence : ((t.ratios lib).any fun r => [r.1, r.2].any fun ratio =>
      !(decide (policy.minFrameRatio.value ≤ ratio.value) &&
        decide (ratio.value ≤ policy.maxFrameRatio.value))) = false := by
    cases hratios : t.ratios lib with
    | none => rfl
    | some r =>
        simp only [Option.any_some, List.any_eq_false]
        intro ratio hratio
        simpa using h.cadence r hratios ratio hratio
  simp only [TrialRecord.checks, hflags, List.cons_append, List.nil_append,
    List.forall_mem_cons, List.not_mem_nil, false_imp_iff, implies_true, and_true]
  refine ⟨?_, ?_, ?_, ?_, ?_, ?_, ?_, ?_, ?_, trivial, trivial, ?_, ?_, ?_, hdrops, hcadence,
    hsampled, ?_, ?_, ?_, ?_, ?_⟩
  · simp [TrialRecord.matchesContext, h.context.1, h.context.2]
  · simp [h.wire.1, h.wire.2]
  · simp [h.unrotated]
  · simp [h.runtime]
  · simp [h.stock]
  · simp [hmissing]
  · simpa [h.steady, hw] using hwarm
  · simpa [hd] using hlong
  · simpa [hx] using hcool
  · simp [TrialRecord.nonzero, hfailures, hdisconnects, hdecoded, hconnected]
  · simp [h.stable]
  · simp [h.counted]
  · simpa [hgap] using hattended
  · rcases h.statistic with hmax | hp95
    · simp [hmax]
    · simp [hp95]
  · simpa [hn, houtputs] using htimed
  · simpa [hroom] using hheadroom
  · simpa [TrialRecord.physicalFailed] using h.observed

/-- The verdict on a completed trial is that it meets every criterion. -/
theorem passed_iff (hcompleted : t.outcome = .completed) :
    (assess lib context workload modes policy t).softwarePassed = true ↔
      Passes lib context workload modes policy t := by
  constructor
  · exact fun h => passes_of_checks (checks_of_passed h).2
  · intro h
    simp only [assess, hcompleted, List.isEmpty_iff, List.map_eq_nil_iff,
      List.filter_eq_nil_iff]
    intro check hcheck
    rw [checks_of_passes h check hcheck]
    exact Bool.false_ne_true

end Criteria

/-- A completed trial of the context and the workload that fails a criterion. -/
structure Failed (lib : Library) (context workload : String) (modes : List WireMode)
    (policy : CalibrationPolicy) (t : TrialRecord) : Prop where
  completed : t.outcome = .completed
  matched : t.matchesContext context workload = true
  failed : ¬ Passes lib context workload modes policy t

/-- A failed trial has a candidate of equal value whose scale is written in the
other number form, and whose completed trials all pass. -/
def Disguised (lib : Library) (context workload : String) (modes : List WireMode)
    (policy : CalibrationPolicy) (records : List TrialRecord) : Prop :=
  ∃ f ∈ records, Failed lib context workload modes policy f ∧
    ∃ t ∈ records, t.outcome = .completed ∧ t.matchesContext context workload = true ∧
      sameProfile t.profile f.profile = true ∧ t.profile ≠ f.profile ∧
      t.runtimeSettings = f.runtimeSettings ∧
      ∀ u ∈ records, u.outcome = .completed → u.matchesContext context workload = true →
        u.profile = t.profile → u.runtimeSettings = t.runtimeSettings →
        Passes lib context workload modes policy u

section Veto

variable {lib : Library} {enc : Encoding} {context workload : String} {modes : List WireMode}
  {policy : CalibrationPolicy} {records : List TrialRecord}

/-- A failed trial keeps its candidate from passing unless it is disguised. -/
theorem vetoed {group : TrialGroup} {f t : TrialRecord}
    (hgroup : group ∈ passingGroups lib enc context workload modes policy records)
    (hform : ¬ Disguised lib context workload modes policy records) (hf : f ∈ records)
    (hfailed : Failed lib context workload modes policy f) (ht : t ∈ group) :
    ¬ (sameProfile t.profile f.profile = true ∧ t.runtimeSettings = f.runtimeSettings) := by
  rintro ⟨hprofile, hruntime⟩
  obtain ⟨-, hpasses, -, hall⟩ := passingGroups_spec hgroup
  obtain ⟨hrecord, hcompleted, htpasses⟩ := hpasses t ht
  by_cases hequal : t.profile = f.profile
  · have hmem := hall t ht f hf hfailed.completed hfailed.matched hequal.symm hruntime.symm
    exact hfailed.failed (hpasses f hmem).2.2
  · apply hform
    refine ⟨f, hf, hfailed, t, hrecord, hcompleted, ?_, hprofile, hequal, hruntime, ?_⟩
    · simp [TrialRecord.matchesContext, htpasses.context.1, htpasses.context.2]
    · intro u hu hucompleted humatches huprofile huruntime
      exact (hpasses u (hall t ht u hu hucompleted humatches huprofile huruntime)).2.2

/-- A failed trial is disguised exactly when a group passes that equals it as a
value. -/
theorem disguised_iff (lib : Library) (enc : Encoding) (context workload : String)
    (modes : List WireMode) (policy : CalibrationPolicy) (records : List TrialRecord) :
    Disguised lib context workload modes policy records ↔
      ∃ group ∈ passingGroups lib enc context workload modes policy records, ∃ t ∈ group,
        ∃ f ∈ records, Failed lib context workload modes policy f ∧
          sameProfile t.profile f.profile = true ∧ t.runtimeSettings = f.runtimeSettings := by
  constructor
  · rintro ⟨f, hf, hfailed, t, ht, hcompleted, hmatched, hprofile, -, hruntime, hall⟩
    obtain ⟨g, hg, htg⟩ := exists_group (candidateKey enc) ht
    have hmem : ∀ u, u ∈ measured (assess lib context workload modes policy) g →
        Passes lib context workload modes policy u ∧ u.outcome = .completed := by
      intro u hu
      obtain ⟨hug, hucompleted, humatched⟩ := measured_mem.mp hu
      have hkey := (mem_group_iff hg htg).mp hug
      obtain ⟨hsame, hsettings⟩ := candidateKey_injective hkey.2
      simp only [assess, hucompleted] at humatched
      exact ⟨hall u hkey.1 hucompleted humatched hsame hsettings, hucompleted⟩
    have htm : t ∈ measured (assess lib context workload modes policy) g := by
      refine measured_mem.mpr ⟨htg, hcompleted, ?_⟩
      simpa only [assess, hcompleted] using hmatched
    refine ⟨_, passing_mem.mpr ⟨⟨g, hg, rfl⟩, List.ne_nil_of_mem htm, ?_⟩, t, htm, f, hf, hfailed,
      hprofile, hruntime⟩
    intro u hu
    obtain ⟨hpasses, hucompleted⟩ := hmem u hu
    exact (passed_iff hucompleted).mpr hpasses
  · rintro ⟨group, hgroup, t, ht, f, hf, hfailed, hprofile, hruntime⟩
    by_contra hform
    exact vetoed hgroup hform hf hfailed ht ⟨hprofile, hruntime⟩

/-- An entry of the shortlist or a preset is empty, or it was made from a group
that passed. -/
theorem entry_cases (lib : Library) (enc : Encoding) (context workload : String)
    (modes : List WireMode) (policy : CalibrationPolicy) (records : List TrialRecord)
    (key : PresetName) (entry : Preset)
    (hentry : entry ∈ [(selectionOf lib enc context workload modes policy records).shortlist key,
      (selectionOf lib enc context workload modes policy records).presets key]) :
    (entry.settings = none ∧ entry.trialIds = []) ∨
      ∃ group ∈ passingGroups lib enc context workload modes policy records, ∃ t ∈ group,
        entry.settings = some t.profile ∧ entry.runtimeSettings = some t.runtimeSettings ∧
        entry.trialIds =
          (group.map TrialRecord.trialId).mergeSort (fun a b => decide (a ≤ b)) := by
  rcases List.mem_cons.mp hentry with heq | hentry
  · cases hchoice : choose lib policy (passing (assess lib context workload modes policy)
        (groupBy (candidateKey enc) records)) with
    | none =>
        left
        rw [heq]
        simp only [selectionOf, hchoice]
        exact ⟨rfl, rfl⟩
    | some choice =>
        have hshort : entry = preset lib (assess lib context workload modes policy) key
            (choice.selected key) choice.comparison true := by
          rw [heq]
          simp only [selectionOf, hchoice]
        rcases preset_cases lib (assess lib context workload modes policy) key choice.comparison
          true (choice.selected key) with hnone | ⟨group, t, hgroup, ht, hpreset⟩
        · rw [hshort]
          exact .inl ⟨hnone.1, hnone.2.2.1⟩
        · right
          refine ⟨group, choose_mem hchoice hgroup, t, ht, ?_⟩
          rw [hshort, hpreset]
          exact ⟨rfl, rfl, rfl⟩
  · rw [List.mem_singleton] at hentry
    rcases selectionOf_preset lib enc context workload modes policy records key with
      ⟨hsettings, -, hids, -⟩ | ⟨choice, group, t, hchoice, hgroup, ht, hpreset⟩
    · rw [hentry]
      exact .inl ⟨hsettings, hids⟩
    · right
      refine ⟨group, (qualified_mem.mp (choose_mem hchoice hgroup)).1, t, ht, ?_⟩
      rw [hentry, hpreset]
      exact ⟨rfl, rfl, rfl⟩

/-- While no failed trial is disguised, no entry of the shortlist and no preset is
built from trials whose settings equal those of a failed one. -/
theorem failed_repeat_vetoes {trials : List PyValue} {contextId workloadId : PyValue}
    {advertisedModes : List PyValue} {s : Selection}
    (h : selectPresets lib enc trials contextId workloadId advertisedModes policy = .ok s) :
    ∃ modes, advertisedModes.mapM mode = .ok modes ∧
      (¬ Disguised lib s.contextId s.workloadId modes policy s.records →
        ∀ f ∈ s.records, Failed lib s.contextId s.workloadId modes policy f →
        ∀ key, ∀ entry ∈ [s.shortlist key, s.presets key],
          (∀ t ∈ s.records, t.trialId ∈ entry.trialIds →
            ¬ (sameProfile t.profile f.profile = true ∧
              t.runtimeSettings = f.runtimeSettings)) ∧
          ∀ profile runtime, entry.settings = some profile →
            entry.runtimeSettings = some runtime →
            ¬ (sameProfile profile f.profile = true ∧ runtime = f.runtimeSettings)) := by
  obtain ⟨modes, -, -, hmodes, -, hdistinct, hs⟩ := selectPresets_ok h
  refine ⟨modes, hmodes, ?_⟩
  intro hform f hf hfailed key entry hentry
  have hcases := entry_cases lib enc s.contextId s.workloadId modes policy s.records key entry
    (by rw [← hs]; exact hentry)
  rcases hcases with ⟨hsettings, hids⟩ | ⟨group, hgroup, r, hr, hsettings, hruntime, hids⟩
  · constructor
    · intro t _ ht
      rw [hids] at ht
      cases ht
    · intro profile runtime hprofile
      rw [hsettings] at hprofile
      cases hprofile
  · constructor
    · intro t ht hid
      rw [hids, List.mem_mergeSort] at hid
      obtain ⟨u, hu, hsame⟩ := List.mem_map.mp hid
      -- the identifiers are distinct, so the identifier names the trial of the group
      have hurecord := ((passingGroups_spec hgroup).2.1 u hu).1
      have hequal : u = t := List.inj_on_of_nodup_map hdistinct hurecord ht hsame
      rw [← hequal]
      exact vetoed hgroup hform hf hfailed hu
    · intro profile runtime hprofile hruntime'
      rw [hsettings] at hprofile
      rw [hruntime] at hruntime'
      cases hprofile
      cases hruntime'
      exact vetoed hgroup hform hf hfailed hr

end Veto

/-- Of two trials of one profile, the failed one has its scale as an integer. -/
theorem failed_repeat_promoted :
    ∃ s, selectPresets .binary64 .tagged [sampleTrial "a" (.int 2) 1, sampleTrial "b" (.float 2) 0]
        (.str "pi") (.str "desktop") [.list [.int 1280, .int 720, .int 30]] .default = .ok s ∧
      ∃ f ∈ s.records, ∃ t ∈ s.records,
        Failed .binary64 s.contextId s.workloadId [(1280, 720, 30)] .default f ∧
        sameProfile t.profile f.profile = true ∧ t.runtimeSettings = f.runtimeSettings ∧
        (s.presets .recommended).available = true ∧
        (s.presets .recommended).settings = some t.profile ∧
        (s.presets .recommended).runtimeSettings = some t.runtimeSettings := by
  have hrun : (selectPresets .binary64 .tagged
      [sampleTrial "a" (.int 2) 1, sampleTrial "b" (.float 2) 0] (.str "pi") (.str "desktop")
      [.list [.int 1280, .int 720, .int 30]] .default).toOption.any (fun s =>
        s.records.any fun f => s.records.any fun t =>
          decide (f.outcome = .completed) && f.matchesContext s.contextId s.workloadId &&
          !(assess .binary64 s.contextId s.workloadId [(1280, 720, 30)] .default f).softwarePassed &&
          sameProfile t.profile f.profile && decide (t.runtimeSettings = f.runtimeSettings) &&
          (s.presets .recommended).available &&
          decide ((s.presets .recommended).settings = some t.profile) &&
          decide ((s.presets .recommended).runtimeSettings = some t.runtimeSettings)) = true := by
    decide +kernel
  simp only [Option.any_eq_true, List.any_eq_true, Bool.and_eq_true, Bool.not_eq_true',
    decide_eq_true_eq] at hrun
  obtain ⟨s, hs, f, hf, t, ht, ⟨⟨⟨⟨⟨⟨hcompleted, hmatched⟩, hfailed⟩, hprofile⟩, hruntime⟩,
    havailable⟩, hsettings⟩, hchosen⟩ := hrun
  refine ⟨s, ok_of_toOption hs, f, hf, t, ht, ⟨hcompleted, hmatched, ?_⟩, hprofile, hruntime,
    havailable, hsettings, hchosen⟩
  intro hpasses
  rw [(passed_iff hcompleted).mpr hpasses] at hfailed
  cases hfailed

/-- Of two trials of one text, the failed one keeps both from the presets. -/
theorem failed_repeat_vetoes_same_form :
    ∃ s, selectPresets .binary64 .tagged
        [sampleTrial "a" (.float 2) 1, sampleTrial "b" (.float 2) 0] (.str "pi")
        (.str "desktop") [.list [.int 1280, .int 720, .int 30]] .default = .ok s ∧
      ∃ modes, ∀ f ∈ s.records, Failed .binary64 s.contextId s.workloadId modes .default f →
        ∀ t ∈ s.records, t.trialId ∈ (s.presets .recommended).trialIds →
          ¬ (sameProfile t.profile f.profile = true ∧
            t.runtimeSettings = f.runtimeSettings) := by
  have hrun : (selectPresets .binary64 .tagged
      [sampleTrial "a" (.float 2) 1, sampleTrial "b" (.float 2) 0] (.str "pi")
      (.str "desktop") [.list [.int 1280, .int 720, .int 30]] .default).toOption.any (fun s =>
        s.records.all fun f => s.records.all fun t => decide (t.profile = f.profile)) = true := by
    decide +kernel
  simp only [Option.any_eq_true, List.all_eq_true, decide_eq_true_eq] at hrun
  obtain ⟨s, hs, hprofiles⟩ := hrun
  obtain ⟨modes, -, hvetoes⟩ := failed_repeat_vetoes (ok_of_toOption hs)
  refine ⟨s, ok_of_toOption hs, modes, ?_⟩
  intro f hf hfailed
  have hform : ¬ Disguised .binary64 s.contextId s.workloadId modes .default s.records := by
    rintro ⟨g, hg, -, t, ht, -, -, -, hother, -⟩
    exact hother (hprofiles g hg t ht)
  exact (hvetoes hform f hf hfailed .recommended (s.presets .recommended) (by simp)).1

end HccastWired.Calibration
