import HccastWired.Advanced.Transitions

/-!
# The CPU policy transaction

A field is written only while the call has seen a policy that the recorded
transaction knows, and a restoration is recorded only once the first policy of
the boot has been read back.
-/

namespace HccastWired.Advanced

open Foundation

variable {enc : Encoding} {β : Type} {w w' v : World} {new more : List Event} {op : Operation}
  {r : Record} {c : Cpu} {e : Event} {fail : AdvancedError → World → Prop}

section Ready

/-- The call may write the fields of the recorded transaction. -/
structure Ready (c : Cpu) (w : World) : Prop where
  recorded : (recordOf w.log).cpu = some c
  pending : c.state ≠ .restored
  boot : currentBoot w.log = some c.bootId
  snapshot : ∃ v, lastSnapshot (inCall w.log) = some v ∧ c.knows v = true
  known : .disturbed ∉ sinceSnapshot w.log → ∃ v, knownPolicy w.log = some v ∧ c.knows v = true

/-- The call has gone on without a save and without a look at the normal configuration. -/
def Stays (w w' : World) : Prop :=
  ∃ more, Later w more w' ∧ Keeps more ∧ ∀ ok, .verified ok ∉ more

theorem Stays.trans (h : Stays w w') (h' : Stays w' v) : Stays w v := by
  obtain ⟨new, hnew, hkeeps, hunverified⟩ := h
  obtain ⟨more, hmore, hkeeps', hunverified'⟩ := h'
  refine ⟨more ++ new, hnew.trans hmore, List.forall_mem_append.mpr ⟨hkeeps', hkeeps⟩, ?_⟩
  intro ok hmem
  obtain hmem | hmem := List.mem_append.mp hmem
  · exact hunverified' ok hmem
  · exact hunverified ok hmem

/-- No normal configuration has been looked at. -/
def Unverified (w w' : World) : Prop :=
  ∃ more, Later w more w' ∧ ∀ ok, .verified ok ∉ more

theorem Unverified.trans (h : Unverified w w') (h' : Unverified w' v) : Unverified w v := by
  obtain ⟨new, hnew, hnone⟩ := h
  obtain ⟨more, hmore, hnone'⟩ := h'
  refine ⟨more ++ new, hnew.trans hmore, ?_⟩
  intro ok hmem
  obtain hmem | hmem := List.mem_append.mp hmem
  · exact hnone' ok hmem
  · exact hnone ok hmem

theorem Stays.unverified (h : Stays w w') : Unverified w w' := by
  obtain ⟨more, hmore, -, hnone⟩ := h
  exact ⟨more, hmore, hnone⟩

theorem Notes.unverified (h : Notes w (.saved r) new w') : Unverified w w' := by
  refine ⟨_, h.later_saved, ?_⟩
  intro ok hmem
  obtain hmem | hmem := List.mem_cons.mp hmem
  · cases hmem
  · exact h.quiet.unverified ok hmem

theorem Unverified.last (h : Unverified w w') :
    lastVerified (inCall w'.log) = lastVerified (inCall w.log) := by
  obtain ⟨more, hmore, hnone⟩ := h
  rw [hmore.call, lastVerified_append hnone]

theorem Passes.stays (h : Passes w new w') : Stays w w' :=
  ⟨new, h.later, h.quiet.keeps, h.quiet.unverified⟩

theorem Notes.stays (h : Notes w e new w') (he : e.keeps = true) (hne : ∀ ok, e ≠ .verified ok) :
    Stays w w' := by
  refine ⟨e :: new, h.later he, List.forall_mem_cons.mpr ⟨he, h.quiet.keeps⟩, ?_⟩
  intro ok hmem
  obtain hmem | hmem := List.mem_cons.mp hmem
  · exact hne ok hmem.symm
  · exact h.quiet.unverified ok hmem

theorem Stays.recordOf (h : Stays w w') : recordOf w'.log = Advanced.recordOf w.log := by
  obtain ⟨more, hlater, hkeeps, -⟩ := h
  rw [hlater.log, recordOf_append hkeeps]

theorem Stays.currentBoot (h : Stays w w') : currentBoot w'.log = Advanced.currentBoot w.log := by
  obtain ⟨more, hlater, hkeeps, -⟩ := h
  rw [hlater.log, currentBoot_append hkeeps]

theorem Stays.startPolicy (h : Stays w w') : startPolicy w'.log = Advanced.startPolicy w.log := by
  obtain ⟨more, hlater, hkeeps, -⟩ := h
  rw [hlater.log, startPolicy_append hkeeps]

theorem Cpu.knows_iff {current : CpuValues} : c.knows current = true ↔
    ∀ field, current.at field ∈ [c.before.at field, c.target.at field, c.baseline.at field] := by
  simp only [knows, List.all_cons, List.all_nil, Bool.and_true, Bool.and_eq_true, decide_eq_true_eq]
  constructor
  · rintro ⟨hgovernor, hmax⟩ field
    cases field with
    | governor => exact hgovernor
    | maxKhz => exact hmax
  · intro h
    exact ⟨h .governor, h .maxKhz⟩

/-- A write of the transaction's own values leaves only values that it knows. -/
theorem Cpu.knows_set {current values : CpuValues} (field : CpuField)
    (h : c.knows current = true) (hvalues : values = c.target ∨ values = c.baseline) :
    c.knows (current.set field values) = true := by
  rw [knows_iff] at h ⊢
  intro other
  by_cases hsame : other = field
  · subst hsame
    have hat : (current.set other values).at other = values.at other := by
      cases other <;> rfl
    rw [hat]
    obtain rfl | rfl := hvalues
    · simp
    · simp
  · have hat : (current.set field values).at other = current.at other := by
      cases other <;> cases field <;> first | rfl | exact absurd rfl hsame
    rw [hat]
    exact h other

theorem sinceSnapshot_wrote {field : CpuField} {values current : CpuValues} {log : List Event} :
    sinceSnapshot (.wrote field values current :: log) =
      .wrote field values current :: sinceSnapshot log := rfl

theorem Ready.passes (h : Ready c w) (hp : Passes w new w') : Ready c w' where
  recorded := by rw [hp.recordOf, h.recorded]
  pending := h.pending
  boot := by rw [hp.log, currentBoot_append hp.quiet.keeps, h.boot]
  snapshot := by
    rw [hp.later.call, lastSnapshot_append hp.quiet]
    exact h.snapshot
  known := by
    rw [hp.log, sinceSnapshot_append hp.quiet]
    intro hcalm
    obtain ⟨hnew, hold⟩ := not_or.mp (mt List.mem_append.mpr hcalm)
    rw [knownPolicy_append hp.quiet hnew]
    exact h.known hold

theorem Ready.write (h : Ready c w) (hpolicy : Tracked w) {values : CpuValues}
    (hvalues : values = c.target ∨ values = c.baseline) : WriteStep w.log values w.policy c where
  recorded := h.recorded
  pending := h.pending
  boot := h.boot
  values := hvalues
  snapshot := h.snapshot
  current hcalm := by
    obtain ⟨v, hv, hknows⟩ := h.known hcalm
    rw [hpolicy v hv]
    exact hknows

theorem Ready.wrote (h : Ready c w) (hpolicy : Tracked w) {field : CpuField} {values : CpuValues}
    (hvalues : values = c.target ∨ values = c.baseline)
    (hlog : w'.log = .wrote field values w.policy :: w.log) : Ready c w' where
  recorded := by
    rw [hlog]
    exact h.recorded
  pending := h.pending
  boot := by
    rw [hlog]
    exact h.boot
  snapshot := by
    rw [hlog]
    exact h.snapshot
  known := by
    rw [hlog, sinceSnapshot_wrote]
    intro hcalm
    refine ⟨_, rfl, Cpu.knows_set field ?_ hvalues⟩
    exact (h.write hpolicy hvalues).current fun hmem => hcalm (List.mem_cons_of_mem _ hmem)

/-- A write that fails may have gone through all the same. -/
theorem writeCpu_wp {field : CpuField} {values : CpuValues} (hw : Working enc op w)
    (hready : Ready c w) (hvalues : values = c.target ∨ values = c.baseline) :
    (writeCpu field values).wp (Inv enc) (fun _ w' => Working enc op w' ∧ Ready c w' ∧ Stays w w')
      (fun _ w' => Working enc op w' ∧ Ready c w' ∧ Stays w w') w := by
  have hp := passes_passed w
  rw [writeCpu]
  split
  · rw [Call.wp_throw]
    exact ⟨hw, hready, (Passes.refl w).stays⟩
  · split
    · rw [Call.wp_throw]
      exact ⟨hw, hready, (Passes.refl w).stays⟩
    · have hpassed := hw.passes hp
      have hready' := hready.passes hp
      let written : World := { w.passed.note (.wrote field values w.passed.policy) with
        policy := w.passed.policy.set field values }
      have hwritten : Working enc op written := by
        refine hpassed.notes rfl rfl rfl rfl (by simp) ?_ ?_
        · exact ⟨c, hready'.write hpassed.policy hvalues⟩
        · intro v hv
          exact Option.some.inj hv
      have hdone : Ready c written := hready'.wrote hpassed.policy hvalues rfl
      have hstays : Stays w written := by
        have hnotes : Notes w (.wrote field values w.passed.policy) (disturbance w) written := by
          refine ⟨?_, hp.quiet, rfl⟩
          change _ :: w.passed.log = _
          rw [hp.log]
        exact hnotes.stays rfl (by simp)
      refine wp_act hpassed.toInv hwritten.toInv ⟨hwritten, hdone, hstays⟩ fun _ => ⟨?_, ?_⟩
      · exact ⟨hwritten, hdone, hstays⟩
      · exact ⟨hpassed, hready', hp.stays⟩

theorem CpuValues.of_cpuValues {s : CpuSnapshot} {values : CpuValues}
    (h : cpuValues s = .ok values) : values = s.values ∧ values.valid = true ∧
      0 < s.limits.minKhz ∧ s.limits.hardwareMaxKhz ≤ stockMhz * 1000 := by
  rw [cpuValues] at h
  split at h
  · next hok =>
    obtain rfl := Except.ok.inj h
    obtain ⟨hgovernor, -, hlow, hmin, hmax, hstock⟩ := hok
    refine ⟨rfl, ?_, hlow, hstock⟩
    simp only [valid, Bool.and_eq_true, decide_eq_true_eq]
    exact ⟨⟨hgovernor, by omega⟩, by omega⟩
  · cases h

end Ready

section Restore

/-- The policy was last read as `start` and has not been written since. -/
structure Reread (start : CpuValues) (log : List Event) : Prop where
  snapshot : lastSnapshot (inCall log) = some start
  unwritten : ∀ field values current, .wrote field values current ∉ sinceSnapshot log
  known : .disturbed ∉ sinceSnapshot log → knownPolicy log = some start

theorem Reread.quiet {start : CpuValues} {log : List Event} (h : Reread start log)
    (hnew : Quiet new) : Reread start (new ++ log) where
  snapshot := by rw [inCall_append hnew.keeps, lastSnapshot_append hnew, h.snapshot]
  unwritten := by
    rw [sinceSnapshot_append hnew]
    intro field values current hmem
    obtain hmem | hmem := List.mem_append.mp hmem
    · cases hnew _ hmem
    · exact h.unwritten field values current hmem
  known := by
    rw [sinceSnapshot_append hnew]
    intro hcalm
    obtain ⟨hnone, hold⟩ := not_or.mp (mt List.mem_append.mpr hcalm)
    rw [knownPolicy_append hnew hnone, h.known hold]

theorem Reread.saved {start : CpuValues} {log : List Event} (h : Reread start log) :
    Reread start (.saved r :: log) where
  snapshot := h.snapshot
  unwritten field values current hmem := by
    obtain hmem | hmem := List.mem_cons.mp hmem
    · cases hmem
    · exact h.unwritten field values current hmem
  known hcalm := h.known fun hmem => hcalm (List.mem_cons_of_mem _ hmem)

theorem Reread.snapshot_cons {start : CpuValues} {log : List Event} :
    Reread start (.snapshot start :: log) where
  snapshot := rfl
  unwritten _ _ _ := List.not_mem_nil
  known _ := rfl

/-- What a restoration has done. -/
structure CpuDone (w : World) (r : Record) (w' : World) : Prop where
  record : r = recordOf w'.log
  trial : r.trial = (recordOf w.log).trial
  profile : r.profile = (recordOf w.log).profile
  settled : r.cpuState = .restored
  later : Unverified w w'
  back : ∀ start, startPolicy w.log = some start → Reread start w'.log

theorem Record.cpuRestored_valid (hvalid : r.valid = true) (hc : r.cpu = some c) :
    (r.cpuRestored c).valid = true := by
  simp only [valid, hc, Option.all_some, Bool.and_eq_true] at hvalid
  simp only [valid, cpuRestored, Option.all_some, Bool.and_eq_true]
  exact hvalid

/-- The restoration is recorded, and nothing else. -/
theorem cpuRestored_step (hw : Working enc op w) (hc : (recordOf w.log).cpu = some c)
    (hstate : c.state ≠ .restored)
    (hback : currentBoot w.log ≠ some c.bootId ∨ ReadBack w.log c.baseline) :
    SaveStep w.log ((recordOf w.log).cpuRestored c) where
  valid := Record.cpuRestored_valid hw.log.valid hc
  trial := .unchanged rfl rfl
  cpu := .restored c hc hstate rfl hback

/-- A conditional write, before the rest of the call. -/
theorem writeIf_then {cond : Prop} [Decidable cond] {field : CpuField} {values : CpuValues}
    {post : β → World → Prop} {k : Unit → HelperCall β} (hw : Working enc op w)
    (hready : Ready c w) (hvalues : values = c.target ∨ values = c.baseline)
    (hfail : ∀ e w', Working enc op w' → fail e w')
    (hok : ∀ w', Working enc op w' → Ready c w' → Stays w w' → (k ()).wp (Inv enc) post fail w') :
    (if cond then writeCpu field values >>= k else k ()).wp (Inv enc) post fail w := by
  split
  · rw [Call.wp_bind]
    refine (writeCpu_wp hw hready hvalues).mono ?_ ?_
    · rintro ⟨⟩ w' ⟨hw', hready', hstays⟩
      exact hok w' hw' hready' hstays
    · rintro e w' ⟨hw', -⟩
      exact hfail e w' hw'
  · exact hok w hw hready (Passes.refl w).stays

/-- Once the restoration is recorded, the call has done it. -/
theorem cpuDone_of_saved {v : World} (hs : Stays w w')
    (hsaved : Notes w' (.saved ((recordOf w.log).cpuRestored c)) new v)
    (hback : ∀ start, startPolicy w.log = some start → Reread start w'.log) :
    CpuDone w ((recordOf w.log).cpuRestored c) v := by
  constructor
  · rw [hsaved.log]
    rfl
  · rfl
  · rfl
  · rfl
  · exact hs.unverified.trans hsaved.unverified
  · intro start hstart
    rw [hsaved.log]
    exact ((hback start hstart).quiet hsaved.quiet).saved

theorem restoreCpuIn_wp (hw : Working enc op w) (hfail : ∀ e w', Working enc op w' → fail e w') :
    (restoreCpuIn enc (recordOf w.log)).wp (Inv enc)
      (fun r w' => Working enc op w' ∧ CpuDone w r w') fail w := by
  have hstart := hw.log.start
  have hsame : startPolicy w.log = none → (recordOf w.log).cpuState = .restored →
      Working enc op w ∧ CpuDone w (recordOf w.log) w := by
    intro hnone hsettled
    refine ⟨hw, rfl, rfl, rfl, hsettled, (Passes.refl w).stays.unverified, ?_⟩
    intro v hv
    rw [hnone] at hv
    cases hv
  rw [restoreCpuIn]
  cases hc : (recordOf w.log).cpu with
  | none =>
      rw [pendingBaseline_none hc] at hstart
      simp only [Call.wp_pure]
      exact hsame hstart (by simp [Record.cpuState, hc])
  | some c =>
      rw [pendingBaseline_some hc] at hstart
      simp only
      split
      · next hrestored =>
        rw [if_pos (.inl hrestored)] at hstart
        rw [Call.wp_pure]
        exact hsame hstart (by simp [Record.cpuState, hc, hrestored])
      · next hpending =>
        refine observe_then hw (fun e w' hw' _ => hfail e w' hw') ?_
        intro f new w₁ hw₁ hnotes hrunning _
        have hs₁ : Stays w w₁ := hnotes.stays rfl (by simp)
        split
        · next hother =>
          -- the policy of another boot
          have hne : currentBoot w.log ≠ some c.bootId := by
            rw [← hs₁.currentBoot, hw₁.boot, ← hrunning]
            simpa using hother
          have hstep := cpuRestored_step hw₁ (hs₁.recordOf ▸ hc) hpending
            (.inl (hs₁.currentBoot ▸ hne))
          rw [hs₁.recordOf] at hstep
          refine save_then hw₁ hstep hfail ?_
          intro new' w₂ hw₂ hsaved
          rw [Call.wp_pure]
          refine ⟨hw₂, cpuDone_of_saved hs₁ hsaved ?_⟩
          intro v hv
          rw [hstart, if_pos (.inr hne)] at hv
          cases hv
        · next hsameboot =>
          have hboot : currentBoot w.log = some c.bootId := by
            rw [← hs₁.currentBoot, hw₁.boot, ← hrunning, not_not.mp hsameboot]
          rw [if_neg (by simp [hpending, hboot])] at hstart
          refine snapshot_then hw₁ (fun e w' hw' _ => hfail e w' hw') ?_
          intro s new₂ w₂ hw₂ hnotes₂
          have hs₂ : Stays w w₂ := hs₁.trans (hnotes₂.stays rfl (by simp))
          refine yields_ofExcept.then hw₂ (fun e _ w' hw' _ => hfail e w' hw') ?_
          intro current new₃ w₃ hw₃ hp₃ hcurrent
          obtain ⟨rfl, -⟩ := CpuValues.of_cpuValues hcurrent
          split
          · exact wp_raise _ (hfail _ _ hw₃)
          · next hknows =>
            have hready₂ : Ready c w₂ :=
              { recorded := by rw [hs₂.recordOf, hc]
                pending := hpending
                boot := by rw [hs₂.currentBoot, hboot]
                snapshot := by
                  rw [(hnotes₂.later rfl).call]
                  exact ⟨s.values, rfl, by simpa using hknows⟩
                known := fun _ => by
                  rw [hnotes₂.log]
                  exact ⟨s.values, rfl, by simpa using hknows⟩ }
            have hs₃ : Stays w w₃ := hs₂.trans hp₃.stays
            refine writeIf_then hw₃ (hready₂.passes hp₃) (.inr rfl) hfail ?_
            intro w₄ hw₄ hready₄ hs₄
            refine writeIf_then hw₄ hready₄ (.inr rfl) hfail ?_
            intro w₅ hw₅ hready₅ hs₅
            refine snapshot_then hw₅ (fun e w' hw' _ => hfail e w' hw') ?_
            intro s' new₆ w₆ hw₆ hnotes₆
            refine yields_ofExcept.then hw₆ (fun e _ w' hw' _ => hfail e w' hw') ?_
            intro restored new₇ w₇ hw₇ hp₇ hrestored
            obtain ⟨rfl, -⟩ := CpuValues.of_cpuValues hrestored
            split
            · exact wp_raise _ (hfail _ _ hw₇)
            · next hmatch =>
              have hs₇ : Stays w w₇ := hs₃.trans <| hs₄.trans <| hs₅.trans <|
                (hnotes₆.stays rfl (by simp)).trans hp₇.stays
              have hreread : Reread c.baseline w₇.log := by
                rw [hp₇.log, hnotes₆.log, ← not_not.mp hmatch]
                exact Reread.snapshot_cons.quiet hp₇.quiet
              have hback : ReadBack w₇.log c.baseline :=
                ⟨hs₇.startPolicy.trans hstart, hreread.snapshot, hreread.unwritten⟩
              have hstep := cpuRestored_step hw₇ (hs₇.recordOf ▸ hc) hpending (.inr hback)
              rw [hs₇.recordOf] at hstep
              refine save_then hw₇ hstep hfail ?_
              intro new₈ w₈ hw₈ hsaved
              rw [Call.wp_pure]
              refine ⟨hw₈, cpuDone_of_saved hs₇ hsaved ?_⟩
              intro v hv
              rw [hstart] at hv
              obtain rfl := Option.some.inj hv
              exact hreread

end Restore

section Set

/-- The whole transaction of the policy is written and read back. -/
theorem applyCpu_wp (hw : Working enc op w) (hready : Ready c w) :
    (applyCpu c).wp (Inv enc) (fun _ w' => Working enc op w' ∧ Stays w w')
      (fun _ w' => Working enc op w' ∧ Stays w w') w := by
  rw [applyCpu, Call.wp_bind]
  refine (writeCpu_wp hw hready (.inl rfl)).mono ?_ fun e w' h => ⟨h.1, h.2.2⟩
  rintro ⟨⟩ w₁ ⟨hw₁, hready₁, hs₁⟩
  rw [Call.wp_bind]
  refine (writeCpu_wp hw₁ hready₁ (.inl rfl)).mono ?_ fun e w' h => ⟨h.1, hs₁.trans h.2.2⟩
  rintro ⟨⟩ w₂ ⟨hw₂, -, hs₂⟩
  have hs := hs₁.trans hs₂
  refine snapshot_then hw₂ (fun e w' hw' hp => ⟨hw', hs.trans hp.stays⟩) ?_
  intro s new₃ w₃ hw₃ hnotes
  have hs₃ := hs.trans (hnotes.stays rfl (by simp))
  refine yields_ofExcept.then hw₃ (fun e _ w' hw' hp => ⟨hw', hs₃.trans hp.stays⟩) ?_
  intro applied new₄ w₄ hw₄ hp₄ _
  split
  · rw [Call.wp_throw]
    exact ⟨hw₄, hs₃.trans hp₄.stays⟩
  · rw [Call.wp_pure]
    exact ⟨hw₄, hs₃.trans hp₄.stays⟩

theorem CpuValues.of_cpuTarget {s : CpuSnapshot} {governor : Option String} {capMhz : Option Int}
    {target : CpuValues} (hlow : 0 < s.limits.minKhz)
    (hhigh : s.limits.hardwareMaxKhz ≤ stockMhz * 1000)
    (h : cpuTarget s governor capMhz = some target) : target.valid = true := by
  rw [cpuTarget.eq_def] at h
  split at h
  · split at h
    · next hok =>
      obtain rfl := Option.some.inj h
      simp only [valid, Bool.and_eq_true, decide_eq_true_eq]
      exact ⟨⟨hok.1, by omega⟩, by omega⟩
    · cases h
  · cases h

/-- The baseline of a new setting is the one that is still pending in this boot. -/
theorem cpuBaseline_eq {old : Option Cpu} {f : BootFacts} {current baseline : CpuValues}
    (h : cpuBaseline old f current = .ok baseline) :
    baseline = (old.bind fun c => if c.state = .restored ∨ some f.bootId ≠ some c.bootId then none
      else some c.baseline).getD current := by
  cases old with
  | none => exact (Except.ok.inj h).symm
  | some c =>
      simp only [cpuBaseline] at h
      split at h
      · next hpending =>
        obtain ⟨hstate, hboot⟩ := hpending
        split at h
        · cases h
        · simp [hstate, hboot, (Except.ok.inj h).symm]
      · next hother =>
        have hnone : c.state = .restored ∨ some f.bootId ≠ some c.bootId := by
          by_contra hne
          obtain ⟨hstate, hboot⟩ := not_or.mp hne
          exact hother ⟨hstate, Eq.symm (Option.some.inj (not_not.mp hboot))⟩
        rw [Option.bind_some, if_pos hnone]
        exact (Except.ok.inj h).symm

theorem pendingBaseline_valid {boot : Option String} {baseline : CpuValues}
    (hvalid : r.valid = true) (h : pendingBaseline r boot = some baseline) :
    baseline.valid = true := by
  obtain ⟨c, hc, hpending⟩ := Option.bind_eq_some_iff.mp h
  split at hpending
  · cases hpending
  · obtain rfl := Option.some.inj hpending
    simp only [Record.valid, hc, Option.all_some, Cpu.valid, Bool.and_eq_true] at hvalid
    exact hvalid.1.1.1.1.2

theorem Record.setCpu_valid (hvalid : r.valid = true) (hc : c.valid = true) :
    ({ r with cpu := some c } : Record).valid = true := by
  simp only [valid, Bool.and_eq_true] at hvalid
  simp only [valid, Option.all_some, Bool.and_eq_true]
  exact ⟨⟨hc, hvalid.1.2⟩, hvalid.2⟩

/-- The policy that was just read is known to the transaction that records it. -/
theorem Ready.saved (hsaved : Notes w (.saved r) new w') (hpasses : Passes v more w)
    {current : CpuValues} {older : List Event} (hv : v.log = .snapshot current :: older)
    (hcall : lastSnapshot (inCall w.log) = some current) (hc : r.cpu = some c)
    (hstate : c.state ≠ .restored) (hboot : currentBoot w.log = some c.bootId)
    (hbefore : c.before = current) : Ready c w' := by
  have hknows : c.knows current = true := by
    rw [Cpu.knows_iff]
    intro field
    rw [← hbefore]
    exact List.mem_cons_self
  constructor
  · rw [hsaved.log]
    exact hc
  · exact hstate
  · rw [hsaved.log]
    exact (currentBoot_append hsaved.quiet.keeps).trans hboot
  · refine ⟨current, ?_, hknows⟩
    have hskip : lastSnapshot (new ++ inCall w.log) = lastSnapshot (inCall w.log) :=
      lastSnapshot_append hsaved.quiet
    rw [hsaved.later_saved.call, ← hcall]
    exact hskip
  · intro hcalm
    refine ⟨current, ?_, hknows⟩
    have hquiet : Quiet (new ++ more) := List.forall_mem_append.mpr ⟨hsaved.quiet, hpasses.quiet⟩
    have hlog : w'.log = .saved r :: ((new ++ more) ++ .snapshot current :: older) := by
      rw [hsaved.log, hpasses.log, hv, List.append_assoc]
    rw [hlog] at hcalm ⊢
    refine (knownPolicy_append hquiet ?_).trans rfl
    intro hmem
    apply hcalm
    refine List.mem_cons_of_mem _ ?_
    rw [sinceSnapshot_append hquiet]
    exact List.mem_append_left _ hmem

theorem setCpu_wp {governor : Option String} {capMhz : Option Int} (hw : Working enc op w)
    (hfail : ∀ e w', Working enc op w' → fail e w') :
    (setCpu enc governor capMhz).wp (Inv enc)
      (fun _ w' => Working enc op w' ∧ Unverified w w') fail w := by
  rw [setCpu]
  refine observe_then hw (fun e w' hw' _ => hfail e w' hw') ?_
  intro f new₁ w₁ hw₁ hnotes₁ hrunning htoken
  have hs₁ : Stays w w₁ := hnotes₁.stays rfl (by simp)
  refine (yields_load hw₁.toInv).then hw₁ (fun e _ w' hw' _ => hfail e w' hw') ?_
  rintro r new₂ w₂ hw₂ hp₂ rfl
  refine check_then _ (hfail _ _ hw₂) fun _ => ?_
  refine (yields_bootRead safeMode).then hw₂ (fun e _ w' hw' _ => hfail e w' hw') ?_
  intro safe new₃ w₃ hw₃ hp₃ _
  refine check_then _ (hfail _ _ hw₃) fun _ => ?_
  refine check_then _ (hfail _ _ hw₃) fun _ => ?_
  refine snapshot_then hw₃ (fun e w' hw' _ => hfail e w' hw') ?_
  intro s new₄ w₄ hw₄ hnotes₄
  have hs₄ : Stays w₁ w₄ := hp₂.stays.trans <| hp₃.stays.trans (hnotes₄.stays rfl (by simp))
  refine yields_ofExcept.then hw₄ (fun e _ w' hw' _ => hfail e w' hw') ?_
  intro current new₅ w₅ hw₅ hp₅ hcurrent
  obtain ⟨rfl, hvalid, hlow, hhigh⟩ := CpuValues.of_cpuValues hcurrent
  cases htarget : cpuTarget s governor capMhz with
  | none =>
      rw [Call.wp_throw]
      exact hfail _ _ hw₅
  | some target =>
      refine yields_ofExcept.then hw₅ (fun e _ w' hw' _ => hfail e w' hw') ?_
      intro baseline new₆ w₆ hw₆ hp₆ hbaseline
      have hs₆ : Stays w₁ w₆ := hs₄.trans (hp₅.stays.trans hp₆.stays)
      have hrecord : recordOf w₆.log = recordOf w₁.log := hs₆.recordOf
      have hboot : currentBoot w₆.log = some f.bootId := by
        rw [hs₆.currentBoot, hw₁.boot, hrunning]
      have hp : Passes w₄ (new₆ ++ new₅) w₆ := hp₅.trans hp₆
      have hsnapshot : lastSnapshot (inCall w₆.log) = some s.values := by
        rw [hp.later.call, lastSnapshot_append hp.quiet, (hnotes₄.later rfl).call]
        rfl
      have hstart : baseline = (startPolicy w₆.log).getD s.values := by
        rw [hw₆.log.start, hboot, hrecord]
        exact cpuBaseline_eq hbaseline
      have hbaselineValid : baseline.valid = true := by
        rw [hstart, hw₆.log.start]
        cases hpending : pendingBaseline (recordOf w₆.log) (currentBoot w₆.log) with
        | none => exact hvalid
        | some b => exact pendingBaseline_valid hw₆.log.valid hpending
      let cpu : Cpu := ⟨.applying, f.bootId, baseline, s.values, target⟩
      have hcpu : cpu.valid = true := by
        simp only [cpu, Cpu.valid, htoken, hbaselineValid, hvalid,
          CpuValues.of_cpuTarget hlow hhigh htarget, Bool.and_self]
      have hstep : SaveStep w₆.log { recordOf w₁.log with cpu := some cpu } :=
        { valid := Record.setCpu_valid (hrecord ▸ hw₆.log.valid) hcpu
          trial := .unchanged (by rw [hrecord]) (by rw [hrecord])
          cpu := .applying cpu rfl rfl hboot hsnapshot hstart }
      refine save_then hw₆ hstep hfail ?_
      intro new₇ w₇ hw₇ hsaved
      have hrecord₇ : recordOf w₇.log = { recordOf w₁.log with cpu := some cpu } := by
        rw [hsaved.log]
        rfl
      have hready : Ready cpu w₇ :=
        .saved hsaved hp hnotes₄.log hsnapshot rfl (by simp [cpu]) hboot rfl
      rw [Call.wp_bind, Call.wp_tryCatch]
      refine (applyCpu_wp hw₇ hready).mono ?_ ?_
      · rintro ⟨⟩ w₈ ⟨hw₈, hs₈⟩
        have hrecord₈ := hs₈.recordOf.trans hrecord₇
        have hstep₈ : SaveStep w₈.log
            { recordOf w₁.log with cpu := some { cpu with state := .applied } } :=
          { valid := Record.setCpu_valid (hrecord ▸ hw₆.log.valid) hcpu
            trial := .unchanged (by rw [hrecord₈]) (by rw [hrecord₈])
            cpu := .applied cpu (by rw [hrecord₈]) rfl (hs₈.currentBoot.trans hready.boot) rfl }
        refine save_then hw₈ hstep₈ hfail ?_
        intro new₉ w₉ hw₉ hsaved₉
        rw [Call.wp_pure]
        refine ⟨hw₉, hs₁.unverified.trans <| hs₆.unverified.trans <| hsaved.unverified.trans <|
          hs₈.unverified.trans hsaved₉.unverified⟩
      · rintro e w₈ ⟨hw₈, hs₈⟩
        split
        · have hrestore := restoreCpuIn_wp hw₈ hfail
          rw [hs₈.recordOf, hrecord₇] at hrestore
          rw [Call.wp_bind]
          refine hrestore.mono ?_ fun _ _ => id
          rintro r w₉ ⟨hw₉, -⟩
          rw [Call.wp_throw]
          exact hfail _ _ hw₉
        · rw [Call.wp_throw]
          exact hfail _ _ hw₈

theorem restoreCpu_wp (hw : Working enc op w) (hfail : ∀ e w', Working enc op w' → fail e w') :
    (restoreCpu enc).wp (Inv enc)
      (fun _ w' => Working enc op w' ∧ ∃ r, CpuDone w r w') fail w := by
  rw [restoreCpu]
  refine (yields_load hw.toInv).then hw (fun e _ w' hw' _ => hfail e w' hw') ?_
  rintro r new₁ w₁ hw₁ hp₁ rfl
  rw [Call.wp_bind, ← hp₁.recordOf]
  refine (restoreCpuIn_wp hw₁ hfail).mono ?_ fun _ _ => id
  rintro r w₂ ⟨hw₂, hdone⟩
  rw [Call.wp_pure]
  refine ⟨hw₂, r, hdone.record, ?_, ?_, hdone.settled, ?_, ?_⟩
  · rw [hdone.trial, hp₁.recordOf]
  · rw [hdone.profile, hp₁.recordOf]
  · exact hp₁.stays.unverified.trans hdone.later
  · rw [← hp₁.stays.startPolicy]
    exact hdone.back

end Set

end HccastWired.Advanced
