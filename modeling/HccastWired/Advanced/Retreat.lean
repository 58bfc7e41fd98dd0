import HccastWired.Advanced.CpuPolicy

/-!
# The retreat from a trial

Whatever called it, a retreat restores the policy, removes the candidate and then
either records the restoration, asks once for a normal boot, or asks for help.
-/

namespace HccastWired.Advanced

open Foundation

variable {enc : Encoding} {w w' v : World} {new more log : List Event} {op : Operation}
  {r : Record} {e : Event} {f : BootFacts} {t old : Trial} {reason : String}

section Seen

/-- The call has first seen these facts, of the running boot. -/
structure Seen (f : BootFacts) (w : World) : Prop where
  first : firstFacts (inCall w.log) = some f
  running : f.bootId = w.bootId

theorem Seen.later (h : Seen f w) (hl : Later w more w') : Seen f w' where
  first := by
    rw [hl.call]
    exact firstFacts_append h.first
  running := h.running.trans hl.boot.symm

theorem mem_of_firstFacts {call : List Event} (h : firstFacts call = some f) : .facts f ∈ call := by
  obtain ⟨e, he, hfacts⟩ := List.mem_filterMap.mp (List.mem_of_getLast? h)
  cases e with
  | facts g =>
      obtain rfl := Option.some.inj hfacts
      exact he
  | _ => cases hfacts

theorem Seen.observed (h : Seen f w) (hw : Inv enc w) : Observed f w.log where
  seen := mem_of_firstFacts h.first
  running := by rw [hw.boot, h.running]

theorem Seen.stays (h : Seen f w) (hs : Stays w w') : Seen f w' := by
  obtain ⟨more, hmore, -⟩ := hs
  exact h.later hmore

/-- The first look of a call at the boot. -/
theorem Notes.seen (h : Notes w (.facts f) new w') (hcall : Quiet (inCall w.log))
    (hrunning : f.bootId = w'.bootId) : Seen f w' where
  first := by
    have hnone : (new ++ inCall w.log).filterMap factsOf = [] := by
      have hquiet : Quiet (new ++ inCall w.log) := List.forall_mem_append.mpr ⟨h.quiet, hcall⟩
      have hfirst := firstFacts_quiet hquiet
      rwa [firstFacts, List.getLast?_eq_none_iff] at hfirst
    rw [(h.later rfl).call, firstFacts, List.cons_append, List.filterMap_cons, hnone]
    rfl
  running := hrunning

end Seen

section Records

/-- What a returning call says and leaves. -/
structure Ended (a : TrialResult) (w : World) : Prop where
  result : a = Advanced.result (recordOf w.log)
  manual : lastVerified (inCall w.log) = some false →
    (recordOf w.log).trialState = .manualRecoveryRequired

/-- A record that differs only in its trial. -/
structure SameBut (r : Record) (w : World) : Prop where
  cpu : r.cpu = (recordOf w.log).cpu
  profile : r.profile = (recordOf w.log).profile

theorem Record.withTrial_valid (hw : Inv enc w) (hr : SameBut r w) (ht : t.valid = true) :
    (r.withTrial t).valid = true := by
  have hvalid := hw.log.valid
  simp only [valid, Bool.and_eq_true] at hvalid
  simp only [valid, withTrial, hr.cpu, hr.profile, Option.all_some, ht, hvalid.1.1, hvalid.2,
    Bool.and_self]

/-- A rewritten trial that does not run stays valid. -/
theorem Trial.Rewrites.valid (h : old.Rewrites t) (hold : old.valid = true)
    (hstate : t.state ∉ [TrialState.requested, .active, .confirmed]) : t.valid = true := by
  simp only [List.mem_cons, List.not_mem_nil, or_false, not_or] at hstate
  obtain ⟨hrequested, hactive, hconfirmed⟩ := hstate
  simp only [Trial.valid, Bool.and_eq_true] at hold
  obtain ⟨⟨hfixed, -⟩, -⟩ := hold
  have htexts : t.texts = old.texts := by
    rw [h]
    rfl
  have hid : t.id = old.id ∧ t.originBootId = old.originBootId ∧ t.mhz = old.mhz ∧
      t.baselineBits = old.baselineBits ∧ t.platformId = old.platformId := by
    rw [h]
    exact ⟨rfl, rfl, rfl, rfl, rfl⟩
  obtain ⟨hid, horigin, hmhz, hbits, hplatform⟩ := hid
  simp only [Trial.valid, htexts, hid, horigin, hmhz, hbits, hplatform, Bool.and_eq_true]
  exact ⟨⟨hfixed, by simp [hrequested]⟩, by simp [hactive, hconfirmed]⟩

theorem Notes.recordOf_saved (h : Notes w (.saved r) new w') : Advanced.recordOf w'.log = r := by
  rw [h.log]
  rfl

/-- No normal boot has been asked for since the trial was staged. -/
theorem Stays.waiting (hs : Stays w w') (hw' : Working enc op w')
    (h : .reboot false ∉ sinceStaged w.log) : .reboot false ∉ sinceStaged w'.log := by
  obtain ⟨more, hmore, hkeeps, -⟩ := hs
  rw [hmore.log, sinceStaged_append hkeeps]
  intro hmem
  obtain hmem | hmem := List.mem_append.mp hmem
  · apply hw'.waiting
    exact hmore.new_subset hmem
  · exact h hmem

theorem Notes.waiting_saved (hsaved : Notes w (.saved r) new w')
    (h : .reboot false ∉ sinceStaged w.log) : .reboot false ∉ sinceStaged w'.log := by
  have hold : .reboot false ∉ sinceStaged (new ++ w.log) := by
    rw [sinceStaged_append hsaved.quiet.keeps]
    intro hmem
    obtain hmem | hmem := List.mem_append.mp hmem
    · cases hsaved.quiet _ hmem
    · exact h hmem
  rw [hsaved.log, sinceStaged]
  split
  · simp
  · simpa using hold

end Records

section Retreat

theorem Trial.Rewrites.retreat (h : old.Rewrites t) {state : TrialState} :
    old.Rewrites (t.retreat state reason) := by
  rw [Rewrites, h]
  rfl

theorem Trial.Rewrites.request (h : old.Rewrites t) {bootId : String} :
    old.Rewrites (t.request bootId reason) := by
  rw [Rewrites, h]
  rfl

theorem manualRecovery_wp (hw : Working enc op w) (hr : SameBut r w)
    (hold : (recordOf w.log).trial = some old) (hsame : old.Rewrites t)
    (hmark : t.rebootRequestedBootId = old.rebootRequestedBootId ∨
      .reboot false ∉ sinceStaged w.log) :
    (manualRecovery enc r t).wp (Inv enc) (fun a w' => Inv enc w' ∧ Ended a w')
      (fun _ w' => Inv enc w') w := by
  rw [manualRecovery]
  have hsame' : old.Rewrites (t.retreat .manualRecoveryRequired "normal-baseline-unverified") :=
    hsame.retreat
  have hvalid := hsame'.valid (hw.log.trial_valid hold) (by simp [Trial.retreat])
  have hstep : SaveStep w.log
      (r.withTrial (t.retreat .manualRecoveryRequired "normal-baseline-unverified")) :=
    { valid := Record.withTrial_valid hw.toInv hr hvalid
      trial := .manual old _ hold rfl hr.profile hsame' rfl hmark
      cpu := .unchanged hr.cpu }
  refine save_then hw hstep (fun _ _ hw' => hw'.toInv) ?_
  intro new w₁ hw₁ hsaved
  rw [Call.wp_pure]
  refine ⟨hw₁.toInv, ?_, fun _ => ?_⟩
  · rw [hsaved.recordOf_saved]
  · rw [hsaved.recordOf_saved]
    rfl

theorem requestReboot_wp (hw : Working enc op w) (hseen : Seen f w)
    (hold : (recordOf w.log).trial = some old) (hsame : old.Rewrites t)
    (hmark : t.rebootRequestedBootId = old.rebootRequestedBootId)
    (hlast : lastVerified (inCall w.log) = some true) :
    (requestReboot enc (recordOf w.log) f t reason).wp (Inv enc)
      (fun a w' => Inv enc w' ∧ Ended a w') (fun _ w' => Inv enc w') w := by
  rw [requestReboot]
  have hboot : currentBoot w.log = some f.bootId := by rw [hw.boot, hseen.running]
  have hsame' : old.Rewrites (t.request f.bootId reason) := hsame.request
  have hstate : (t.request f.bootId reason).state = .rollbackRequested := rfl
  have hmarked : (t.request f.bootId reason).rebootRequestedBootId = some f.bootId := rfl
  generalize t.request f.bootId reason = requested at hsame' hstate hmarked ⊢
  have hvalid := hsame'.valid (hw.log.trial_valid hold) (by simp [hstate])
  have hstep : SaveStep w.log ((recordOf w.log).withTrial requested) :=
    { valid := Record.withTrial_valid hw.toInv ⟨rfl, rfl⟩ hvalid
      trial := .retreated old requested hold rfl rfl hsame' hstate (hmarked.trans hboot.symm)
      cpu := .unchanged rfl }
  refine save_then hw hstep (fun _ _ hw' => hw'.toInv) ?_
  intro new₁ w₁ hw₁ hsaved
  have hrecord₁ : recordOf w₁.log = (recordOf w.log).withTrial requested := hsaved.recordOf_saved
  have hseen₁ : Seen f w₁ := hseen.later hsaved.later_saved
  split
  · next hfresh =>
    -- an earlier request in this boot would have left its mark
    have hwaiting : .reboot false ∉ sinceStaged w.log := by
      intro hmem
      obtain ⟨t', ht', hmarked⟩ := hw.log.marked hmem
      obtain rfl := Option.some.inj (hold.symm.trans ht')
      exact hfresh (by rw [hmark, hmarked, hboot])
    have hwaiting₁ := hsaved.waiting_saved hwaiting
    refine observe_then hw₁ (fun _ _ hw' _ => hw'.toInv) ?_
    intro again new₂ w₂ hw₂ hnotes₂ _ _
    have hs₂ : Stays w₁ w₂ := hnotes₂.stays rfl (by simp)
    have hmanual : ∀ w₃, Working enc op w₃ → recordOf w₃.log = recordOf w₁.log →
        .reboot false ∉ sinceStaged w₃.log →
        (manualRecovery enc (recordOf w.log) requested.unmark).wp
          (Inv enc) (fun a w' => Inv enc w' ∧ Ended a w') (fun _ w' => Inv enc w') w₃ := by
      intro w₃ hw₃ hrecord₃ hwaiting₃
      have hold₃ : (recordOf w₃.log).trial = some requested := by
        rw [hrecord₃, hrecord₁]
        rfl
      refine manualRecovery_wp hw₃ ⟨?_, ?_⟩ hold₃ rfl (.inr hwaiting₃)
      · rw [hrecord₃, hrecord₁]
        rfl
      · rw [hrecord₃, hrecord₁]
        rfl
    split
    · rw [Call.wp_bind, Call.wp_pure]
      exact hmanual w₂ hw₂ hs₂.recordOf (hs₂.waiting hw₂ hwaiting₁)
    · next hagain =>
      obtain rfl := not_not.mp hagain
      refine baseline_then hw₂ (fun _ _ _ hw' _ => hw'.toInv) ?_
      intro ok new₃ w₃ hw₃ hnotes₃ hverified
      have hrecord₃ : recordOf w₃.log = recordOf w₁.log :=
        (hnotes₃.recordOf rfl).trans hs₂.recordOf
      have hlog₃ : w₃.log = (.verified ok :: new₃ ++ .facts again :: new₂) ++ w₁.log := by
        rw [hnotes₃.log, hnotes₂.log]
        simp
      have hkeeps₃ : Keeps (.verified ok :: new₃ ++ .facts again :: new₂) := by
        refine List.forall_mem_append.mpr ⟨?_, ?_⟩
        · exact List.forall_mem_cons.mpr ⟨rfl, hnotes₃.quiet.keeps⟩
        · exact List.forall_mem_cons.mpr ⟨rfl, hnotes₂.quiet.keeps⟩
      have hlater₃ : Later w₁ (.verified ok :: new₃ ++ .facts again :: new₂) w₃ :=
        .of_keeps hlog₃ (hnotes₃.boot.trans hnotes₂.boot) hkeeps₃
      have hwaiting₃ : .reboot false ∉ sinceStaged w₃.log := by
        rw [hlog₃, sinceStaged_append hkeeps₃]
        intro hmem
        obtain hmem | hmem := List.mem_append.mp hmem
        · exact hw₃.waiting (hlater₃.new_subset hmem)
        · exact hwaiting₁ hmem
      cases ok with
      | false =>
          simp only [Bool.false_eq_true, if_false]
          exact hmanual w₃ hw₃ hrecord₃ hwaiting₃
      | true =>
          have hseen₃ : Seen again w₃ := hseen₁.later hlater₃
          have hsince : sinceSave w₃.log = .verified true :: new₃ ++ .facts again :: new₂ := by
            rw [hlog₃, sinceSave_append hkeeps₃, hsaved.log, sinceSave, List.append_nil]
          have hreboot : RebootStep w₃.log again requested :=
            { recorded := by
                rw [hrecord₃, hrecord₁]
                rfl
              state := hstate
              boot := by rw [hw₃.boot, hseen₃.running]
              marked := hmarked
              first := hseen₃.first
              again := by
                rw [hsince]
                simp
              verified := by
                have hfound : Verified again requested new₃ := hverified rfl
                refine hfound.mono ?_
                rw [hsince]
                intro e he
                simp [he]
              last := by
                rw [(hnotes₃.later rfl).call]
                rfl
              once := hwaiting₃ }
          simp only [if_true]
          refine reboot_then hw₃ hreboot (fun _ _ h => h) ?_
          intro new₄ w₄ hw₄ hnotes₄
          rw [Call.wp_pure]
          refine ⟨hw₄, ?_, ?_⟩
          · rw [hnotes₄.recordOf rfl, hrecord₃, hrecord₁]
          · intro hfalse
            have htrue : lastVerified (inCall w₄.log) = some true := by
              have hunverified : ∀ ok, Event.verified ok ∉ Event.reboot false :: new₄ := by
                intro ok hmem
                obtain hmem | hmem := List.mem_cons.mp hmem
                · cases hmem
                · exact hnotes₄.quiet.unverified ok hmem
              rw [(hnotes₄.later rfl).call, lastVerified_append hunverified]
              exact hreboot.last
            rw [htrue] at hfalse
            cases hfalse
  · rw [Call.wp_pure]
    refine ⟨hw₁.toInv, hrecord₁ ▸ rfl, fun hfalse => ?_⟩
    rw [hsaved.unverified.last, hlast] at hfalse
    cases hfalse

theorem finishRestore_wp (hw : Working enc op w) (hseen : Seen f w)
    (hold : (recordOf w.log).trial = some old) (hsame : old.Rewrites t)
    (hmark : t.rebootRequestedBootId = old.rebootRequestedBootId)
    (hlast : lastVerified (inCall w.log) = some true) (hverified : Verified f t (inCall w.log))
    (htryboot : f.tryboot = false) (hboot : f.bootId ≠ t.originBootId ∨ old.state = .staging) :
    (finishRestore enc (recordOf w.log) f t reason).wp (Inv enc)
      (fun a w' => Inv enc w' ∧ Ended a w') (fun _ w' => Inv enc w') w := by
  rw [finishRestore]
  refine check_then _ hw.toInv fun hstock => ?_
  refine (yields_health t.baselineBits).then hw (fun _ _ _ hw' _ => hw'.toInv) ?_
  rintro ⟨⟩ new₁ w₁ hw₁ hp₁ hhealthy
  have hsame' : old.Rewrites (t.retreat .restored reason) := hsame.retreat
  have hold₁ : (recordOf w₁.log).trial = some old := by rw [hp₁.recordOf, hold]
  have hvalid := hsame'.valid (hw.log.trial_valid hold) (by simp [Trial.retreat])
  have hseen₁ := hseen.stays hp₁.stays
  have hstep : SaveStep w₁.log ((recordOf w₁.log).withTrial (t.retreat .restored reason)) :=
    { valid := Record.withTrial_valid hw₁.toInv ⟨rfl, rfl⟩ hvalid
      trial := .restored f old _ hold₁ rfl rfl hsame' rfl hmark (hseen₁.observed hw₁.toInv) htryboot
        (not_not.mp hstock) ((hverified.mono hp₁.later.subset).of_same rfl rfl)
        (hhealthy.mono hp₁.later.new_subset) hboot
      cpu := .unchanged rfl }
  rw [← hp₁.recordOf]
  refine save_then hw₁ hstep (fun _ _ hw' => hw'.toInv) ?_
  intro new₂ w₂ hw₂ hsaved
  rw [Call.wp_pure]
  refine ⟨hw₂.toInv, by rw [hsaved.recordOf_saved], fun hfalse => ?_⟩
  rw [hsaved.unverified.last, hp₁.stays.unverified.last, hlast] at hfalse
  cases hfalse

theorem rollbackIn_wp (hw : Working enc op w) (hseen : Seen f w)
    (hnone : (recordOf w.log).trial = none → lastVerified (inCall w.log) ≠ some false) :
    (rollbackIn enc (recordOf w.log) f reason).wp (Inv enc)
      (fun a w' => Inv enc w' ∧ Ended a w') (fun _ w' => Inv enc w') w := by
  rw [rollbackIn, Call.wp_bind]
  refine (restoreCpuIn_wp hw fun _ _ hw' => hw'.toInv).mono ?_ fun _ _ => id
  rintro r w₁ ⟨hw₁, hdone⟩
  obtain rfl := hdone.record
  have hseen₁ : Seen f w₁ := by
    obtain ⟨more, hmore, -⟩ := hdone.later
    exact hseen.later hmore
  cases htrial : (recordOf w₁.log).trial with
  | none =>
      simp only
      split
      · rw [Call.wp_throw]
        exact hw₁.toInv
      · rw [Call.wp_pure]
        refine ⟨hw₁.toInv, rfl, fun hfalse => ?_⟩
        rw [hdone.later.last] at hfalse
        exact absurd hfalse (hnone (hdone.trial ▸ htrial))
  | some t =>
      simp only
      refine yields_removeCandidate.then hw₁ (fun _ _ _ hw' _ => hw'.toInv) ?_
      intro conflict new₂ w₂ hw₂ hp₂ _
      have hs₂ : Stays w₁ w₂ := hp₂.stays
      refine baseline_then hw₂ (fun _ _ _ hw' _ => hw'.toInv) ?_
      intro ok new₃ w₃ hw₃ hnotes₃ hverified
      have hrecord₃ : recordOf w₃.log = recordOf w₁.log :=
        (hnotes₃.recordOf rfl).trans hp₂.recordOf
      have hold₃ : (recordOf w₃.log).trial = some t := by rw [hrecord₃, htrial]
      have hseen₃ : Seen f w₃ := (hseen₁.stays hs₂).later (hnotes₃.later rfl)
      have hlast₃ : lastVerified (inCall w₃.log) = some ok := by
        rw [(hnotes₃.later rfl).call]
        rfl
      rw [← hrecord₃]
      cases ok with
      | false =>
          simp only [Bool.false_eq_true, not_false_eq_true, if_true]
          exact manualRecovery_wp hw₃ ⟨rfl, rfl⟩ hold₃ rfl (.inl rfl)
      | true =>
          simp only [not_true_eq_false, if_false]
          split
          · exact requestReboot_wp hw₃ hseen₃ hold₃ rfl rfl hlast₃
          · next hleave =>
            obtain ⟨htryboot, hboot⟩ := not_or.mp hleave
            have hmem : new₃ ⊆ inCall w₃.log := by
              intro e he
              rw [(hnotes₃.later rfl).call]
              simp [he]
            refine finishRestore_wp hw₃ hseen₃ hold₃ rfl rfl hlast₃ ((hverified rfl).mono hmem)
              (by simpa using htryboot) ?_
            obtain hother | hstaging := not_and_or.mp hboot
            · exact .inl hother
            · exact .inr (not_not.mp hstaging)

end Retreat

end HccastWired.Advanced
