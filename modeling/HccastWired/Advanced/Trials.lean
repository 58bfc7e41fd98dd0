import HccastWired.Advanced.Retreat

/-!
# Trials

The operations that stage a trial, supervise it and confirm it, and with them all
calls: each keeps the invariant, and a call that returns has ended as it says.
-/

namespace HccastWired.Advanced

open Foundation

variable {enc : Encoding} {w w' v : World} {new more log : List Event} {op : Operation}
  {r : Record} {f : BootFacts} {t old : Trial}

section Supervise

theorem rollbackWith_wp {reason : String} (hw : Working enc op w) (hseen : Seen f w)
    (ht : (recordOf w.log).trial = some t) :
    (rollbackIn enc (recordOf w.log) f reason).wp (Inv enc)
      (fun a w' => Inv enc w' ∧ Ended a w') (fun _ w' => Inv enc w') w := by
  refine rollbackIn_wp hw hseen ?_
  rw [ht]
  exact nofun

theorem superviseTrial_wp (hw : Working enc op w) (hseen : Seen f w)
    (ht : (recordOf w.log).trial = some t) (hlast : lastVerified (inCall w.log) = some true) :
    (superviseTrial enc (recordOf w.log) f t).wp (Inv enc)
      (fun a w' => Inv enc w' ∧ Ended a w') (fun _ w' => Inv enc w') w := by
  rw [superviseTrial]
  split
  · exact rollbackWith_wp hw hseen ht
  · refine yields_clock.then hw (fun _ _ _ hw' _ => hw'.toInv) ?_
    intro now new₁ w₁ hw₁ hp₁ _
    have ht₁ : (recordOf w₁.log).trial = some t := by rw [hp₁.recordOf, ht]
    have hseen₁ := hseen.stays hp₁.stays
    rw [← hp₁.recordOf]
    refine wp_ite (fun _ => ?_) fun _ => ?_
    · exact rollbackWith_wp hw₁ hseen₁ ht₁
    · refine yields_clock.then hw₁ (fun _ _ _ hw' _ => hw'.toInv) ?_
      intro now' new₂ w₂ hw₂ hp₂ _
      have ht₂ : (recordOf w₂.log).trial = some t := by rw [hp₂.recordOf, ht₁]
      rw [← hp₂.recordOf]
      split
      · exact rollbackWith_wp hw₂ (hseen₁.stays hp₂.stays) ht₂
      · rw [Call.wp_pure]
        refine ⟨hw₂.toInv, rfl, fun hfalse => ?_⟩
        rw [hp₂.stays.unverified.last, hp₁.stays.unverified.last, hlast] at hfalse
        cases hfalse

theorem Trial.valid_texts (h : t.valid = true) : t.texts = true := by
  simp only [valid, Bool.and_eq_true] at h
  exact h.1.1.2

theorem Trial.encode_candidate (h : t.valid = true) : (encode t.candidate).isSome = true := by
  have htexts := t.valid_texts h
  rw [texts] at htexts
  split at htexts
  · next hc => rw [hc, Option.isSome_some]
  · cases htexts

theorem Number.toRat_add {x y : Number} {p q : Rat} (hx : x.toRat = some p) (hy : y.toRat = some q) :
    (x.add y).toRat = some (p + q) := by
  cases x <;> cases y <;> simp_all [Number.toRat, Number.add]

theorem Number.le_iff {x y : Number} {p q : Rat} (hx : x.toRat = some p) (hy : y.toRat = some q) :
    x.le y = true ↔ p ≤ q := by
  cases x <;> cases y <;> simp_all [Number.toRat, Number.le]

/-- The deadline of a trial that starts now. -/
theorem instant_deadline {now : Number} (h : instant now = true) :
    instant (now.add confirmSeconds) = true ∧
      (now.add confirmSeconds).eq (now.add confirmSeconds) = true := by
  simp only [instant, Bool.and_eq_true, Number.isFinite] at h ⊢
  obtain ⟨hfinite, hpos⟩ := h
  obtain ⟨q, hq⟩ := Option.isSome_iff_exists.mp hfinite
  have hsum : (now.add confirmSeconds).toRat = some (q + 120) := Number.toRat_add hq rfl
  have hzero : (Number.int 0).toRat = some 0 := rfl
  rw [Number.le_iff hzero hq] at hpos
  refine ⟨⟨by rw [hsum]; rfl, ?_⟩, ?_⟩
  · rw [Number.le_iff hzero hsum]
    linarith
  · rw [Number.eq, Bool.and_self, Number.le_iff hsum hsum]

theorem Trial.started_valid {bootId : String} {now : Number} (h : t.valid = true)
    (hboot : token bootId = true) (hnow : instant now = true) :
    (t.started bootId now).valid = true := by
  have hrunning : (t.started bootId now).running = true := by
    obtain ⟨hinstant, heq⟩ := instant_deadline hnow
    simp only [running, started, hboot, hnow, hinstant, heq, Bool.and_self]
  simp only [valid, Bool.and_eq_true] at h ⊢
  refine ⟨⟨h.1.1, ?_⟩, ?_⟩
  · simp [started]
  · rw [hrunning, Bool.or_true]

theorem activateTrial_wp (hw : Working enc op w) (hseen : Seen f w)
    (ht : (recordOf w.log).trial = some t) (hlast : lastVerified (inCall w.log) = some true)
    (htoken : token f.bootId = true) (htryboot : f.tryboot = true)
    (horigin : f.bootId ≠ t.originBootId) (hmhz : f.configuredMhz = t.mhz)
    (hverified : Verified f t (inCall w.log)) (hcandidate : Candidate t (inCall w.log))
    (hhealthy : Healthy t.baselineBits (inCall w.log)) :
    (activateTrial enc (recordOf w.log) f t).wp (Inv enc)
      (fun a w' => Inv enc w' ∧ Ended a w') (fun _ w' => Inv enc w') w := by
  rw [activateTrial]
  split
  · next hrequested =>
    refine yields_clock.then hw (fun _ _ _ hw' _ => hw'.toInv) ?_
    intro now new₁ w₁ hw₁ hp₁ hclock
    have ht₁ : (recordOf w₁.log).trial = some t := by rw [hp₁.recordOf, ht]
    have hseen₁ := hseen.stays hp₁.stays
    have hsub := hp₁.later.subset
    have hvalid := t.started_valid (hw.log.trial_valid ht) htoken hclock.2
    have hstep : SaveStep w₁.log ((recordOf w₁.log).withTrial (t.started f.bootId now)) :=
      { valid := Record.withTrial_valid hw₁.toInv ⟨rfl, rfl⟩ hvalid
        trial := .activated f t now ht₁ hrequested rfl rfl (hseen₁.observed hw₁.toInv) htryboot
          horigin hmhz (hverified.mono hsub) (hcandidate.mono hsub) (hhealthy.mono hsub)
        cpu := .unchanged rfl }
    rw [← hp₁.recordOf]
    refine save_then hw₁ hstep (fun _ _ hw' => hw'.toInv) ?_
    intro new₂ w₂ hw₂ hsaved
    rw [← hsaved.recordOf_saved]
    refine superviseTrial_wp hw₂ (hseen₁.later hsaved.later_saved) ?_ ?_
    · rw [hsaved.recordOf_saved]
      rfl
    · rw [hsaved.unverified.last, hp₁.stays.unverified.last, hlast]
  · exact superviseTrial_wp hw hseen ht hlast

theorem guardTrialBoot_wp (hw : Working enc op w) (hseen : Seen f w)
    (ht : (recordOf w.log).trial = some t) (hlast : lastVerified (inCall w.log) = some true)
    (htoken : token f.bootId = true) (htryboot : f.tryboot = true)
    (hverified : Verified f t (inCall w.log)) :
    (guardTrialBoot enc (recordOf w.log) f t).wp (Inv enc)
      (fun a w' => Inv enc w' ∧ Ended a w') (fun _ w' => Inv enc w') w := by
  rw [guardTrialBoot]
  split
  · exact rollbackWith_wp hw hseen ht
  · next hmatch =>
    obtain ⟨horigin, hmhz, -⟩ := by simpa only [not_or, not_not] using hmatch
    refine yields_fileMatches.then hw (fun _ _ _ hw' _ => hw'.toInv) ?_
    intro normal new₁ w₁ hw₁ hp₁ _
    have ht₁ : (recordOf w₁.log).trial = some t := by rw [hp₁.recordOf, ht]
    have hseen₁ := hseen.stays hp₁.stays
    rw [← hp₁.recordOf]
    split
    · exact rollbackWith_wp hw₁ hseen₁ ht₁
    refine (yields_candidate (t.encode_candidate (hw.log.trial_valid ht))).then hw₁
      (fun _ _ _ hw' _ => hw'.toInv) ?_
    intro candidate new₂ w₂ hw₂ hp₂ hcandidate
    have ht₂ : (recordOf w₂.log).trial = some t := by rw [hp₂.recordOf, ht₁]
    have hseen₂ := hseen₁.stays hp₂.stays
    rw [← hp₂.recordOf]
    split
    · exact rollbackWith_wp hw₂ hseen₂ ht₂
    next hfound =>
    have hfound₂ : Candidate t (inCall w₂.log) :=
      (hcandidate (by simpa using hfound)).mono hp₂.later.new_subset
    refine (yields_healthy t.baselineBits).then hw₂ (fun _ _ _ hw' _ => hw'.toInv) ?_
    intro healthy new₃ w₃ hw₃ hp₃ hhealthy
    have ht₃ : (recordOf w₃.log).trial = some t := by rw [hp₃.recordOf, ht₂]
    have hseen₃ := hseen₂.stays hp₃.stays
    rw [← hp₃.recordOf]
    split
    · exact rollbackWith_wp hw₃ hseen₃ ht₃
    next hwell =>
    have hlater := (hp₁.trans hp₂).trans hp₃
    refine activateTrial_wp hw₃ hseen₃ ht₃ ?_ htoken htryboot horigin hmhz
      (hverified.mono hlater.later.subset) (hfound₂.mono hp₃.later.subset)
      ((hhealthy (by simpa using hwell)).mono hp₃.later.new_subset)
    rw [hlater.stays.unverified.last, hlast]

theorem guardTrial_wp (hw : Working enc op w) (hseen : Seen f w)
    (ht : (recordOf w.log).trial = some t) (htoken : token f.bootId = true) :
    (guardTrial enc (recordOf w.log) f t).wp (Inv enc)
      (fun a w' => Inv enc w' ∧ Ended a w') (fun _ w' => Inv enc w') w := by
  rw [guardTrial]
  refine baseline_then hw (fun _ _ _ hw' _ => hw'.toInv) ?_
  intro ok new₁ w₁ hw₁ hnotes₁ hverified
  have ht₁ : (recordOf w₁.log).trial = some t := by rw [hnotes₁.recordOf rfl, ht]
  have hseen₁ := hseen.later (hnotes₁.later rfl)
  have hlast₁ : lastVerified (inCall w₁.log) = some ok := by
    rw [(hnotes₁.later rfl).call]
    rfl
  rw [← hnotes₁.recordOf rfl]
  split
  · exact rollbackWith_wp hw₁ hseen₁ ht₁
  next hok =>
  obtain rfl : ok = true := by simpa using hok
  have hverified₁ : Verified f t (inCall w₁.log) := by
    refine (hverified rfl).mono fun e he => ?_
    rw [(hnotes₁.later rfl).call]
    simp [he]
  refine yields_inGrace.then hw₁ (fun _ _ _ hw' _ => hw'.toInv) ?_
  intro grace new₂ w₂ hw₂ hp₂ _
  have ht₂ : (recordOf w₂.log).trial = some t := by rw [hp₂.recordOf, ht₁]
  have hseen₂ := hseen₁.stays hp₂.stays
  have hlast₂ : lastVerified (inCall w₂.log) = some true := by
    rw [hp₂.stays.unverified.last, hlast₁]
  rw [← hp₂.recordOf]
  split
  · rw [Call.wp_pure]
    refine ⟨hw₂.toInv, rfl, fun hfalse => ?_⟩
    rw [hlast₂] at hfalse
    cases hfalse
  split
  · exact rollbackWith_wp hw₂ hseen₂ ht₂
  next htrial =>
  obtain ⟨htryboot, -⟩ := not_or.mp htrial
  exact guardTrialBoot_wp hw₂ hseen₂ ht₂ hlast₂ htoken (by simpa using htryboot)
    (hverified₁.mono hp₂.later.subset)

theorem guardIdle_wp (hw : Working enc op w) (hlast : lastVerified (inCall w.log) = none) :
    (guardIdle enc (recordOf w.log) f).wp (Inv enc)
      (fun a w' => Inv enc w' ∧ Ended a w') (fun _ w' => Inv enc w') w := by
  rw [guardIdle]
  refine check_then _ hw.toInv fun _ => ?_
  split
  · rw [Call.wp_bind]
    refine (restoreCpuIn_wp hw fun _ _ hw' => hw'.toInv).mono ?_ fun _ _ => id
    rintro r w₁ ⟨hw₁, hdone⟩
    rw [Call.wp_pure]
    refine ⟨hw₁.toInv, by rw [← hdone.record], fun hfalse => ?_⟩
    rw [hdone.later.last, hlast] at hfalse
    cases hfalse
  · rw [Call.wp_pure]
    refine ⟨hw.toInv, rfl, fun hfalse => ?_⟩
    rw [hlast] at hfalse
    cases hfalse

/-- Nothing but quiet events has happened in the call. -/
theorem lastVerified_quiet {call : List Event} (h : Quiet call) : lastVerified call = none := by
  rw [← List.append_nil call, lastVerified_append h.unverified]
  rfl

theorem Passes.quietCall (hp : Passes w new w') (h : Quiet (inCall w.log)) :
    Quiet (inCall w'.log) := by
  rw [hp.later.call]
  exact List.forall_mem_append.mpr ⟨hp.quiet, h⟩

theorem Notes.last_facts (h : Notes w (.facts f) new w') :
    lastVerified (inCall w'.log) = lastVerified (inCall w.log) :=
  (h.stays rfl (by simp)).unverified.last

theorem guardian_wp (hw : Working enc op w) (hcall : Quiet (inCall w.log)) :
    (guardian enc).wp (Inv enc) (fun a w' => Inv enc w' ∧ Ended a w') (fun _ w' => Inv enc w') w := by
  rw [guardian]
  refine observe_then hw (fun _ _ hw' _ => hw'.toInv) ?_
  intro f new₁ w₁ hw₁ hnotes₁ hrunning htoken
  have hseen₁ := hnotes₁.seen hcall hrunning
  have hlast₁ : lastVerified (inCall w₁.log) = none := by
    rw [hnotes₁.last_facts, lastVerified_quiet hcall]
  refine (yields_load hw₁.toInv).then hw₁ (fun _ _ _ hw' _ => hw'.toInv) ?_
  rintro r new₂ w₂ hw₂ hp₂ rfl
  refine (yields_bootRead safeMode).then hw₂ (fun _ _ _ hw' _ => hw'.toInv) ?_
  intro safe new₃ w₃ hw₃ hp₃ _
  have hs₃ : Stays w₁ w₃ := hp₂.stays.trans hp₃.stays
  have hseen₃ := hseen₁.stays hs₃
  have hlast₃ : lastVerified (inCall w₃.log) = none := by rw [hs₃.unverified.last, hlast₁]
  rw [← hs₃.recordOf]
  have hrollback : ∀ reason, (rollbackIn enc (recordOf w₃.log) f reason).wp (Inv enc)
      (fun a w' => Inv enc w' ∧ Ended a w') (fun _ w' => Inv enc w') w₃ := by
    intro reason
    refine rollbackIn_wp hw₃ hseen₃ fun _ => ?_
    rw [hlast₃]
    exact nofun
  split
  · exact hrollback _
  cases ht : (recordOf w₃.log).trial with
  | none => exact guardIdle_wp hw₃ hlast₃
  | some t =>
      simp only
      split
      · split
        · exact hrollback _
        · exact guardIdle_wp hw₃ hlast₃
      · exact guardTrial_wp hw₃ hseen₃ ht htoken

/-- A retreat that was asked for. -/
theorem retreat_wp {reason : String} (hw : Working enc op w) (hcall : Quiet (inCall w.log)) :
    (do
      let r ← load enc
      let facts ← observe
      rollbackIn enc r facts reason).wp (Inv enc) (fun a w' => Inv enc w' ∧ Ended a w')
        (fun _ w' => Inv enc w') w := by
  refine (yields_load hw.toInv).then hw (fun _ _ _ hw' _ => hw'.toInv) ?_
  rintro r new₁ w₁ hw₁ hp₁ rfl
  refine observe_then hw₁ (fun _ _ hw' _ => hw'.toInv) ?_
  intro f new₂ w₂ hw₂ hnotes₂ hrunning _
  have hcall₁ := hp₁.quietCall hcall
  rw [← hp₁.recordOf, ← hnotes₂.recordOf rfl]
  refine rollbackIn_wp hw₂ (hnotes₂.seen hcall₁ hrunning) fun _ => ?_
  rw [hnotes₂.last_facts, lastVerified_quiet hcall₁]
  exact nofun

theorem setSafeMode_wp (hw : Working enc op w) (hcall : Quiet (inCall w.log)) :
    (setSafeMode enc).wp (Inv enc) (fun a w' => Inv enc w' ∧ Ended a w')
      (fun _ w' => Inv enc w') w := by
  rw [setSafeMode]
  refine (yields_bootRead safeMode).then hw (fun _ _ _ hw' _ => hw'.toInv) ?_
  intro safe new₁ w₁ hw₁ hp₁ _
  have hcall₁ := hp₁.quietCall hcall
  refine wp_ite (fun _ => ?_) fun _ => ?_
  · refine (yields_bootWrite (by decide)).then hw₁ (fun _ _ _ hw' _ => hw'.toInv) ?_
    intro _ new₂ w₂ hw₂ hp₂ _
    exact retreat_wp hw₂ (hp₂.quietCall hcall₁)
  · exact retreat_wp hw₁ hcall₁

theorem Record.confirm_valid (hvalid : r.valid = true) (ht : r.trial = some t)
    (hactive : t.state = .active) : (r.confirm t).valid = true := by
  simp only [valid, ht, Option.all_some, Bool.and_eq_true] at hvalid
  obtain ⟨⟨hcpu, htrial⟩, -⟩ := hvalid
  have htexts := t.valid_texts htrial
  have hconfirmed : ({ t with state := .confirmed } : Trial).valid = true := by
    simp only [Trial.valid, hactive, Bool.and_eq_true] at htrial ⊢
    have hrunning : t.running = true := by simpa using htrial.2
    exact ⟨⟨htrial.1.1, rfl⟩, Bool.or_eq_true_iff.mpr (.inr hrunning)⟩
  have hdigest : digest t.configSha256 = true := by
    rw [Trial.texts] at htexts
    split at htexts
    · next baseline candidate _ _ =>
      simp only [Bool.and_eq_true, decide_eq_true_eq] at htexts
      rw [← htexts.1.1.2, digest, Bool.and_eq_true]
      refine ⟨by simpa using Sha256.hexdigest_length baseline, ?_⟩
      rw [List.all_eq_true]
      intro c hc
      simpa using Sha256.hexdigest_mem baseline c hc
    · cases htexts
  simp only [Trial.valid, Bool.and_eq_true, decide_eq_true_eq] at htrial
  simp only [valid, confirm, Option.all_some, hcpu, hconfirmed, Profile.valid, hdigest,
    Bool.and_eq_true, decide_eq_true_eq]
  obtain ⟨⟨⟨⟨⟨⟨⟨⟨hid, -⟩, hlow⟩, hhigh⟩, -⟩, hplatform⟩, -⟩, -⟩, -⟩ := htrial
  simp [hid, hlow, hhigh, hplatform]

theorem confirmTrial_wp {trialId : Option String} {visible : Bool}
    (hw : Working enc (.confirmTrial trialId visible) w) (hcall : Quiet (inCall w.log)) :
    (confirmTrial enc trialId visible).wp (Inv enc) (fun a w' => Inv enc w' ∧ Ended a w')
      (fun _ w' => Inv enc w') w := by
  rw [confirmTrial]
  refine observe_then hw (fun _ _ hw' _ => hw'.toInv) ?_
  intro f new₁ w₁ hw₁ hnotes₁ hrunning _
  have hseen₁ := hnotes₁.seen hcall hrunning
  refine (yields_load hw₁.toInv).then hw₁ (fun _ _ _ hw' _ => hw'.toInv) ?_
  rintro r new₂ w₂ hw₂ hp₂ rfl
  have hseen₂ := hseen₁.stays hp₂.stays
  cases ht : (recordOf w₁.log).trial with
  | none =>
      rw [Call.wp_throw]
      exact hw₂.toInv
  | some t =>
      refine check_then _ hw₂.toInv fun hallowed => ?_
      simp only [not_or, not_not, Bool.not_eq_true] at hallowed
      obtain ⟨hvisible, hid, hactive, htryboot, hboot, hmhz, -⟩ := hallowed
      refine (yields_bootRead safeMode).then hw₂ (fun _ _ _ hw' _ => hw'.toInv) ?_
      intro safe new₃ w₃ hw₃ hp₃ _
      refine check_then _ hw₃.toInv fun _ => ?_
      refine yields_clock.then hw₃ (fun _ _ _ hw' _ => hw'.toInv) ?_
      intro now new₄ w₄ hw₄ hp₄ hclock
      refine check_then _ hw₄.toInv fun hbefore => ?_
      refine baseline_then hw₄ (fun _ _ _ hw' _ => hw'.toInv) ?_
      intro ok new₅ w₅ hw₅ hnotes₅ hverified
      refine check_then _ hw₅.toInv fun hok => ?_
      obtain rfl : ok = true := by simpa using hok
      have hvalid : t.valid = true := hw₁.log.trial_valid ht
      refine (yields_candidate (t.encode_candidate hvalid)).then hw₅ (fun _ _ _ hw' _ => hw'.toInv) ?_
      intro candidate new₆ w₆ hw₆ hp₆ hcandidate
      refine check_then _ hw₆.toInv fun hfound => ?_
      refine (yields_health t.baselineBits).then hw₆ (fun _ _ _ hw' _ => hw'.toInv) ?_
      rintro ⟨⟩ new₇ w₇ hw₇ hp₇ hhealthy
      have hp₄' := (hp₂.trans hp₃).trans hp₄
      have hp₇' := hp₆.trans hp₇
      have hlater₅ := hnotes₅.later rfl
      have hrecord₇ : recordOf w₇.log = recordOf w₁.log := by
        rw [hp₇'.recordOf, hnotes₅.recordOf rfl, hp₄'.recordOf]
      have hseen₇ : Seen f w₇ := ((hseen₁.stays hp₄'.stays).later hlater₅).stays hp₇'.stays
      have ht₇ : (recordOf w₇.log).trial = some t := by rw [hrecord₇, ht]
      have hnow : .clock now ∈ inCall w₇.log :=
        hp₇'.later.subset (hlater₅.subset (hp₄.later.new_subset hclock.1))
      have hverified₇ : Verified f t (inCall w₇.log) := by
        refine (hverified rfl).mono fun e he => hp₇'.later.subset (hlater₅.new_subset ?_)
        exact List.mem_cons_of_mem _ he
      have hcandidate₇ : Candidate t (inCall w₇.log) :=
        (hcandidate (by simpa using hfound)).mono fun e he =>
          hp₇.later.subset (hp₆.later.new_subset he)
      have hdeadline : ∃ deadline, t.deadlineS = some deadline := by
        have hrunning := hvalid
        simp only [Trial.valid, hactive, Bool.and_eq_true] at hrunning
        have hrun : t.running = true := by simpa using hrunning.2
        rw [Trial.running] at hrun
        split at hrun
        · next deadline _ _ hd => exact ⟨_, hd⟩
        · cases hrun
      obtain ⟨deadline, hdeadline⟩ := hdeadline
      have hoperation : operation w₇.log = some (.confirmTrial (some t.id) true) := by
        rw [hw₇.running, hid, show visible = true by simpa using hvisible]
      have hstep : SaveStep w₇.log ((recordOf w₇.log).confirm t) :=
        { valid := Record.confirm_valid hw₇.log.valid ht₇ hactive
          trial := .confirmed f t now deadline ht₇ hactive rfl (hseen₇.observed hw₇.toInv)
            (by simpa using htryboot) hboot hnow hdeadline (by simpa [hdeadline] using hbefore)
            hoperation hmhz hverified₇ hcandidate₇ (hhealthy.mono hp₇.later.new_subset)
          cpu := .unchanged rfl }
      rw [← hrecord₇]
      refine save_then hw₇ hstep (fun _ _ hw' => hw'.toInv) ?_
      intro new₈ w₈ hw₈ hsaved
      rw [Call.wp_pure]
      refine ⟨hw₈.toInv, by rw [hsaved.recordOf_saved], fun hfalse => ?_⟩
      rw [hsaved.unverified.last, hp₇'.stays.unverified.last, hlater₅.call] at hfalse
      cases hfalse

end Supervise

section Stage

/-- What a new trial needs has been seen. -/
structure Stageable (f : BootFacts) (mhz : Int) (baseline : Bytes) (text : List Char) (w : World) :
    Prop where
  tryboot : f.tryboot = false
  stock : f.configuredMhz = stockMhz
  settled : (recordOf w.log).trialState = .restored
  config : ConfigRead f baseline text (inCall w.log)
  platform : f.platformId ≠ ""
  healthy : Healthy 0 (inCall w.log)
  low : stockMhz < mhz
  high : mhz ≤ min maxMhz
    ((lastConfirmed (Sha256.hexdigest baseline) f.platformId w.log).getD stockMhz + 50)

theorem ConfigRead.mono {raw : Bytes} {text : List Char} {call more : List Event}
    (h : ConfigRead f raw text call) (hsub : call ⊆ more) : ConfigRead f raw text more where
  layout := h.layout
  assets name hname := hsub (h.assets name hname)
  read := hsub h.read
  size := h.size
  ascii := h.ascii
  supported := h.supported

/-- The profile that was read is the last confirmed step. -/
theorem previousMhz_le (h : LogInv log) (configHash platformId : String) :
    previousMhz (recordOf log).profile configHash platformId ≤
      (lastConfirmed configHash platformId log).getD stockMhz := by
  have hstock : stockMhz ≤ (lastConfirmed configHash platformId log).getD stockMhz := by
    cases hlast : lastConfirmed configHash platformId log with
    | none => exact le_refl _
    | some mhz => exact (h.fast _ _ _ hlast).le
  cases hp : (recordOf log).profile with
  | none => exact hstock
  | some p =>
      rw [previousMhz]
      split
      · next hsame =>
        obtain ⟨rfl, rfl⟩ := hsame
        rw [h.profile p hp]
        exact le_refl _
      · exact hstock

theorem trialReady_wp {mhz : Option Int} (hw : Working enc op w) :
    (trialReady enc (recordOf w.log) f mhz).wp (Inv enc)
      (fun a w' => Working enc op w' ∧ Stays w w' ∧ Stageable f a.1 a.2.1 a.2.2.1 w')
      (fun _ w' => Inv enc w') w := by
  rw [trialReady]
  refine check_then _ hw.toInv fun hboot => ?_
  obtain ⟨htryboot, hstock⟩ := not_or.mp hboot
  refine (yields_bootRead safeMode).then hw (fun _ _ _ hw' _ => hw'.toInv) ?_
  intro safe new₁ w₁ hw₁ hp₁ _
  refine check_then _ hw₁.toInv fun _ => ?_
  refine check_then _ hw₁.toInv fun hsettled => ?_
  refine check_then _ hw₁.toInv fun _ => ?_
  refine yields_config.then hw₁ (fun _ _ _ hw' _ => hw'.toInv) ?_
  rintro ⟨baseline, text⟩ new₂ w₂ hw₂ hp₂ hconfig
  refine yields_readinessRead.then hw₂ (fun _ _ _ hw' _ => hw'.toInv) ?_
  intro raw new₃ w₃ hw₃ hp₃ _
  refine yields_ofExcept.then hw₃ (fun _ _ _ hw' _ => hw'.toInv) ?_
  intro readiness new₄ w₄ hw₄ hp₄ _
  refine check_then _ hw₄.toInv fun hready => ?_
  refine snapshot_then hw₄ (fun _ _ hw' _ => hw'.toInv) ?_
  intro s new₅ w₅ hw₅ hnotes₅
  refine yields_ofExcept.then hw₅ (fun _ _ _ hw' _ => hw'.toInv) ?_
  intro cpu new₆ w₆ hw₆ hp₆ _
  refine check_then _ hw₆.toInv fun _ => ?_
  refine (yields_health 0).then hw₆ (fun _ _ _ hw' _ => hw'.toInv) ?_
  rintro ⟨⟩ new₇ w₇ hw₇ hp₇ hhealthy
  cases mhz with
  | none =>
      rw [Call.wp_throw]
      exact hw₇.toInv
  | some mhz =>
      refine wp_ite (fun _ => Call.wp_throw _ |>.mpr hw₇.toInv) fun hmhz => ?_
      refine (yields_bootRead "tryboot.txt").then hw₇ (fun _ _ _ hw' _ => hw'.toInv) ?_
      intro tryboot new₈ w₈ hw₈ hp₈ _
      refine check_then _ hw₈.toInv fun _ => ?_
      refine (yields_bootRead baselineName).then hw₈ (fun _ _ _ hw' _ => hw'.toInv) ?_
      intro existing new₉ w₉ hw₉ hp₉ _
      refine check_then _ hw₉.toInv fun _ => ?_
      rw [Call.wp_pure]
      have hp₄' := (hp₁.trans hp₂).trans (hp₃.trans hp₄)
      have hp₉' := hp₆.trans (hp₇.trans (hp₈.trans hp₉))
      have hs : Stays w w₉ := hp₄'.stays.trans <|
        (hnotes₅.stays rfl (by simp)).trans hp₉'.stays
      have hs₂ : ∀ e ∈ new₂, e ∈ inCall w₉.log := fun e he =>
        hp₉'.later.subset <| (hnotes₅.later rfl).subset <| (hp₃.trans hp₄).later.subset <|
          hp₂.later.new_subset he
      obtain ⟨hlow, hhigh⟩ := not_not.mp hmhz
      refine ⟨hw₉, hs, ?_⟩
      constructor
      · simpa using htryboot
      · exact not_not.mp hstock
      · rw [hs.recordOf]
        exact not_not.mp hsettled
      · exact hconfig.mono hs₂
      · have hok := not_not.mp hready
        rw [ready, Option.any_eq_true] at hok
        obtain ⟨v, -, hv⟩ := hok
        simp only [Bool.and_eq_true, decide_eq_true_eq] at hv
        exact hv.1.2
      · exact hhealthy.mono fun e he => (hp₈.trans hp₉).later.subset (hp₇.later.new_subset he)
      · exact hlow
      · have hprevious := previousMhz_le hw.log (Sha256.hexdigest baseline) f.platformId
        obtain ⟨more, hmore, hkeeps, -⟩ := hs
        rw [hmore.log, lastConfirmed_append hkeeps]
        change mhz ≤ min maxMhz
          ((lastConfirmed (Sha256.hexdigest baseline) f.platformId w.log).getD stockMhz + 50)
        omega

theorem trialSuffix_ascii (mhz : Int) : ∀ c ∈ trialSuffix mhz, c.toNat < 128 := by
  have hall : ("\n# PanelBridge trial; normal config is unchanged\n[all]\narm_freq=".toList.all
      fun c => c.toNat < 128) = true := by decide
  refine Json.ascii_append (Json.ascii_append ?_ (Json.dumpsInt_ascii mhz)) (by simp)
  intro c hc
  exact decide_eq_true_eq.mp (List.all_eq_true.mp hall c hc)

/-- The text of a configuration is read back from it, and its candidate is text too. -/
theorem stagedTrial_valid {id : String} {mhz : Int} {baseline : Bytes} {text : List Char}
    (hstage : Stageable f mhz baseline text w) (hid : token id = true)
    (hboot : token f.bootId = true) : (stagedTrial id f mhz baseline text).valid = true := by
  have hraw : encode (String.ofList text) = some baseline := by
    rw [encode, String.toList_ofList, Json.asciiBytes_asciiText hstage.config.ascii]
  have hascii : ∀ c ∈ (candidateOf (String.ofList text) mhz).toList, c.toNat < 128 := by
    have htext : ∀ c ∈ text, c.toNat < 128 := by
      have hbytes := Json.asciiBytes_asciiText hstage.config.ascii
      rw [Json.asciiBytes] at hbytes
      split at hbytes
      · next hall => simpa using hall
      · cases hbytes
    rw [candidateOf, String.toList_ofList, String.toList_ofList]
    exact Json.ascii_append htext (trialSuffix_ascii mhz)
  obtain ⟨candidate, hcandidate, -, -⟩ := Json.asciiText_asciiBytes hascii
  have hencode : encode (candidateOf (String.ofList text) mhz) = some candidate := hcandidate
  have htexts : (stagedTrial id f mhz baseline text).texts = true := by
    simp only [Trial.texts, stagedTrial, hraw, hencode, Option.getD_some, Bool.and_eq_true]
    exact ⟨⟨⟨decide_eq_true hstage.config.size, decide_eq_true trivial⟩, decide_eq_true trivial⟩,
      decide_eq_true trivial⟩
  have hhigh : mhz ≤ maxMhz := hstage.high.trans (min_le_left _ _)
  simp only [Trial.valid, htexts]
  simp [stagedTrial, hid, hboot, hstage.low, hhigh, hstage.platform]

theorem requestTrial_wp {baseline : Bytes} {existing : Option Bytes} (hw : Working enc op w)
    (hunlooked : lastVerified (inCall w.log) = none) (ht : (recordOf w.log).trial = some t)
    (hstaging : t.state = .staging) (hr : SameBut r w) :
    (requestTrial enc r f t baseline existing).wp (Inv enc)
      (fun a w' => Inv enc w' ∧ Ended a w') (fun _ w' => Inv enc w') w := by
  have hrest : ∀ v new, Working enc op v → Passes w new v → Call.wp (Inv enc) (do
      bootWrite "tryboot.txt" ((encode t.candidate).getD []) none
      let normal ← bootRead "config.txt"
      if normal ≠ some baseline then
        throw (.helper "Conflict" "Normal configuration changed during trial staging; reboot cancelled")
      health 0
      let again ← observe
      if again ≠ f then
        throw (.helper "Conflict" "Boot facts changed during trial staging; reboot cancelled")
      let now ← clock
      let requested := { t with state := .requested, requestedS := some now }
      save enc (r.withTrial requested)
      reboot true
      pure (result (r.withTrial requested)) : HelperCall TrialResult)
        (fun a w' => Inv enc w' ∧ Ended a w') (fun _ w' => Inv enc w') v := by
    intro v new hv hp
    refine (yields_bootWrite (by decide)).then hv (fun _ _ _ hw' _ => hw'.toInv) ?_
    intro _ new₁ w₁ hw₁ hp₁ _
    refine (yields_bootRead "config.txt").then hw₁ (fun _ _ _ hw' _ => hw'.toInv) ?_
    intro normal new₂ w₂ hw₂ hp₂ _
    refine check_then _ hw₂.toInv fun _ => ?_
    refine (yields_health 0).then hw₂ (fun _ _ _ hw' _ => hw'.toInv) ?_
    intro _ new₃ w₃ hw₃ hp₃ _
    refine observe_then hw₃ (fun _ _ hw' _ => hw'.toInv) ?_
    intro again new₄ w₄ hw₄ hnotes₄ _ _
    refine check_then _ hw₄.toInv fun _ => ?_
    refine yields_clock.then hw₄ (fun _ _ _ hw' _ => hw'.toInv) ?_
    intro now new₅ w₅ hw₅ hp₅ hnow
    have hs : Stays w w₅ := (hp.trans (hp₁.trans (hp₂.trans hp₃))).stays.trans <|
      (hnotes₄.stays rfl (by simp)).trans hp₅.stays
    have ht₅ : (recordOf w₅.log).trial = some t := by rw [hs.recordOf, ht]
    have hr₅ : SameBut r w₅ := ⟨by rw [hs.recordOf, hr.cpu], by rw [hs.recordOf, hr.profile]⟩
    have hvalid : ({ t with state := .requested, requestedS := some now } : Trial).valid = true := by
      have hold := hw₅.log.trial_valid ht₅
      simp only [Trial.valid, Bool.and_eq_true] at hold ⊢
      exact ⟨⟨hold.1.1, by simp [hnow.2]⟩, rfl⟩
    have hstep : SaveStep w₅.log
        (r.withTrial { t with state := .requested, requestedS := some now }) :=
      { valid := Record.withTrial_valid hw₅.toInv hr₅ hvalid
        trial := .requested t now ht₅ hstaging hr₅.profile rfl
        cpu := .unchanged hr₅.cpu }
    refine save_then hw₅ hstep (fun _ _ hw' => hw'.toInv) ?_
    intro new₆ w₆ hw₆ hsaved
    refine trialReboot_then hw₆ (fun _ _ hw' => hw'.toInv) ?_
    intro new₇ w₇ hw₇ hnotes₇
    rw [Call.wp_pure]
    refine ⟨hw₇.toInv, ?_, fun hfalse => ?_⟩
    · rw [hnotes₇.recordOf rfl, hsaved.recordOf_saved]
    · rw [(hnotes₇.stays rfl (by simp)).unverified.last, hsaved.unverified.last,
        hs.unverified.last, hunlooked] at hfalse
      cases hfalse
  rw [requestTrial]
  refine wp_ite (fun _ => ?_) fun _ => ?_
  · refine (yields_bootWrite (by decide)).then hw (fun _ _ _ hw' _ => hw'.toInv) ?_
    intro _ new₁ w₁ hw₁ hp₁ _
    exact hrest w₁ new₁ hw₁ hp₁
  · exact hrest w [] hw (.refl w)

theorem startTrial_wp {mhz : Option Int} (hw : Working enc op w) (hcall : Quiet (inCall w.log)) :
    (startTrial enc mhz).wp (Inv enc) (fun a w' => Inv enc w' ∧ Ended a w')
      (fun _ w' => Inv enc w') w := by
  rw [startTrial]
  refine observe_then hw (fun _ _ hw' _ => hw'.toInv) ?_
  intro f new₁ w₁ hw₁ hnotes₁ hrunning htoken
  have hseen₁ := hnotes₁.seen hcall hrunning
  refine (yields_load hw₁.toInv).then hw₁ (fun _ _ _ hw' _ => hw'.toInv) ?_
  rintro r new₂ w₂ hw₂ hp₂ rfl
  rw [Call.wp_bind, ← hp₂.recordOf]
  refine (trialReady_wp hw₂).mono ?_ fun _ _ => id
  rintro ⟨mhz, baseline, text, existing⟩ w₃ ⟨hw₃, hs₃, hstage⟩
  refine yields_newId.then hw₃ (fun _ _ _ hw' _ => hw'.toInv) ?_
  intro id new₄ w₄ hw₄ hp₄ hid
  have hs₄ : Stays w₂ w₄ := hs₃.trans hp₄.stays
  have hseen₄ : Seen f w₄ := hseen₁.stays (hp₂.stays.trans hs₄)
  have hlast₄ : lastVerified (inCall w₄.log) = none := by
    rw [(hp₂.stays.trans hs₄).unverified.last, hnotes₁.last_facts, lastVerified_quiet hcall]
  have hsub := hp₄.later.subset
  have hr₄ : SameBut (recordOf w₂.log) w₄ := ⟨by rw [hs₄.recordOf], by rw [hs₄.recordOf]⟩
  have hconfig := hstage.config.mono hsub
  have hverified : Verified f (stagedTrial id f mhz baseline text) (inCall w₄.log) :=
    { platform := rfl
      layout := hconfig.layout
      assets := hconfig.assets
      config := ⟨baseline, text, hconfig.read, by
        rw [stagedTrial, encode, String.toList_ofList, Json.asciiBytes_asciiText hconfig.ascii],
        hconfig.ascii, hconfig.supported⟩ }
  have hstep : SaveStep w₄.log
      ((recordOf w₂.log).withTrial (stagedTrial id f mhz baseline text)) :=
    { valid := Record.withTrial_valid hw₄.toInv hr₄ (stagedTrial_valid hstage hid htoken)
      trial := .staged f _ rfl hr₄.profile rfl rfl (by rw [hp₄.recordOf, hstage.settled])
        (hseen₄.observed hw₄.toInv) hstage.tryboot hstage.stock rfl hverified
        (hstage.healthy.mono hsub) hstage.low (by
          rw [hp₄.log, lastConfirmed_append hp₄.quiet.keeps]
          exact hstage.high)
      cpu := .unchanged hr₄.cpu }
  refine save_then hw₄ hstep (fun _ _ hw' => hw'.toInv) ?_
  intro new₅ w₅ hw₅ hsaved
  refine requestTrial_wp hw₅ ?_ ?_ rfl ?_
  · rw [hsaved.unverified.last, hlast₄]
  · rw [hsaved.recordOf_saved]
    rfl
  · constructor
    · rw [hsaved.recordOf_saved]
      rfl
    · rw [hsaved.recordOf_saved]
      rfl

end Stage

section Calls

/-- What a call that returns has done. -/
def Concluded : Answer → World → Prop
  | .trial result, w => Ended result w
  | _, w => lastVerified (inCall w.log) = none

theorem Working.began (hw : Inv enc w) (op : Operation) : Working enc op (w.note (.began op)) where
  log := hw.log.began op
  journal := hw.journal
  boot := hw.boot
  policy := hw.policy
  running := rfl
  waiting := List.not_mem_nil

/-- The body of a call runs with nothing seen yet. -/
theorem transaction_wp {α : Type} {body : HelperCall α} {post : α → World → Prop} (hw : Inv enc w)
    (hbody : ∀ v, Working enc op v → Quiet (inCall v.log) →
      startPolicy v.log = startPolicy w.log → body.wp (Inv enc) post (fun _ w' => Inv enc w') v) :
    (transaction op body).wp (Inv enc) post (fun _ w' => Inv enc w') w := by
  have hbegan := Working.began hw op
  rw [transaction, Call.wp_bind, note, Call.wp_update]
  refine ⟨hbegan.toInv, ?_⟩
  rw [Call.wp_tryCatch]
  have hinner : (do
      openDirectories
      body).wp (Inv enc) post (fun _ w' => Inv enc w') (w.note (.began op)) := by
    refine yields_openDirectories.then hbegan (fun _ _ _ hw' _ => hw'.toInv) ?_
    intro _ new v hv hp _
    refine hbody v hv ?_ hp.stays.startPolicy
    exact hp.quietCall (List.forall_mem_nil _)
  refine hinner.mono (fun _ _ => id) ?_
  intro e v hv
  cases e <;> simpa only [Call.wp_throw] using hv

theorem Operation.body_wp (hw : Working enc op w) (hcall : Quiet (inCall w.log)) :
    (op.body enc).wp (Inv enc) (fun a w' => Inv enc w' ∧ Concluded a w')
      (fun _ w' => Inv enc w') w := by
  have hnone := lastVerified_quiet hcall
  cases op with
  | setCpu governor capMhz =>
      rw [Operation.body, Call.wp_bind]
      refine (setCpu_wp hw fun _ _ hw' => hw'.toInv).mono ?_ fun _ _ => id
      rintro target w₁ ⟨hw₁, hstays⟩
      rw [Call.wp_pure]
      exact ⟨hw₁.toInv, hstays.last.trans hnone⟩
  | restoreCpu =>
      rw [Operation.body, Call.wp_bind]
      refine (restoreCpu_wp hw fun _ _ hw' => hw'.toInv).mono ?_ fun _ _ => id
      rintro ⟨⟩ w₁ ⟨hw₁, r, hdone⟩
      rw [Call.wp_pure]
      exact ⟨hw₁.toInv, hdone.later.last.trans hnone⟩
  | startTrial mhz =>
      rw [Operation.body, Call.wp_bind]
      refine (startTrial_wp hw hcall).mono ?_ fun _ _ => id
      intro r w₁ hended
      rwa [Call.wp_pure]
  | rollback =>
      rw [Operation.body, Call.wp_bind, Advanced.rollback]
      refine (retreat_wp hw hcall).mono ?_ fun _ _ => id
      intro r w₁ hended
      rwa [Call.wp_pure]
  | guardian =>
      rw [Operation.body, Call.wp_bind]
      refine (guardian_wp hw hcall).mono ?_ fun _ _ => id
      intro r w₁ hended
      rwa [Call.wp_pure]
  | confirmTrial trialId visible =>
      rw [Operation.body, Call.wp_bind]
      refine (confirmTrial_wp hw hcall).mono ?_ fun _ _ => id
      intro r w₁ hended
      rwa [Call.wp_pure]
  | setSafeMode =>
      rw [Operation.body, Call.wp_bind]
      refine (setSafeMode_wp hw hcall).mono ?_ fun _ _ => id
      intro r w₁ hended
      rwa [Call.wp_pure]
  | uninstallReady =>
      rw [Operation.body, Call.wp_bind, Advanced.uninstallReady]
      refine (yields_load hw.toInv).then hw (fun _ _ _ hw' _ => hw'.toInv) ?_
      rintro r new₁ w₁ hw₁ hp₁ rfl
      refine observe_then hw₁ (fun _ _ hw' _ => hw'.toInv) ?_
      intro f new₂ w₂ hw₂ hnotes₂ _ _
      refine (yields_health 0).then hw₂ (fun _ _ _ hw' _ => hw'.toInv) ?_
      rintro ⟨⟩ new₃ w₃ hw₃ hp₃ _
      rw [Call.wp_pure, Call.wp_pure]
      refine ⟨hw₃.toInv, ?_⟩
      change lastVerified (inCall w₃.log) = none
      rw [hp₃.stays.unverified.last, hnotes₂.last_facts, hp₁.stays.unverified.last, hnone]

theorem Operation.call_wp (op : Operation) (hw : Inv enc w) :
    (op.call enc).wp (Inv enc) (fun a w' => Inv enc w' ∧ Concluded a w')
      (fun _ w' => Inv enc w') w :=
  transaction_wp hw fun _ hv hcall _ => Operation.body_wp hv hcall

theorem Inv.bootInto (hw : Inv enc w) {id : String} {policy : CpuValues}
    (hfresh : w.log.any (usedBoot id) = false) : Inv enc (w.bootInto id policy) where
  log := by
    refine hw.log.booted fun hmem => ?_
    have hused : w.log.any (usedBoot id) = true := List.any_eq_true.mpr ⟨_, hmem, by simp [usedBoot]⟩
    rw [hfresh] at hused
    cases hused
  journal := hw.journal
  boot := rfl
  policy v hv := by cases hv

theorem Inv.initial (hw : Initial w) : Inv enc w where
  log := by
    rw [hw.log]
    exact .start_only _
  journal := by
    rw [Journaled, hw.journal, hw.log]
    rfl
  boot := by
    rw [hw.log]
    rfl
  policy v hv := by
    rw [hw.log] at hv
    cases hv

/-- The invariant holds in every state of every run. -/
theorem Inv.reached (hw : Initial w) (run : (advancedSystem enc).Reaches System.Any w w') :
    Inv enc w' := by
  refine System.Reaches.invariant ?_ run (.initial hw)
  intro s a t hs _ hstep
  cases a with
  | call op updates =>
      obtain rfl := Option.some.inj hstep
      exact (op.call_wp hs).upTo hs updates
  | boot id policy =>
      simp only [advancedSystem] at hstep
      split at hstep
      · cases hstep
      · next hfresh =>
        obtain rfl := Option.some.inj hstep
        exact hs.bootInto (by simpa using hfresh)

end Calls

end HccastWired.Advanced
