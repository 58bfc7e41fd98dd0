import HccastWired.Advanced.Steps

/-!
# Steps that leave a mark in the log

An observation, a save, a write of the policy and a normal reboot, each with the
condition under which the log permits it and with what it adds to the log.
-/

namespace HccastWired.Advanced

open Foundation

variable {enc : Encoding} {α β : Type} {w w' : World} {new more log : List Event} {e : Event}
  {op : Operation} {r : Record} {c : Cpu} {f : BootFacts} {t : Trial}

section Quiet

theorem lastSnapshot_append (h : Quiet new) : lastSnapshot (new ++ log) = lastSnapshot log := by
  induction new with
  | nil => rfl
  | cons e new ih =>
      obtain ⟨he, hnew⟩ := List.forall_mem_cons.mp h
      rw [← ih hnew]
      cases e <;> first | rfl | cases he

theorem sinceSnapshot_append (h : Quiet new) :
    sinceSnapshot (new ++ log) = new ++ sinceSnapshot log := by
  induction new with
  | nil => rfl
  | cons e new ih =>
      obtain ⟨he, hnew⟩ := List.forall_mem_cons.mp h
      rw [List.cons_append, List.cons_append, ← ih hnew]
      cases e <;> first | rfl | cases he

theorem lastVerified_append (h : ∀ ok, .verified ok ∉ new) :
    lastVerified (new ++ log) = lastVerified log := by
  induction new with
  | nil => rfl
  | cons e new ih =>
      have hrest : ∀ ok, .verified ok ∉ new := fun ok hok => h ok (List.mem_cons_of_mem _ hok)
      rw [← ih hrest]
      cases e with
      | verified ok => exact absurd List.mem_cons_self (h ok)
      | _ => rfl

theorem Quiet.unverified (h : Quiet new) (ok : Bool) : .verified ok ∉ new := by
  intro hmem
  cases h _ hmem

theorem firstFacts_quiet (h : Quiet new) : firstFacts new = none := by
  have hnone : new.filterMap factsOf = [] := by
    rw [List.filterMap_eq_nil_iff]
    intro e he
    have hq := h e he
    cases e <;> first | rfl | cases hq
  rw [firstFacts, hnone, List.getLast?_nil]

theorem firstFacts_append {call : List Event} (h : firstFacts call = some f) :
    firstFacts (more ++ call) = some f := by
  rw [firstFacts, List.filterMap_append, List.getLast?_append]
  simp only [firstFacts] at h
  rw [h]
  rfl

theorem knownPolicy_append (h : Quiet new) (hcalm : .disturbed ∉ new) :
    knownPolicy (new ++ log) = knownPolicy log := by
  induction new with
  | nil => rfl
  | cons e new ih =>
      obtain ⟨he, hnew⟩ := List.forall_mem_cons.mp h
      obtain ⟨hne, hrest⟩ := List.ne_and_not_mem_of_not_mem_cons hcalm
      exact (knownPolicy_cons he hne.symm).trans (ih hnew hrest)

theorem Observed.quiet (h : Observed f log) (hnew : Quiet new) : Observed f (new ++ log) where
  seen := by
    rw [inCall_append hnew.keeps]
    exact List.mem_append_right _ h.seen
  running := by rw [currentBoot_append hnew.keeps, h.running]

theorem TrialStep.quiet (h : TrialStep log r) (hnew : Quiet new) : TrialStep (new ++ log) r := by
  have hrecord : recordOf (new ++ log) = recordOf log := recordOf_append hnew.keeps
  have hcall : inCall log ⊆ inCall (new ++ log) := by
    rw [inCall_append hnew.keeps]
    exact List.subset_append_right _ _
  cases h with
  | unchanged htrial hprofile =>
      exact .unchanged (hrecord ▸ htrial) (hrecord ▸ hprofile)
  | staged f t htrial hprofile hstate hunstarted hsettled hfacts htryboot hstock horigin hverified
      hhealthy hlow hhigh =>
      refine .staged f t htrial (hrecord ▸ hprofile) hstate hunstarted (hrecord ▸ hsettled)
        (hfacts.quiet hnew) htryboot hstock horigin (hverified.mono hcall) (hhealthy.mono hcall)
        hlow ?_
      rwa [lastConfirmed_append hnew.keeps]
  | requested t now hold hstate hprofile htrial =>
      exact .requested t now (hrecord ▸ hold) hstate (hrecord ▸ hprofile) htrial
  | activated f t now hold hstate hprofile htrial hfacts htryboot horigin hmhz hverified hcandidate
      hhealthy =>
      exact .activated f t now (hrecord ▸ hold) hstate (hrecord ▸ hprofile) htrial
        (hfacts.quiet hnew) htryboot horigin hmhz (hverified.mono hcall) (hcandidate.mono hcall)
        (hhealthy.mono hcall)
  | confirmed f t now deadline hold hstate htrial hfacts htryboot hboot hclock hdeadline hbefore
      hvisible hmhz hverified hcandidate hhealthy =>
      refine .confirmed f t now deadline (hrecord ▸ hold) hstate (hrecord ▸ htrial)
        (hfacts.quiet hnew) htryboot hboot (hcall hclock) hdeadline hbefore ?_ hmhz
        (hverified.mono hcall) (hcandidate.mono hcall) (hhealthy.mono hcall)
      rw [operation_append hnew.keeps, hvisible]
  | retreated old t hold htrial hprofile hsame hstate hmark =>
      refine .retreated old t (hrecord ▸ hold) htrial (hrecord ▸ hprofile) hsame hstate ?_
      rw [currentBoot_append hnew.keeps, hmark]
  | manual old t hold htrial hprofile hsame hstate hmark =>
      refine .manual old t (hrecord ▸ hold) htrial (hrecord ▸ hprofile) hsame hstate ?_
      refine hmark.imp_right fun hnone => ?_
      rw [sinceStaged_append hnew.keeps]
      intro hmem
      obtain hmem | hmem := List.mem_append.mp hmem
      · cases hnew _ hmem
      · exact hnone hmem
  | restored f old t hold htrial hprofile hsame hstate hmark hfacts htryboot hstock hverified
      hhealthy hboot =>
      exact .restored f old t (hrecord ▸ hold) htrial (hrecord ▸ hprofile) hsame hstate hmark
        (hfacts.quiet hnew) htryboot hstock (hverified.mono hcall) (hhealthy.mono hcall) hboot

theorem CpuStep.quiet (h : CpuStep log r) (hnew : Quiet new) : CpuStep (new ++ log) r := by
  have hrecord : recordOf (new ++ log) = recordOf log := recordOf_append hnew.keeps
  have hboot' : currentBoot (new ++ log) = currentBoot log := currentBoot_append hnew.keeps
  have hstart' : startPolicy (new ++ log) = startPolicy log := startPolicy_append hnew.keeps
  have hsnapshot : lastSnapshot (inCall (new ++ log)) = lastSnapshot (inCall log) := by
    rw [inCall_append hnew.keeps, lastSnapshot_append hnew]
  cases h with
  | unchanged hcpu => exact .unchanged (hrecord ▸ hcpu)
  | applying c hcpu hstate hboot hbefore hbaseline =>
      refine .applying c hcpu hstate (hboot'.trans hboot) (hsnapshot.trans hbefore) ?_
      rw [hstart', hbaseline]
  | applied c hold hstate hboot hcpu =>
      exact .applied c (hrecord ▸ hold) hstate (hboot'.trans hboot) hcpu
  | restored c hold hstate hcpu hbaseline =>
      refine .restored c (hrecord ▸ hold) hstate hcpu ?_
      obtain hother | hback := hbaseline
      · exact .inl (hboot' ▸ hother)
      · refine .inr ⟨hstart'.trans hback.start, hsnapshot.trans hback.snapshot, ?_⟩
        intro field values current hmem
        rw [sinceSnapshot_append hnew] at hmem
        obtain hmem | hmem := List.mem_append.mp hmem
        · cases hnew _ hmem
        · exact hback.unwritten field values current hmem

theorem SaveStep.quiet (h : SaveStep log r) (hnew : Quiet new) : SaveStep (new ++ log) r :=
  ⟨h.valid, h.trial.quiet hnew, h.cpu.quiet hnew⟩

theorem RebootStep.quiet (h : RebootStep log f t) (hnew : Quiet new) :
    RebootStep (new ++ log) f t where
  recorded := by rw [recordOf_append hnew.keeps, h.recorded]
  state := h.state
  boot := by rw [currentBoot_append hnew.keeps, h.boot]
  marked := h.marked
  first := by
    rw [inCall_append hnew.keeps]
    exact firstFacts_append h.first
  again := by
    rw [sinceSave_append hnew.keeps]
    exact List.mem_append_right _ h.again
  verified := by
    rw [sinceSave_append hnew.keeps]
    exact h.verified.mono (List.subset_append_right _ _)
  last := by rw [inCall_append hnew.keeps, lastVerified_append hnew.unverified, h.last]
  once := by
    rw [sinceStaged_append hnew.keeps]
    intro hmem
    obtain hmem | hmem := List.mem_append.mp hmem
    · cases hnew _ hmem
    · exact h.once hmem

end Quiet

section Notes

/-- One event has been added, after quiet ones. -/
structure Notes (w : World) (e : Event) (new : List Event) (w' : World) : Prop where
  log : w'.log = e :: (new ++ w.log)
  quiet : Quiet new
  boot : w'.bootId = w.bootId

theorem Notes.recordOf (h : Notes w e new w') (he : e.keeps = true) :
    recordOf w'.log = Advanced.recordOf w.log := by
  have hkeeps : Keeps (e :: new) := List.forall_mem_cons.mpr ⟨he, h.quiet.keeps⟩
  rw [h.log, ← List.cons_append, recordOf_append hkeeps]

theorem Notes.later (h : Notes w e new w') (he : e.keeps = true) : Later w (e :: new) w' :=
  .of_keeps h.log h.boot (List.forall_mem_cons.mpr ⟨he, h.quiet.keeps⟩)

theorem Notes.later_saved (h : Notes w (.saved r) new w') : Later w (.saved r :: new) w' where
  log := h.log
  call := by
    rw [h.log, inCall, inCall_append h.quiet.keeps]
    · rfl
    · exact nofun
  boot := h.boot

/-- A permitted event that is no normal reboot keeps the call working. -/
theorem Working.notes (hw : Working enc op w) (hlog : w'.log = e :: w.log)
    (hboot : w'.bootId = w.bootId) (hjournal : w'.journal = w.journal) (he : e.keeps = true)
    (hne : e ≠ .reboot false) (hpermitted : Permitted w.log e) (hpolicy : Tracked w') :
    Working enc op w' := by
  have hkeeps : Keeps [e] := List.forall_mem_singleton.mpr he
  have hsame : w'.log = [e] ++ w.log := hlog
  refine ⟨⟨?_, ?_, ?_, hpolicy⟩, ?_, ?_⟩
  · rw [hlog]
    exact hw.log.cons hpermitted
  · have hj := hw.journal
    rwa [Journaled, ← hjournal, ← recordOf_append hkeeps, ← hsame] at hj
  · rw [hsame, currentBoot_append hkeeps, hw.boot, hboot]
  · rw [hsame, operation_append hkeeps, hw.running]
  · rw [hsame, inCall_append hkeeps]
    intro hmem
    obtain hmem | hmem := List.mem_cons.mp hmem
    · exact hne hmem.symm
    · exact hw.waiting hmem

variable {post : β → World → Prop} {fail : AdvancedError → World → Prop}

/-- An answer that is noted as an event that is not quiet. -/
theorem ask_then {answer : Move → World → Except AdvancedError α} {event : α → Event}
    {k : α → HelperCall β} (hw : Working enc op w)
    (hkeeps : ∀ a, (event a).keeps = true) (hne : ∀ a, event a ≠ .reboot false)
    (hpermitted : ∀ a log, Permitted log (event a))
    (hpolicy : ∀ a v, answer w.move w.passed = .ok a → Tracked v → v = w.passed →
      Tracked (v.note (event a)))
    (hfail : ∀ e w', Working enc op w' → Passes w (disturbance w) w' → fail e w')
    (hok : ∀ a new w', answer w.move w.passed = .ok a → Working enc op w' →
      Notes w (event a) new w' → (k a).wp (Inv enc) post fail w') :
    (ask answer (fun a => some (event a)) >>= k).wp (Inv enc) post fail w := by
  have hp := passes_passed w
  have hpassed := hw.passes hp
  rw [Call.wp_bind]
  simp only [Call.wp, Call.final, ask]
  cases ha : answer w.move w.passed with
  | error e =>
      simp only [List.mem_singleton, forall_eq, List.getLastD_cons, List.getLastD_nil]
      exact ⟨hpassed.toInv, hfail e _ hpassed hp⟩
  | ok a =>
      simp only [List.mem_singleton, forall_eq, List.getLastD_cons, List.getLastD_nil,
        Option.elim_some]
      have hnoted : Working enc op (w.passed.note (event a)) :=
        hpassed.notes rfl rfl rfl (hkeeps a) (hne a) (hpermitted a _)
          (hpolicy a _ ha hpassed.policy rfl)
      have hnotes : Notes w (event a) (disturbance w) (w.passed.note (event a)) :=
        ⟨by rw [World.note, hp.log], hp.quiet, rfl⟩
      exact ⟨hnoted.toInv, hok a _ _ ha hnoted hnotes⟩

theorem observe_then {k : BootFacts → HelperCall β} (hw : Working enc op w)
    (hfail : ∀ e w', Working enc op w' → Passes w (disturbance w) w' → fail e w')
    (hok : ∀ f new w', Working enc op w' → Notes w (.facts f) new w' → f.bootId = w'.bootId →
      token f.bootId = true → (k f).wp (Inv enc) post fail w') :
    (observe >>= k).wp (Inv enc) post fail w := by
  refine ask_then hw (fun _ => rfl) (by simp) (fun _ _ => trivial) ?_ hfail ?_
  · intro f v _ hv _
    exact hv
  · intro f new w' ha hw' hnotes
    have hfacts : f.bootId = w.bootId ∧ f.supported = true := by
      simp only [Move.answer] at ha
      split at ha
      · cases ha
      · split at ha
        · cases ha
        · split at ha
          · next hsupported =>
            obtain rfl := Except.ok.inj ha
            exact ⟨rfl, hsupported⟩
          · cases ha
    refine hok f new w' hw' hnotes (hfacts.1.trans hnotes.boot.symm) ?_
    have hsupported := hfacts.2
    simp only [BootFacts.supported, Bool.and_eq_true] at hsupported
    exact hsupported.1

theorem snapshot_then {k : CpuSnapshot → HelperCall β} (hw : Working enc op w)
    (hfail : ∀ e w', Working enc op w' → Passes w (disturbance w) w' → fail e w')
    (hok : ∀ s new w', Working enc op w' → Notes w (.snapshot s.values) new w' →
      (k s).wp (Inv enc) post fail w') :
    (cpuSnapshot >>= k).wp (Inv enc) post fail w := by
  refine ask_then hw (fun _ => rfl) (by simp) (fun _ _ => trivial) ?_ hfail ?_
  · rintro s v ha _ rfl u hu
    obtain rfl := Option.some.inj hu
    simp only [Move.answer] at ha
    split at ha
    · cases ha
    · split at ha
      · cases ha
      · obtain rfl := Except.ok.inj ha
        rfl
  · intro s new w' _ hw' hnotes
    exact hok s new w' hw' hnotes

theorem wp_raise {k : α → HelperCall β} {crash : World → Prop} (e : AdvancedError)
    (h : fail e w) : ((throw e : HelperCall α) >>= k).wp crash post fail w := by
  rw [Call.wp_bind, Call.wp_throw]
  exact h

theorem wp_ite {cond : Prop} [Decidable cond] {x y : HelperCall β} {crash : World → Prop}
    (hx : cond → x.wp crash post fail w) (hy : ¬ cond → y.wp crash post fail w) :
    (if cond then x else y).wp crash post fail w := by
  split
  · next hcond => exact hx hcond
  · next hcond => exact hy hcond

/-- A check that refuses to go on. -/
theorem check_then {k : Unit → HelperCall β} {cond : Prop} [Decidable cond] {crash : World → Prop}
    (e : AdvancedError) (h : fail e w) (hok : ¬ cond → (k ()).wp crash post fail w) :
    (if cond then (throw e : HelperCall Unit) >>= k else k ()).wp crash post fail w := by
  split
  · exact wp_raise e h
  · next hcond => exact hok hcond

theorem verified_then {k : Bool → HelperCall β} {ok : Bool} (hw : Working enc op w)
    (hk : Working enc op (w.note (.verified ok)) → (k ok).wp (Inv enc) post fail
      (w.note (.verified ok))) :
    ((note (.verified ok) >>= fun _ => pure ok) >>= k).wp (Inv enc) post fail w := by
  have hnoted : Working enc op (w.note (.verified ok)) :=
    hw.notes rfl rfl rfl rfl (by simp) hw.waiting hw.policy
  simp only [Call.wp_bind, Call.wp_pure, note, Call.wp_update]
  exact ⟨hnoted.toInv, hk hnoted⟩

/-- The normal configuration is looked at again, and what was found is noted. -/
theorem baseline_then {k : Bool → HelperCall β} (hw : Working enc op w)
    (hfail : ∀ e new w', Working enc op w' → Passes w new w' → fail e w')
    (hok : ∀ ok new w', Working enc op w' → Notes w (.verified ok) new w' →
      (ok = true → Verified f t new) → (k ok).wp (Inv enc) post fail w') :
    (normalBaselineVerified f t >>= k).wp (Inv enc) post fail w := by
  rw [normalBaselineVerified]
  split
  · refine verified_then hw fun hnoted => ?_
    exact hok false [] _ hnoted ⟨rfl, List.forall_mem_nil _, rfl⟩ (fun h => by cases h)
  · next hplatform =>
    have hread : Yields (orElse (config f >>= fun content =>
        pure (decide (some content.1 = encode t.baseline))) false) w
        fun ok new => ok = true → Verified f t new := by
      refine Yields.orElse ?_ fun _ h => by cases h
      refine yields_config.bind fun content new v hv hread => .pure fun hsame => ?_
      exact
        { platform := not_not.mp hplatform
          layout := hread.layout
          assets := hread.assets
          config := ⟨content.1, content.2, hread.read, (decide_eq_true_eq.mp hsame).symm,
            hread.ascii, hread.supported⟩ }
    rw [Call.wp_bind]
    refine hread.then hw hfail fun ok new v hv hp hok' => ?_
    rw [← Call.wp_bind]
    refine verified_then hv fun hnoted => ?_
    refine hok ok new _ hnoted ⟨?_, hp.quiet, hp.boot⟩ hok'
    rw [World.note, hp.log]

/-- A change goes through, fails, or fails after it has gone through. -/
theorem wp_act {effect : World → World} {crash : World → Prop} {post : Unit → World → Prop}
    (hpassed : crash w.passed) (hcrash : crash (effect w.passed)) (hpost : post () (effect w.passed))
    (hfail : ∀ e, fail e (effect w.passed) ∧ fail e w.passed) :
    (act effect).wp crash post fail w := by
  simp only [Call.wp, Call.final, act]
  cases w.move.fault with
  | none =>
      simp only [List.mem_singleton, forall_eq, List.getLastD_cons, List.getLastD_nil]
      exact ⟨hcrash, hpost⟩
  | some e =>
      simp only [List.mem_singleton, forall_eq, List.getLastD_cons, List.getLastD_nil]
      split
      · exact ⟨hcrash, (hfail e).1⟩
      · exact ⟨hpassed, (hfail e).2⟩

theorem Working.saved {raw : Bytes} (hw : Working enc op w) (hstep : SaveStep w.log r)
    (hdumps : enc.dumps r.toDict = some raw) (hsize : raw.length ≤ maxFileBytes) :
    Working enc op { w.note (.saved r) with journal := some raw } where
  log := hw.log.saved hstep
  journal := ⟨hdumps, hsize⟩
  boot := hw.boot
  policy := hw.policy
  running := hw.running
  waiting := by
    intro hmem
    obtain hmem | hmem := List.mem_cons.mp hmem
    · cases hmem
    · exact hw.waiting hmem

theorem stateWrite_wp {raw : Bytes} {post : Unit → World → Prop} (hw : Working enc op w)
    (hstep : SaveStep w.log r) (hdumps : enc.dumps r.toDict = some raw)
    (hsize : raw.length ≤ maxFileBytes) (hfail : ∀ e w', Working enc op w' → fail e w')
    (hok : ∀ new w', Working enc op w' → Notes w (.saved r) new w' → post () w') :
    (stateWrite raw r).wp (Inv enc) post fail w := by
  rw [stateWrite, Call.wp_bind, Call.wp_get]
  refine yields_stateRead.then hw (fun e _ w' hw' _ => hfail e w' hw') ?_
  intro current new v hv hp _
  refine check_then _ (hfail _ _ hv) fun _ => ?_
  refine yields_stateRead.then hv (fun e _ w' hw' _ => hfail e w' hw') ?_
  intro again more u hu hq _
  refine check_then _ (hfail _ _ hu) fun _ => ?_
  have hpast := (hp.trans hq).trans (passes_passed u)
  have hpassed := hu.passes (passes_passed u)
  have hstep' : SaveStep u.passed.log r := by
    rw [hpast.log]
    exact hstep.quiet hpast.quiet
  have hsaved := hpassed.saved hstep' hdumps hsize
  refine wp_act hpassed.toInv hsaved.toInv ?_ fun e => ⟨hfail e _ hsaved, hfail e _ hpassed⟩
  refine hok _ _ hsaved ⟨?_, hpast.quiet, hpast.boot⟩
  rw [World.note, hpast.log]

/-- A record that the log permits is saved. -/
theorem save_then {k : Unit → HelperCall β} (hw : Working enc op w) (hstep : SaveStep w.log r)
    (hfail : ∀ e w', Working enc op w' → fail e w')
    (hok : ∀ new w', Working enc op w' → Notes w (.saved r) new w' →
      (k ()).wp (Inv enc) post fail w') :
    (save enc r >>= k).wp (Inv enc) post fail w := by
  rw [Call.wp_bind, save]
  split
  · rw [Call.wp_throw]
    exact hfail _ _ hw
  · next raw hdumps =>
    split
    · rw [Call.wp_throw]
      exact hfail _ _ hw
    · next hsize =>
      rw [Call.wp_bind]
      refine stateWrite_wp hw hstep hdumps (Nat.not_lt.mp hsize) hfail ?_
      intro new w' hw' hnotes
      rw [Call.wp_update]
      have hkept : Working enc op { w' with journalRaw := some raw } :=
        hw'.passes ⟨rfl, List.forall_mem_nil _, rfl, rfl, id⟩
      exact ⟨hkept.toInv, hok new _ hkept ⟨hnotes.log, hnotes.quiet, hnotes.boot⟩⟩

/-- A normal reboot that the log permits is asked for. -/
theorem reboot_then {k : Unit → HelperCall β} (hw : Working enc op w) (hstep : RebootStep w.log f t)
    (hfail : ∀ e w', Inv enc w' → fail e w')
    (hok : ∀ new w', Inv enc w' → Notes w (.reboot false) new w' →
      (k ()).wp (Inv enc) post fail w') :
    (reboot false >>= k).wp (Inv enc) post fail w := by
  have hp := passes_passed w
  have hpassed := hw.passes hp
  have hpermitted : Permitted w.passed.log (.reboot false) := by
    rw [hp.log]
    exact ⟨f, t, hstep.quiet hp.quiet⟩
  have hinv : Inv enc (w.passed.note (.reboot false)) :=
    { log := hpassed.log.cons hpermitted
      journal := hpassed.journal
      boot := hpassed.boot
      policy := hpassed.policy }
  have hnotes : Notes w (.reboot false) (disturbance w) (w.passed.note (.reboot false)) :=
    ⟨by rw [World.note, hp.log], hp.quiet, rfl⟩
  rw [Call.wp_bind]
  simp only [Call.wp, Call.final, reboot]
  cases w.move.fault with
  | none =>
      simp only [List.mem_singleton, forall_eq, List.getLastD_cons, List.getLastD_nil]
      exact ⟨hinv, hok _ _ hinv hnotes⟩
  | some e =>
      simp only [List.mem_singleton, forall_eq, List.getLastD_cons, List.getLastD_nil]
      exact ⟨hinv, hfail e _ hinv⟩

theorem trialReboot_then {k : Unit → HelperCall β} (hw : Working enc op w)
    (hfail : ∀ e w', Working enc op w' → fail e w')
    (hok : ∀ new w', Working enc op w' → Notes w (.reboot true) new w' →
      (k ()).wp (Inv enc) post fail w') :
    (reboot true >>= k).wp (Inv enc) post fail w := by
  have hp := passes_passed w
  have hpassed := hw.passes hp
  have hnoted : Working enc op (w.passed.note (.reboot true)) :=
    hpassed.notes rfl rfl rfl rfl (by simp) trivial hpassed.policy
  have hnotes : Notes w (.reboot true) (disturbance w) (w.passed.note (.reboot true)) :=
    ⟨by rw [World.note, hp.log], hp.quiet, rfl⟩
  rw [Call.wp_bind]
  simp only [Call.wp, Call.final, reboot]
  cases w.move.fault with
  | none =>
      simp only [List.mem_singleton, forall_eq, List.getLastD_cons, List.getLastD_nil]
      exact ⟨hnoted.toInv, hok _ _ hnoted hnotes⟩
  | some e =>
      simp only [List.mem_singleton, forall_eq, List.getLastD_cons, List.getLastD_nil]
      exact ⟨hnoted.toInv, hfail e _ hnoted⟩

end Notes

end HccastWired.Advanced
