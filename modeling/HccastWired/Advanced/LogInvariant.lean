import HccastWired.Advanced.Evidence

/-!
# Logs whose events were all permitted

A permitted event keeps the invariant of the log: the recorded state is valid,
the pending policy has its first baseline, a normal reboot has left its mark,
and the profile is the last confirmed step.
-/

namespace HccastWired.Advanced

open Foundation

variable {log new : List Event} {e : Event} {r : Record}

section Shape

/-- The event is neither a boot, nor the start of a call, nor a saved record. -/
def Event.keeps : Event → Bool
  | .began _ => false
  | .booted _ => false
  | .saved _ => false
  | _ => true

/-- The event is only read from the host, or changes one of the helper's own files. -/
def Event.quiet : Event → Bool
  | .health _ => true
  | .clock _ => true
  | .read _ _ => true
  | .disturbed => true
  | .changedFile name => name ≠ "config.txt"
  | _ => false

theorem Event.keeps_of_quiet (h : e.quiet = true) : e.keeps = true := by
  cases e <;> first | rfl | cases h

abbrev Keeps (new : List Event) : Prop := ∀ e ∈ new, e.keeps = true

abbrev Quiet (new : List Event) : Prop := ∀ e ∈ new, e.quiet = true

theorem Quiet.keeps (h : Quiet new) : Keeps new := fun e he => e.keeps_of_quiet (h e he)

theorem recordOf_append (h : Keeps new) : recordOf (new ++ log) = recordOf log := by
  induction new with
  | nil => rfl
  | cons e new ih =>
      obtain ⟨he, hnew⟩ := List.forall_mem_cons.mp h
      rw [← ih hnew]
      cases e <;> first | rfl | cases he

theorem currentBoot_append (h : Keeps new) : currentBoot (new ++ log) = currentBoot log := by
  induction new with
  | nil => rfl
  | cons e new ih =>
      obtain ⟨he, hnew⟩ := List.forall_mem_cons.mp h
      rw [← ih hnew]
      cases e <;> first | rfl | cases he

theorem operation_append (h : Keeps new) : operation (new ++ log) = operation log := by
  induction new with
  | nil => rfl
  | cons e new ih =>
      obtain ⟨he, hnew⟩ := List.forall_mem_cons.mp h
      rw [← ih hnew]
      cases e <;> first | rfl | cases he

theorem inCall_append (h : Keeps new) : inCall (new ++ log) = new ++ inCall log := by
  induction new with
  | nil => rfl
  | cons e new ih =>
      obtain ⟨he, hnew⟩ := List.forall_mem_cons.mp h
      rw [List.cons_append, List.cons_append, ← ih hnew]
      cases e <;> first | rfl | cases he

theorem sinceSave_append (h : Keeps new) : sinceSave (new ++ log) = new ++ sinceSave log := by
  induction new with
  | nil => rfl
  | cons e new ih =>
      obtain ⟨he, hnew⟩ := List.forall_mem_cons.mp h
      rw [List.cons_append, List.cons_append, ← ih hnew]
      cases e <;> first | rfl | cases he

theorem sinceStaged_append (h : Keeps new) :
    sinceStaged (new ++ log) = new ++ sinceStaged log := by
  induction new with
  | nil => rfl
  | cons e new ih =>
      obtain ⟨he, hnew⟩ := List.forall_mem_cons.mp h
      rw [List.cons_append, List.cons_append, ← ih hnew]
      cases e <;> first | rfl | cases he

theorem startPolicy_append (h : Keeps new) : startPolicy (new ++ log) = startPolicy log := by
  induction new with
  | nil => rfl
  | cons e new ih =>
      obtain ⟨he, hnew⟩ := List.forall_mem_cons.mp h
      rw [← ih hnew]
      cases e <;> first | rfl | cases he

theorem lastConfirmed_append {configHash platformId : String} (h : Keeps new) :
    lastConfirmed configHash platformId (new ++ log) = lastConfirmed configHash platformId log := by
  induction new with
  | nil => rfl
  | cons e new ih =>
      obtain ⟨he, hnew⟩ := List.forall_mem_cons.mp h
      rw [← ih hnew]
      cases e <;> first | rfl | cases he

theorem currentBoot_mem {id : String} (h : currentBoot log = some id) : .booted id ∈ log := by
  induction log with
  | nil => cases h
  | cons e older ih =>
      cases e with
      | booted used =>
          obtain rfl := Option.some.inj h
          exact List.mem_cons_self
      | _ => exact List.mem_cons_of_mem _ (ih h)

end Shape

section Recorded

/-- The baseline of a policy that was set in this boot and not restored. -/
def pendingBaseline (r : Record) (boot : Option String) : Option CpuValues :=
  r.cpu.bind fun c => if c.state = .restored ∨ boot ≠ some c.bootId then none else some c.baseline

/-- A trial that has been started has its deadline. -/
def Trial.timed (t : Trial) : Prop :=
  ∀ started, t.startedS = some started →
    ∃ deadline, t.deadlineS = some deadline ∧ deadline.eq (started.add confirmSeconds) = true

structure LogInv (log : List Event) : Prop where
  sound : Sound log
  valid : (recordOf log).valid = true
  timed : ∀ t, (recordOf log).trial = some t → t.timed
  start : startPolicy log = pendingBaseline (recordOf log) (currentBoot log)
  used : ∀ c, (recordOf log).cpu = some c → .booted c.bootId ∈ log
  marked : .reboot false ∈ sinceStaged log →
    ∃ t, (recordOf log).trial = some t ∧ t.rebootRequestedBootId = currentBoot log
  profile : ∀ p, (recordOf log).profile = some p →
    lastConfirmed p.configSha256 p.platformId log = some p.mhz
  fast : ∀ configHash platformId mhz,
    lastConfirmed configHash platformId log = some mhz → stockMhz < mhz

theorem LogInv.trial_valid (h : LogInv log) {t : Trial} (ht : (recordOf log).trial = some t) :
    t.valid = true := by
  have hvalid := h.valid
  simp only [Record.valid, ht, Option.all_some, Bool.and_eq_true] at hvalid
  exact hvalid.1.2

/-- A new trial starts without times, and any other keeps those it has. -/
theorem TrialStep.timed (hstep : TrialStep log r)
    (hvalid : r.valid = true) (hold : ∀ t, (recordOf log).trial = some t → t.timed) {t : Trial}
    (ht : r.trial = some t) : t.timed := by
  have hrewrites : ∀ old t : Trial, old.Rewrites t → old.timed → t.timed := by
    intro old t hsame htimed
    rw [hsame]
    exact htimed
  cases hstep with
  | unchanged htrial => exact hold t (htrial ▸ ht)
  | staged f t' htrial _ _ hunstarted =>
      obtain rfl := Option.some.inj (htrial.symm.trans ht)
      intro started hstarted
      rw [hunstarted] at hstarted
      cases hstarted
  | requested old now hrecorded _ _ htrial =>
      obtain rfl := Option.some.inj (htrial.symm.trans ht)
      exact hold old hrecorded
  | activated f old now _ _ _ htrial =>
      obtain rfl := Option.some.inj (htrial.symm.trans ht)
      intro started hstarted
      obtain rfl := Option.some.inj hstarted
      refine ⟨_, rfl, ?_⟩
      have hrunning : (old.started f.bootId now).running = true := by
        simp only [Record.valid, ht, Option.all_some, Bool.and_eq_true] at hvalid
        have htrial := hvalid.1.2
        simp only [Trial.valid, Bool.and_eq_true] at htrial
        simpa [Trial.started] using htrial.2
      simp only [Trial.running, Trial.started, Bool.and_eq_true] at hrunning
      exact hrunning.2
  | confirmed f old now deadline hrecorded _ htrial =>
      rw [htrial] at ht
      obtain rfl := Option.some.inj ht
      exact hold old hrecorded
  | retreated old t' hrecorded htrial _ hsame =>
      obtain rfl := Option.some.inj (htrial.symm.trans ht)
      exact hrewrites old t' hsame (hold old hrecorded)
  | manual old t' hrecorded htrial _ hsame =>
      obtain rfl := Option.some.inj (htrial.symm.trans ht)
      exact hrewrites old t' hsame (hold old hrecorded)
  | restored f old t' hrecorded htrial _ hsame =>
      obtain rfl := Option.some.inj (htrial.symm.trans ht)
      exact hrewrites old t' hsame (hold old hrecorded)

/-- Only a confirmation changes the profile, and only it makes a trial confirmed. -/
theorem TrialStep.profile_kept (hstep : TrialStep log r) :
    r.profile = (recordOf log).profile ∧
        (r.trial = (recordOf log).trial ∨ ∀ t, r.trial = some t → t.state ≠ .confirmed) ∨
      ∃ t, (recordOf log).trial = some t ∧ t.state = .active ∧ r = (recordOf log).confirm t := by
  have hother : ∀ t' : Trial, r.trial = some t' → t'.state ≠ .confirmed →
      ∀ t, r.trial = some t → t.state ≠ .confirmed := by
    intro t' htrial hstate t ht
    obtain rfl := Option.some.inj (htrial.symm.trans ht)
    exact hstate
  cases hstep with
  | unchanged htrial hprofile => exact .inl ⟨hprofile, .inl htrial⟩
  | staged f t htrial hprofile hstate =>
      exact .inl ⟨hprofile, .inr (hother t htrial (by simp [hstate]))⟩
  | requested t now _ _ hprofile htrial =>
      exact .inl ⟨hprofile, .inr (hother _ htrial (by simp))⟩
  | activated f t now _ _ hprofile htrial =>
      exact .inl ⟨hprofile, .inr (hother _ htrial (by simp [Trial.started]))⟩
  | confirmed f t now deadline hold hstate htrial => exact .inr ⟨t, hold, hstate, htrial⟩
  | retreated old t _ htrial hprofile _ hstate =>
      exact .inl ⟨hprofile, .inr (hother t htrial (by simp [hstate]))⟩
  | manual old t _ htrial hprofile _ hstate =>
      exact .inl ⟨hprofile, .inr (hother t htrial (by simp [hstate]))⟩
  | restored f old t _ htrial hprofile _ hstate =>
      exact .inl ⟨hprofile, .inr (hother t htrial (by simp [hstate]))⟩

/-- Unless it stages a new trial, a save keeps the mark of a reboot, or sets it. -/
theorem TrialStep.marked (hstep : TrialStep log r) (hstaged : stages (recordOf log) r = false)
    (hreboot : .reboot false ∈ sinceStaged log) {old : Trial}
    (hold : (recordOf log).trial = some old) (hmark : old.rebootRequestedBootId = currentBoot log) :
    ∃ t, r.trial = some t ∧ t.rebootRequestedBootId = currentBoot log := by
  have hsame : ∀ t : Trial, (recordOf log).trial = some t →
      t.rebootRequestedBootId = currentBoot log := by
    intro t ht
    obtain rfl := Option.some.inj (hold.symm.trans ht)
    exact hmark
  cases hstep with
  | unchanged htrial => exact ⟨old, htrial.trans hold, hmark⟩
  | staged f t htrial _ hstate _ hsettled =>
      have hne : r.trial ≠ (recordOf log).trial := by
        intro heq
        rw [Record.trialState, ← heq, htrial] at hsettled
        simp [hstate] at hsettled
      simp [stages, Record.trialState, hstate, htrial] at hstaged
      exact absurd (htrial.trans hstaged) hne
  | requested t now hrecorded _ _ htrial => exact ⟨_, htrial, hsame t hrecorded⟩
  | activated f t now hrecorded _ _ htrial => exact ⟨_, htrial, hsame t hrecorded⟩
  | confirmed f t now deadline hrecorded _ htrial =>
      refine ⟨{ t with state := .confirmed }, ?_, hsame t hrecorded⟩
      rw [htrial]
      rfl
  | retreated _ t _ htrial _ _ _ hkept => exact ⟨t, htrial, hkept⟩
  | manual t' t hrecorded htrial _ _ _ hkept =>
      refine ⟨t, htrial, ?_⟩
      obtain hkept | hnone := hkept
      · exact hkept.trans (hsame t' hrecorded)
      · exact absurd hreboot hnone
  | restored f t' t hrecorded htrial _ _ _ hkept =>
      exact ⟨t, htrial, hkept.trans (hsame t' hrecorded)⟩

theorem pendingBaseline_none {boot : Option String} (h : r.cpu = none) :
    pendingBaseline r boot = none := by
  simp [pendingBaseline, h]

theorem pendingBaseline_some {boot : Option String} {c : Cpu} (h : r.cpu = some c) :
    pendingBaseline r boot =
      if c.state = .restored ∨ boot ≠ some c.bootId then none else some c.baseline := by
  simp [pendingBaseline, h]

/-- The first baseline of a boot stays that of its transactions. -/
theorem CpuStep.start (hstep : CpuStep log r)
    (hstart : startPolicy log = pendingBaseline (recordOf log) (currentBoot log)) :
    startPolicy (.saved r :: log) = pendingBaseline r (currentBoot log) := by
  cases hstep with
  | unchanged hcpu =>
      rw [startPolicy]
      cases hc : r.cpu with
      | none => exact (pendingBaseline_none hc).symm
      | some c =>
          rw [pendingBaseline_some hc]
          simp only [← hcpu, hc, if_true, hstart, pendingBaseline_some (hcpu ▸ hc)]
          grind
  | applying c hcpu hstate hboot hbefore hbaseline =>
      have hpending : ¬ (c.state = .restored ∨ currentBoot log ≠ some c.bootId) := by
        simp [hstate, hboot]
      rw [startPolicy, pendingBaseline_some hcpu, if_neg hpending]
      simp only [hcpu, hstate, reduceCtorEq, if_false]
      split
      · next hsame => rw [hstart, pendingBaseline_some hsame, if_neg hpending]
      · rw [hbefore, hbaseline]
        cases startPolicy log <;> rfl
  | applied c hold hstate hboot hcpu =>
      have hold' : startPolicy log = some c.baseline := by
        rw [hstart, pendingBaseline_some hold, if_neg (by simp [hstate, hboot])]
      rw [startPolicy, pendingBaseline_some hcpu]
      simp [hcpu, hboot, hold']
  | restored c hold hstate hcpu hbaseline =>
      rw [startPolicy, pendingBaseline_some hcpu]
      simp [hcpu]

theorem CpuStep.used (hstep : CpuStep log r)
    (hused : ∀ c, (recordOf log).cpu = some c → .booted c.bootId ∈ log) {c : Cpu}
    (hc : r.cpu = some c) : .booted c.bootId ∈ log := by
  cases hstep with
  | unchanged hcpu => exact hused c (hcpu ▸ hc)
  | applying c' hcpu _ hboot =>
      obtain rfl := Option.some.inj (hcpu.symm.trans hc)
      exact currentBoot_mem hboot
  | applied c' hold _ _ hcpu =>
      obtain rfl := Option.some.inj (hcpu.symm.trans hc)
      exact hused c' hold
  | restored c' hold _ hcpu =>
      obtain rfl := Option.some.inj (hcpu.symm.trans hc)
      exact hused c' hold

theorem LogInv.saved (h : LogInv log) (hstep : SaveStep log r) : LogInv (.saved r :: log) where
  sound := ⟨hstep, h.sound⟩
  valid := hstep.valid
  timed _ ht := hstep.trial.timed hstep.valid h.timed ht
  start := hstep.cpu.start h.start
  used _ hc := List.mem_cons_of_mem _ (hstep.cpu.used h.used hc)
  marked hreboot := by
    rw [sinceStaged] at hreboot
    split at hreboot
    · cases hreboot
    · next hstaged =>
      obtain hreboot | hreboot := List.mem_cons.mp hreboot
      · cases hreboot
      · obtain ⟨old, hold, hmark⟩ := h.marked hreboot
        exact hstep.trial.marked (by simpa using hstaged) hreboot hold hmark
  profile p hp := by
    simp only [recordOf] at hp
    obtain ⟨hprofile, hkept⟩ | ⟨t, hold, hstate, rfl⟩ := hstep.trial.profile_kept
    · have hlast := h.profile p (hprofile ▸ hp)
      rw [lastConfirmed]
      cases ht : r.trial with
      | none => exact hlast
      | some t =>
          refine (if_neg ?_).trans hlast
          rintro ⟨hconfirmed, hne, -⟩
          obtain hsame | hother := hkept
          · exact hne (hsame ▸ ht)
          · exact hother t ht hconfirmed
    · obtain rfl := Option.some.inj hp
      have hne : t ≠ { t with state := .confirmed } := by
        intro heq
        rw [heq] at hstate
        cases hstate
      simp only [lastConfirmed, Record.confirm, hold, Option.some.injEq, ne_eq, hne,
        not_false_eq_true, and_self, if_true]
  fast configHash platformId mhz hlast := by
    rw [lastConfirmed] at hlast
    cases ht : r.trial with
    | none =>
        rw [ht] at hlast
        exact h.fast configHash platformId mhz hlast
    | some t =>
        rw [ht] at hlast
        simp only at hlast
        split at hlast
        · obtain rfl := Option.some.inj hlast
          have hvalid := hstep.valid
          simp only [Record.valid, ht, Option.all_some, Bool.and_eq_true] at hvalid
          have htrial := hvalid.1.2
          simp only [Trial.valid, Bool.and_eq_true, decide_eq_true_eq] at htrial
          omega
        · exact h.fast configHash platformId mhz hlast

theorem LogInv.began (h : LogInv log) (op : Operation) : LogInv (.began op :: log) where
  sound := ⟨trivial, h.sound⟩
  valid := h.valid
  timed := h.timed
  start := h.start
  used c hc := List.mem_cons_of_mem _ (h.used c hc)
  marked hreboot := by
    obtain hreboot | hreboot := List.mem_cons.mp hreboot
    · cases hreboot
    · exact h.marked hreboot
  profile := h.profile
  fast := h.fast

/-- A policy of an earlier boot is no longer pending. -/
theorem LogInv.booted (h : LogInv log) {id : String} (hfresh : .booted id ∉ log) :
    LogInv (.booted id :: log) where
  sound := ⟨hfresh, h.sound⟩
  valid := h.valid
  timed := h.timed
  start := by
    change none = pendingBaseline (recordOf log) (some id)
    cases hc : (recordOf log).cpu with
    | none => rw [pendingBaseline_none hc]
    | some c =>
        have hne : some id ≠ some c.bootId := by
          rintro ⟨⟩
          exact hfresh (h.used c hc)
        rw [pendingBaseline_some hc, if_pos (.inr hne)]
  used c hc := List.mem_cons_of_mem _ (h.used c hc)
  marked hreboot := by cases hreboot
  profile := h.profile
  fast := h.fast

theorem LogInv.keeps (h : LogInv log) (he : e.keeps = true) (hpermitted : Permitted log e) :
    LogInv (e :: log) := by
  have hkeeps : Keeps [e] := List.forall_mem_singleton.mpr he
  have hrecord : recordOf (e :: log) = recordOf log := recordOf_append hkeeps
  have hboot : currentBoot (e :: log) = currentBoot log := currentBoot_append hkeeps
  have hstart : startPolicy (e :: log) = startPolicy log := startPolicy_append hkeeps
  have hlast : ∀ a b, lastConfirmed a b (e :: log) = lastConfirmed a b log := fun a b =>
    lastConfirmed_append hkeeps
  have hstaged : sinceStaged (e :: log) = e :: sinceStaged log := sinceStaged_append hkeeps
  constructor
  · exact ⟨hpermitted, h.sound⟩
  · rw [hrecord]
    exact h.valid
  · rw [hrecord]
    exact h.timed
  · rw [hrecord, hboot, hstart]
    exact h.start
  · rw [hrecord]
    exact fun c hc => List.mem_cons_of_mem _ (h.used c hc)
  · rw [hrecord, hboot, hstaged]
    intro hreboot
    obtain rfl | hreboot := List.mem_cons.mp hreboot
    · obtain ⟨f, t, hstep⟩ := hpermitted
      exact ⟨t, hstep.recorded, hstep.marked.trans hstep.boot.symm⟩
    · exact h.marked hreboot
  · intro p hp
    rw [hlast]
    rw [hrecord] at hp
    exact h.profile p hp
  · intro a b mhz hmhz
    rw [hlast] at hmhz
    exact h.fast a b mhz hmhz

/-- Every permitted event keeps the invariant. -/
theorem LogInv.cons (h : LogInv log) (hpermitted : Permitted log e) : LogInv (e :: log) := by
  cases e with
  | began op => exact h.began op
  | booted id => exact h.booted hpermitted
  | saved r => exact h.saved hpermitted
  | _ => exact h.keeps rfl hpermitted

theorem Permitted.of_quiet (h : e.quiet = true) : Permitted log e := by
  cases e with
  | changedFile name => simpa [Event.quiet, Permitted] using h
  | _ => trivial

theorem LogInv.quiet (h : LogInv log) (hnew : Quiet new) : LogInv (new ++ log) := by
  induction new with
  | nil => exact h
  | cons e new ih =>
      obtain ⟨he, hrest⟩ := List.forall_mem_cons.mp hnew
      exact (ih hrest).cons (.of_quiet he)

theorem LogInv.start_only (id : String) : LogInv [.booted id] where
  sound := ⟨nofun, trivial⟩
  valid := rfl
  timed _ h := nomatch h
  start := rfl
  used _ h := nomatch h
  marked h := nomatch h
  profile _ h := nomatch h
  fast _ _ _ h := nomatch h

end Recorded

end HccastWired.Advanced
