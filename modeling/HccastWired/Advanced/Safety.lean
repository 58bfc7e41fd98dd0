import HccastWired.Advanced.Trials

/-!
# What holds over every run of the advanced helper

Runs may boot at any step, be interrupted after any step and see any answers.
-/

namespace HccastWired.Advanced

open Foundation

variable {enc : Encoding} {w w' : World} {log older : List Event} {r : Record} {t : Trial}

section Sample

def sampleFacts : BootFacts where
  bootId := "boot-1"
  model := "Raspberry Pi 5 Model B Rev 1.0"
  configuredMhz := stockMhz
  tryboot := false
  layoutVerified := true
  secureBoot := some false
  bootRamdisk := some false
  abBoot := some false
  platformId := "p1"

def sampleReadiness : PyValue :=
  .dict ([("api_version", .int 1), ("boot_id", .str "boot-1"), ("platform_id", .str "p1"),
    ("config_sha256", .str (Sha256.hexdigest []))] ++
      requiredReadiness.map fun key => (key, .bool true))

/-- Surroundings that change nothing and answer well. -/
def sampleMove : Move where
  edit := id
  readiness := id
  policy := id
  fault := none
  applied := false
  facts := some sampleFacts
  health := some ⟨.int 5, .int 40, 0, false⟩
  clock := ⟨.int 5, by decide⟩
  limits := some ⟨["ondemand"], 600000, 2400000⟩
  uuid := ⟨"a1", by decide⟩

def sampleWorld (moves : Nat → Move) : World where
  moves := moves
  time := 0
  bootId := "boot-1"
  files := fun name => if name = "config.txt" then some (.file []) else none
  readiness := some (.file ((Encoding.tagged.dumps sampleReadiness).getD []))
  policy := ⟨"ondemand", 2400000⟩
  journal := none
  journalRaw := none
  log := [.booted "boot-1"]

theorem sampleWorld_initial (moves : Nat → Move) : Initial (sampleWorld moves) :=
  ⟨rfl, rfl⟩

/-- A state that a single call leaves. -/
def sampleAfter (moves : Nat → Move) (op : Operation) (updates : Nat) : World :=
  (op.call Encoding.tagged).upTo updates (sampleWorld moves)

theorem sampleAfter_reached (moves : Nat → Move) (op : Operation) (updates : Nat) :
    (advancedSystem Encoding.tagged).Reaches System.Any (sampleWorld moves)
      (sampleAfter moves op updates) :=
  .single ⟨.call op updates, trivial, rfl⟩

/-- A trial of 2450 MHz has been requested, and is in the journal. -/
theorem sampleAfter_requested :
    ((recordOf (sampleAfter (fun _ => sampleMove) (.startTrial (some 2450)) 40).log).trial.map
      fun t => (t.state, t.mhz)) = some (.requested, 2450) ∧
    (sampleAfter (fun _ => sampleMove) (.startTrial (some 2450)) 40).journal.isSome = true := by
  decide +kernel

end Sample

section Transitions

/-- The journal has been saved with this record after `older`. -/
def Saves (log older : List Event) (r : Record) : Prop :=
  ∃ newer, log = newer ++ .saved r :: older

/-- The save after `older` brings the trial into a state. -/
structure Becomes (log older : List Event) (t : Trial) (state : TrialState) : Prop where
  saved : ∃ r, Saves log older r ∧ r.trial = some t
  changed : (recordOf older).trial ≠ some t
  state : t.state = state

/-- What the saves of a log say of trials. -/
structure TrialHistory (log : List Event) : Prop where
  staged : ∀ older t, Becomes log older t .staging → ∃ f, Observed f older ∧ f.tryboot = false ∧
    f.configuredMhz = stockMhz ∧ t.originBootId = f.bootId ∧
    (recordOf older).trialState = .restored ∧ stockMhz < t.mhz ∧ t.mhz ≤ min maxMhz
      ((lastConfirmed t.configSha256 t.platformId older).getD stockMhz + 50)
  active : ∀ older t, Becomes log older t .active → ∃ old f now,
    (recordOf older).trial = some old ∧ old.state = .requested ∧ t = old.started f.bootId now ∧
    Observed f older ∧ f.tryboot = true ∧ f.bootId ≠ old.originBootId ∧
    f.configuredMhz = old.mhz ∧ f.platformId = old.platformId ∧ Verified f old (inCall older) ∧
    Candidate old (inCall older) ∧ Healthy old.baselineBits (inCall older)
  confirmed : ∀ older t, Becomes log older t .confirmed → ∃ old f now deadline,
    (recordOf older).trial = some old ∧ old.state = .active ∧ t = { old with state := .confirmed } ∧
    Observed f older ∧ f.tryboot = true ∧ old.activeBootId = some f.bootId ∧
    .clock now ∈ inCall older ∧ old.deadlineS = some deadline ∧ deadline.le now = false ∧
    operation older = some (.confirmTrial (some old.id) true)
  restored : ∀ older t, Becomes log older t .restored → ∃ old f,
    (recordOf older).trial = some old ∧ old.Rewrites t ∧ Observed f older ∧ f.tryboot = false ∧
    f.configuredMhz = stockMhz ∧ Verified f t (inCall older) ∧
    Healthy t.baselineBits (inCall older) ∧
    (f.bootId ≠ t.originBootId ∨ old.state = .staging)
  profile : ∀ older r, Saves log older r → r.profile = (recordOf older).profile ∨
    ∃ old, (recordOf older).trial = some old ∧ old.state = .active ∧
      r = (recordOf older).confirm old

theorem Saves.step (h : Saves log older r) (hsound : Sound log) : SaveStep older r := by
  obtain ⟨newer, rfl⟩ := h
  exact hsound.permitted

theorem Becomes.step {state : TrialState} (h : Becomes log older t state) (hsound : Sound log) :
    ∃ r, r.trial = some t ∧ TrialStep older r := by
  obtain ⟨r, hsaves, hr⟩ := h.saved
  exact ⟨r, hr, (hsaves.step hsound).trial⟩

/-- The trial that a step leaves, from the record it saves. -/
theorem trial_eq {t' : Trial} (h : r.trial = some t) (h' : r.trial = some t') : t' = t :=
  Option.some.inj (h'.symm.trans h)

theorem TrialHistory.of_sound (hsound : Sound log) : TrialHistory log where
  staged older t h := by
    obtain ⟨r, hr, hstep⟩ := h.step hsound
    have hstate := h.state
    cases hstep with
    | unchanged htrial => exact absurd (htrial ▸ hr) h.changed
    | staged f t' htrial _ _ _ hsettled hfacts htryboot hstock horigin _ _ hlow hhigh =>
        obtain rfl := trial_eq hr htrial
        exact ⟨f, hfacts, htryboot, hstock, horigin, hsettled, hlow, hhigh⟩
    | requested _ _ _ _ _ htrial => rw [← trial_eq hr htrial] at hstate; cases hstate
    | activated _ _ _ _ _ _ htrial => rw [← trial_eq hr htrial] at hstate; cases hstate
    | confirmed _ old _ _ _ _ htrial =>
        rw [htrial] at hr
        rw [← Option.some.inj hr] at hstate
        cases hstate
    | retreated _ _ _ htrial _ _ hs => rw [← trial_eq hr htrial, hs] at hstate; cases hstate
    | manual _ _ _ htrial _ _ hs => rw [← trial_eq hr htrial, hs] at hstate; cases hstate
    | restored _ _ _ _ htrial _ _ hs => rw [← trial_eq hr htrial, hs] at hstate; cases hstate
  active older t h := by
    obtain ⟨r, hr, hstep⟩ := h.step hsound
    have hstate := h.state
    cases hstep with
    | unchanged htrial => exact absurd (htrial ▸ hr) h.changed
    | staged _ _ htrial _ hs => rw [← trial_eq hr htrial, hs] at hstate; cases hstate
    | requested _ _ _ _ _ htrial => rw [← trial_eq hr htrial] at hstate; cases hstate
    | activated f old now hold hrequested _ htrial hfacts htryboot horigin hmhz hverified hcandidate
        hhealthy =>
        exact ⟨old, f, now, hold, hrequested, (trial_eq hr htrial).symm, hfacts, htryboot, horigin,
          hmhz, hverified.platform, hverified, hcandidate, hhealthy⟩
    | confirmed _ old _ _ _ _ htrial =>
        rw [htrial] at hr
        rw [← Option.some.inj hr] at hstate
        cases hstate
    | retreated _ _ _ htrial _ _ hs => rw [← trial_eq hr htrial, hs] at hstate; cases hstate
    | manual _ _ _ htrial _ _ hs => rw [← trial_eq hr htrial, hs] at hstate; cases hstate
    | restored _ _ _ _ htrial _ _ hs => rw [← trial_eq hr htrial, hs] at hstate; cases hstate
  confirmed older t h := by
    obtain ⟨r, hr, hstep⟩ := h.step hsound
    have hstate := h.state
    cases hstep with
    | unchanged htrial => exact absurd (htrial ▸ hr) h.changed
    | staged _ _ htrial _ hs => rw [← trial_eq hr htrial, hs] at hstate; cases hstate
    | requested _ _ _ _ _ htrial => rw [← trial_eq hr htrial] at hstate; cases hstate
    | activated _ _ _ _ _ _ htrial => rw [← trial_eq hr htrial] at hstate; cases hstate
    | confirmed f old now deadline hold hactive htrial hfacts htryboot hboot hclock hdeadline
        hbefore hvisible =>
        rw [htrial] at hr
        exact ⟨old, f, now, deadline, hold, hactive, (Option.some.inj hr).symm, hfacts, htryboot,
          hboot, hclock, hdeadline, hbefore, hvisible⟩
    | retreated _ _ _ htrial _ _ hs => rw [← trial_eq hr htrial, hs] at hstate; cases hstate
    | manual _ _ _ htrial _ _ hs => rw [← trial_eq hr htrial, hs] at hstate; cases hstate
    | restored _ _ _ _ htrial _ _ hs => rw [← trial_eq hr htrial, hs] at hstate; cases hstate
  restored older t h := by
    obtain ⟨r, hr, hstep⟩ := h.step hsound
    have hstate := h.state
    cases hstep with
    | unchanged htrial => exact absurd (htrial ▸ hr) h.changed
    | staged _ _ htrial _ hs => rw [← trial_eq hr htrial, hs] at hstate; cases hstate
    | requested _ _ _ _ _ htrial => rw [← trial_eq hr htrial] at hstate; cases hstate
    | activated _ _ _ _ _ _ htrial => rw [← trial_eq hr htrial] at hstate; cases hstate
    | confirmed _ old _ _ _ _ htrial =>
        rw [htrial] at hr
        rw [← Option.some.inj hr] at hstate
        cases hstate
    | retreated _ _ _ htrial _ _ hs => rw [← trial_eq hr htrial, hs] at hstate; cases hstate
    | manual _ _ _ htrial _ _ hs => rw [← trial_eq hr htrial, hs] at hstate; cases hstate
    | restored f old t' hold htrial _ hsame _ _ hfacts htryboot hstock hverified hhealthy hboot =>
        obtain rfl := trial_eq hr htrial
        exact ⟨old, f, hold, hsame, hfacts, htryboot, hstock, hverified, hhealthy, hboot⟩
  profile older r h := by
    obtain ⟨hprofile, -⟩ | ⟨old, hold, hactive, hr⟩ := (h.step hsound).trial.profile_kept
    · exact .inl hprofile
    · exact .inr ⟨old, hold, hactive, hr⟩

/-- Trials go from state to state as documented, whatever happens between the steps. -/
theorem trials_as_documented (initial : Initial w)
    (run : (advancedSystem enc).Reaches System.Any w w') : TrialHistory w'.log :=
  .of_sound (Inv.reached initial run).log.sound

theorem trials_as_documented_requested :
    ((recordOf (sampleAfter (fun _ => sampleMove) (.startTrial (some 2450)) 40).log).trial.map
      fun t => (t.state, t.mhz)) = some (.requested, 2450) ∧
    TrialHistory (sampleAfter (fun _ => sampleMove) (.startTrial (some 2450)) 40).log :=
  ⟨sampleAfter_requested.1, trials_as_documented (sampleWorld_initial _) (sampleAfter_reached _ _ _)⟩

end Transitions

section Journal

/-- What the loader requires of the times and the texts of a trial. -/
structure TrialConsistent (t : Trial) : Prop where
  texts : ∃ baseline candidate, encode t.baseline = some baseline ∧
    encode t.candidate = some candidate ∧ t.candidate = candidateOf t.baseline t.mhz ∧
    t.configSha256 = Sha256.hexdigest baseline ∧ t.candidateSha256 = Sha256.hexdigest candidate
  deadline : ∀ started, t.startedS = some started →
    ∃ deadline, t.deadlineS = some deadline ∧ deadline.eq (started.add confirmSeconds) = true
  running : t.state = .active ∨ t.state = .confirmed → ∃ started, t.startedS = some started

/-- The journal is read back as the record that was saved last, and the helper loads it. -/
structure JournalLoads (enc : Encoding) (w : World) : Prop where
  decoded : ∀ raw, w.journal = some raw →
    ∃ v, json enc (some raw) = .ok (some v) ∧ validRecord v = .ok (recordOf w.log)
  loaded : w.move.fault = none → w.passed.move.fault = none →
    (load enc w).1 = .ok (recordOf w.log)
  trial : ∀ t, (recordOf w.log).trial = some t → TrialConsistent t

theorem TrialConsistent.of_valid (h : t.valid = true) (htimed : t.timed) : TrialConsistent t where
  texts := by
    have htexts := t.valid_texts h
    rw [Trial.texts] at htexts
    split at htexts
    · next baseline candidate hbaseline hcandidate =>
      simp only [Bool.and_eq_true, decide_eq_true_eq] at htexts
      obtain ⟨⟨⟨-, hconfig⟩, hdigest⟩, hsame⟩ := htexts
      exact ⟨baseline, candidate, hbaseline, hcandidate, hsame, hconfig.symm, hdigest.symm⟩
    · cases htexts
  deadline := htimed
  running hstate := by
    simp only [Trial.valid, Bool.and_eq_true] at h
    have hrunning : t.running = true := by
      obtain hstate | hstate := hstate
      · simpa [hstate] using h.2
      · simpa [hstate] using h.2
    rw [Trial.running] at hrunning
    split at hrunning
    · next started _ _ hstarted _ => exact ⟨started, hstarted⟩
    · cases hrunning

theorem stateRead_wp {post : Option Bytes → World → Prop} {fail : AdvancedError → World → Prop}
    (hfault : w.move.fault = none) (hsize : ∀ raw, w.journal = some raw → raw.length ≤ maxFileBytes)
    (hok : post w.journal w.passed) : stateRead.wp (fun _ => True) post fail w := by
  have hread : readEntry (w.passed.journal.map .file) = .ok w.journal := by
    change readEntry (w.journal.map .file) = .ok w.journal
    cases hw : w.journal with
    | none => rfl
    | some raw => exact if_neg (Nat.not_lt.mpr (hsize raw hw))
  simp only [Call.wp, Call.final, stateRead, ask, Move.answer, hfault, hread]
  exact ⟨fun _ _ => trivial, hok⟩

/-- A load whose two reads go through returns the record that was saved last. -/
theorem Inv.load_ok (h : Inv enc w) (hfirst : w.move.fault = none)
    (hsecond : w.passed.move.fault = none) : (load enc w).1 = .ok (recordOf w.log) := by
  have hj := h.journal
  have hsize : ∀ raw, w.journal = some raw → raw.length ≤ maxFileBytes := by
    intro raw hraw
    rw [Journaled, hraw] at hj
    exact hj.2
  have hload : (load enc).wp (fun _ => True) (fun r _ => r = recordOf w.log) (fun _ _ => False) w := by
    rw [load, Call.wp_bind]
    refine stateRead_wp hfirst hsize ?_
    rw [Call.wp_bind, Call.wp_update]
    refine ⟨trivial, ?_⟩
    rw [Call.wp_bind]
    refine stateRead_wp hsecond hsize ?_
    rw [Call.wp_bind, Call.wp_ofExcept]
    have hsame : ({ w.passed with journalRaw := w.journal } : World).journal = w.journal := rfl
    rw [hsame]
    cases hw : w.journal with
    | none =>
        rw [Journaled, hw] at hj
        simp only [json, Call.wp_pure]
        exact hj.symm
    | some raw =>
        rw [Journaled, hw] at hj
        simp only [json_dumps hj.1, Call.wp_ofExcept, validRecord_toDict h.log.valid]
  obtain ⟨r, hr, rfl⟩ := hload.returns
  exact hr

theorem JournalLoads.of_inv (h : Inv enc w) : JournalLoads enc w where
  decoded raw hraw := by
    have hj := h.journal
    rw [Journaled, hraw] at hj
    exact ⟨_, json_dumps hj.1, validRecord_toDict h.log.valid⟩
  loaded := h.load_ok
  trial t ht := .of_valid (h.log.trial_valid ht) (h.log.timed t ht)

/-- In every state of every run, interrupted or not, the journal that was written
is one that the loader accepts. -/
theorem journal_always_loads (initial : Initial w)
    (run : (advancedSystem enc).Reaches System.Any w w') : JournalLoads enc w' :=
  .of_inv (.reached initial run)

theorem journal_always_loads_requested :
    (sampleAfter (fun _ => sampleMove) (.startTrial (some 2450)) 40).journal.isSome = true ∧
    JournalLoads Encoding.tagged (sampleAfter (fun _ => sampleMove) (.startTrial (some 2450)) 40) :=
  ⟨sampleAfter_requested.2, journal_always_loads (sampleWorld_initial _) (sampleAfter_reached _ _ _)⟩

end Journal

section Reboots

def Event.isNormalReboot : Event → Bool
  | .reboot false => true
  | _ => false

/-- What a log says of normal reboots, of the normal configuration and of the
last look of a call at it. -/
structure SafeRetreat (log : List Event) : Prop where
  permitted : ∀ newer older, log = newer ++ .reboot false :: older → ∃ f t, RebootStep older f t
  once : (sinceStaged log).countP Event.isNormalReboot ≤ 1
  unverified : lastVerified (inCall log) = some false → .reboot false ∉ inCall log
  config : .changedFile "config.txt" ∉ log

theorem Sound.once (h : Sound log) : (sinceStaged log).countP Event.isNormalReboot ≤ 1 := by
  induction log with
  | nil => exact Nat.zero_le 1
  | cons e older ih =>
      obtain ⟨hpermitted, hsound⟩ := h
      have hold := ih hsound
      cases e with
      | booted id => exact Nat.zero_le 1
      | saved r =>
          rw [sinceStaged]
          split
          · exact Nat.zero_le 1
          · exact hold
      | reboot trial =>
          cases trial with
          | true => exact hold
          | false =>
              obtain ⟨f, t, hstep⟩ := hpermitted
              have hnone : (sinceStaged older).countP Event.isNormalReboot = 0 := by
                rw [List.countP_eq_zero]
                intro e he htrue
                cases e with
                | reboot trial =>
                    cases trial with
                    | true => cases htrue
                    | false => exact hstep.once he
                | _ => cases htrue
              change List.countP _ (.reboot false :: sinceStaged older) ≤ 1
              rw [List.countP_cons, hnone]
              rfl
      | _ => exact hold

theorem Sound.unverified (h : Sound log) (hlast : lastVerified (inCall log) = some false) :
    .reboot false ∉ inCall log := by
  induction log with
  | nil => exact List.not_mem_nil
  | cons e older ih =>
      obtain ⟨hpermitted, hsound⟩ := h
      have hold : lastVerified (inCall older) = some false → .reboot false ∉ inCall older :=
        ih hsound
      cases e with
      | began op => exact List.not_mem_nil
      | verified ok =>
          intro hmem
          obtain hmem | hmem := List.mem_cons.mp hmem
          · cases hmem
          · exact hpermitted hmem
      | reboot trial =>
          intro hmem
          obtain hmem | hmem := List.mem_cons.mp hmem
          · cases hmem
            obtain ⟨f, t, hstep⟩ := hpermitted
            have hfalse : lastVerified (inCall older) = some false := hlast
            rw [hstep.last] at hfalse
            cases hfalse
          · exact hold hlast hmem
      | _ =>
          intro hmem
          obtain hmem | hmem := List.mem_cons.mp hmem
          · cases hmem
          · exact hold hlast hmem

theorem SafeRetreat.of_sound (h : Sound log) : SafeRetreat log where
  permitted newer older hlog := by
    subst hlog
    exact h.permitted
  once := h.once
  unverified := h.unverified
  config hmem := by
    obtain ⟨newer, older, rfl⟩ := List.append_of_mem hmem
    exact h.permitted rfl

/-- What a call ends with, when its last look at the normal configuration failed. -/
def EndsManually (enc : Encoding) (w : World) : Prop :=
  ∀ op result, (Operation.call enc op w).1 = .ok (.trial result) →
    lastVerified (inCall ((op.call enc).final w).log) = some false →
    (recordOf ((op.call enc).final w).log).trialState = .manualRecoveryRequired ∧
      result.manualRecoveryRequired = true ∧
      .reboot false ∉ inCall ((op.call enc).final w).log

theorem EndsManually.of_inv (h : Inv enc w) : EndsManually enc w := by
  intro op answer hok hlast
  obtain ⟨hinv, hended⟩ := (op.call_wp h).ok hok
  have hended' : Ended answer ((op.call enc).final w) := hended
  have hmanual := hended'.manual hlast
  refine ⟨hmanual, ?_, hinv.log.sound.unverified hlast⟩
  rw [hended'.result]
  exact decide_eq_true hmanual

/-- A retreat asks for at most one normal boot, with the retreat in the journal
and the recorded baseline seen again, or asks for help. -/
theorem retreats_safely (initial : Initial w)
    (run : (advancedSystem enc).Reaches System.Any w w') :
    SafeRetreat w'.log ∧ EndsManually enc w' :=
  ⟨.of_sound (Inv.reached initial run).log.sound, .of_inv (.reached initial run)⟩

theorem retreats_safely_requested :
    SafeRetreat (sampleAfter (fun _ => sampleMove) (.startTrial (some 2450)) 40).log ∧
    EndsManually Encoding.tagged (sampleAfter (fun _ => sampleMove) (.startTrial (some 2450)) 40) :=
  retreats_safely (sampleWorld_initial _) (sampleAfter_reached _ _ _)

end Reboots

section Policy

/-- What a log says of the CPU policy. -/
structure CpuHistory (log : List Event) : Prop where
  written : ∀ newer older field values current,
    log = newer ++ .wrote field values current :: older → ∃ c, WriteStep older values current c
  restored : ∀ older r c, Saves log older r → (recordOf older).cpu = some c →
    c.state ≠ .restored → r.cpuState = .restored →
    currentBoot older ≠ some c.bootId ∨ ReadBack older c.baseline

theorem CpuHistory.of_sound (h : Sound log) : CpuHistory log where
  written newer older field values current hlog := by
    subst hlog
    exact h.permitted
  restored older r c hsaves hc hpending hrestored := by
    cases (hsaves.step h).cpu with
    | unchanged hcpu =>
        rw [Record.cpuState, hcpu, hc] at hrestored
        exact absurd hrestored hpending
    | applying c' hcpu hstate =>
        rw [Record.cpuState, hcpu] at hrestored
        cases hstate.symm.trans hrestored
    | applied c' _ _ _ hcpu =>
        rw [Record.cpuState, hcpu] at hrestored
        cases hrestored
    | restored c' hold _ _ hback =>
        obtain rfl := Option.some.inj (hold.symm.trans hc)
        exact hback

/-- A restoration that returns leaves the policy as it was before the first setting. -/
def RestoresPolicy (enc : Encoding) (w : World) : Prop :=
  ∀ answer start, ((Operation.restoreCpu.call enc) w).1 = .ok answer →
    startPolicy w.log = some start →
    Reread start ((Operation.restoreCpu.call enc).final w).log ∧
      (.disturbed ∉ sinceSnapshot ((Operation.restoreCpu.call enc).final w).log →
        ((Operation.restoreCpu.call enc).final w).policy = start)

theorem RestoresPolicy.of_inv (h : Inv enc w) : RestoresPolicy enc w := by
  intro answer start hok hstart
  have hcall : (Operation.restoreCpu.call enc).wp (Inv enc)
      (fun _ w' => Inv enc w' ∧ Reread start w'.log) (fun _ w' => Inv enc w') w := by
    refine transaction_wp h fun v hv _ hsame => ?_
    rw [Operation.body, Call.wp_bind]
    refine (restoreCpu_wp hv fun _ _ hw' => hw'.toInv).mono ?_ fun _ _ => id
    rintro ⟨⟩ u ⟨hu, r, hdone⟩
    rw [Call.wp_pure]
    exact ⟨hu.toInv, hdone.back start (hsame.trans hstart)⟩
  obtain ⟨hinv, hread⟩ := hcall.ok hok
  exact ⟨hread, fun hcalm => hinv.policy _ (hread.known hcalm)⟩

/-- A field is written only after a look that finds values of the recorded
transaction, and a restoration that returns has read the first policy back. -/
theorem policy_restored (initial : Initial w)
    (run : (advancedSystem enc).Reaches System.Any w w') :
    CpuHistory w'.log ∧ Journaled enc w' ∧ RestoresPolicy enc w' := by
  have hinv := Inv.reached initial run
  exact ⟨.of_sound hinv.log.sound, hinv.journal, .of_inv hinv⟩

/-- The policy changes between the look at it and the first write. -/
def outsideMoves (n : Nat) : Move :=
  if n = 9 then { sampleMove with policy := fun _ => ⟨"performance", 2400000⟩ } else sampleMove

theorem policy_restored_set :
    startPolicy (sampleAfter outsideMoves (.setCpu (some "ondemand") (some 1500)) 30).log =
        some ⟨"ondemand", 2400000⟩ ∧
      CpuHistory (sampleAfter outsideMoves (.setCpu (some "ondemand") (some 1500)) 30).log ∧
      Journaled Encoding.tagged
        (sampleAfter outsideMoves (.setCpu (some "ondemand") (some 1500)) 30) ∧
      RestoresPolicy Encoding.tagged
        (sampleAfter outsideMoves (.setCpu (some "ondemand") (some 1500)) 30) :=
  ⟨by decide +kernel, policy_restored (sampleWorld_initial _) (sampleAfter_reached _ _ _)⟩

/-- A field is written although another one holds a value that nobody recorded. -/
def foreignWrite : List Event → Bool
  | [] => false
  | .wrote _ _ current :: older =>
      !((recordOf older).cpu.any fun c => c.knows current) || foreignWrite older
  | _ :: older => foreignWrite older

theorem foreignWrite_spec (h : foreignWrite log = true) :
    ∃ newer older field values current, log = newer ++ .wrote field values current :: older ∧
      ∀ c, (recordOf older).cpu = some c → c.knows current = false := by
  induction log with
  | nil => cases h
  | cons e older ih =>
      have hskip : foreignWrite older = true →
          ∃ newer before field values current,
            e :: older = newer ++ .wrote field values current :: before ∧
              ∀ c, (recordOf before).cpu = some c → c.knows current = false := by
        intro hold
        obtain ⟨newer, before, field, values, current, rfl, hnone⟩ := ih hold
        exact ⟨e :: newer, before, field, values, current, rfl, hnone⟩
      cases e with
      | wrote field values current =>
          obtain hnone | hold := Bool.or_eq_true_iff.mp h
          · refine ⟨[], older, field, values, current, rfl, ?_⟩
            intro c hc
            simpa [hc] using hnone
          · exact hskip hold
      | _ => exact hskip h

/-- A policy that changes after it was read is written over. -/
theorem foreign_policy_written : ¬ ∀ (enc : Encoding) (w w' : World), Initial w →
    (advancedSystem enc).Reaches System.Any w w' →
    ∀ newer older field values current, w'.log = newer ++ .wrote field values current :: older →
      ∃ c, (recordOf older).cpu = some c ∧ c.knows current = true := by
  intro hclaim
  have hforeign : foreignWrite
      (sampleAfter outsideMoves (.setCpu (some "ondemand") (some 1500)) 30).log = true := by
    decide +kernel
  obtain ⟨newer, older, field, values, current, hlog, hnone⟩ := foreignWrite_spec hforeign
  obtain ⟨c, hc, hknows⟩ := hclaim Encoding.tagged _ _ (sampleWorld_initial _)
    (sampleAfter_reached _ _ _) newer older field values current hlog
  rw [hnone c hc] at hknows
  cases hknows

end Policy

end HccastWired.Advanced
