import HccastWired.Foundation.Path
import HccastWired.Live.SupervisorSafety

/-!
# Persisted intent is effective intent

Store, configuration and published mode agree, a refused command changes
nothing, and an attempt is created from what was stored in its generation.
-/

namespace HccastWired.Live

open Foundation

/-- The store's replacement either fails before it takes place or succeeds. -/
def AtomicSave (_ : Supervisor) : Action → Prop
  | .selectMode _ outcome => outcome ≠ .replacedNotSaved
  | .updateConfig _ outcome => outcome ≠ .replacedNotSaved
  | _ => True

/-- `DesiredMode(mode)` of a string. -/
def DesiredMode.parse : String → Option DesiredMode
  | "stopped" => some .stopped
  | "desktop" => some .desktop
  | "kiosk" => some .kiosk
  | _ => none

/-- `select_mode` of an unchecked value. -/
def Supervisor.selectModeValue (w : Supervisor) (value : String) (outcome : SaveOutcome) :
    Supervisor :=
  match DesiredMode.parse value with
  | some mode => w.selectMode mode outcome
  | none => w

/-- The configuration that the factory gets, or has got, for the next attempt. -/
def Pc.creates : Pc → Option LiveConfig
  | .creating config => some config
  | .installing _ config => some config
  | _ => none

variable {w v : Supervisor} {k : Worker}

/-- Store, configuration and published mode agree. -/
structure Intent (w : Supervisor) : Prop where
  stored : w.store = w.config
  desired : w.status.desiredMode = w.config.mode
  creates : ∀ k config, w.worker = some k → k.pc.creates = some config →
    w.generation = k.appliedGeneration → config = w.config

section Steps

/-- The attempt was already being created, or begins to be from the configuration. -/
def Creates (w : Supervisor) (k' : Worker) (config : LiveConfig) : Prop :=
  ∃ k, w.worker = some k ∧ k'.appliedGeneration = k.appliedGeneration ∧
    (k.pc.creates = some config ∨
      (k.pc = .ready ∧ config = w.config ∧ ¬ w.outdated k = true))

/-- A step that leaves the configuration alone and publishes its mode. -/
structure Keeps (w v : Supervisor) : Prop where
  store : v.store = w.store
  config : v.config = w.config
  generation : w.generation ≤ v.generation
  desired : v.status.desiredMode = w.config.mode
  creates : ∀ k' config, v.worker = some k' → k'.pc.creates = some config → Creates w k' config

theorem worker_inv (hinv : Inv w) (hk : w.worker = some k) : WorkerInv w k := by
  by_cases hs : w.started = true
  · obtain ⟨k', hk', hw⟩ := hinv.begun hs
    obtain rfl := Option.some.inj (hk.symm.trans hk')
    exact hw
  · rw [(hinv.unbegun (by simpa using hs)).1.worker] at hk
    cases hk

theorem Keeps.intent (h : Keeps w v) (hinv : Inv w) (hw : Intent w) : Intent v where
  stored := by rw [h.store, h.config, hw.stored]
  desired := by rw [h.desired, h.config]
  creates k' config hk' hc hgen := by
    obtain ⟨k, hk, happlied, hfrom⟩ := h.creates k' config hk' hc
    rw [h.config]
    rcases hfrom with hold | ⟨-, hnew, -⟩
    · have := (worker_inv hinv hk).applied
      have := h.generation
      exact hw.creates k config hk hold (by omega)
    · exact hnew

/-- The worker moves to a program counter that creates nothing. -/
theorem keeps_idle (hstore : v.store = w.store) (hconfig : v.config = w.config)
    (hgen : w.generation ≤ v.generation) (hdesired : v.status.desiredMode = w.config.mode) (hworker : v.worker = some k)
    (hidle : k.pc.creates = none) : Keeps w v where
  store := hstore
  config := hconfig
  generation := hgen
  desired := hdesired
  creates k' config hk hc := by
    obtain rfl := Option.some.inj (hworker.symm.trans hk)
    rw [hidle] at hc
    cases hc

/-- What the worker's own publications do to configuration and mode. -/
theorem publishClosed_intent (w : Supervisor) (result : CleanupResult)
    (hdesired : w.status.desiredMode = w.config.mode) :
    (w.publishClosed result).store = w.store ∧ (w.publishClosed result).config = w.config ∧
      (w.publishClosed result).status.desiredMode = w.config.mode ∧
      (w.publishClosed result).worker = w.worker ∧
      (w.publishClosed result).generation = w.generation := by
  simp only [Supervisor.publishClosed]
  split
  · exact ⟨rfl, rfl, hdesired, rfl, rfl⟩
  · exact ⟨rfl, rfl, rfl, rfl, rfl⟩

theorem keeps_published {result : CleanupResult} (hdesired : w.status.desiredMode = w.config.mode)
    (hidle : k.pc.creates = none) : Keeps w ((w.publishClosed result).withWorker k) := by
  obtain ⟨hstore, hconfig, hmode, -, hgen⟩ := publishClosed_intent w result hdesired
  exact keeps_idle hstore hconfig (Int.le_of_eq hgen.symm) hmode rfl hidle

theorem keeps_reconcile (hdesired : w.status.desiredMode = w.config.mode) :
    Keeps w (w.reconcile k) :=
  keeps_idle rfl rfl (Int.le_refl _) hdesired rfl rfl

theorem keeps_proceed {result : Option AttemptResult}
    (hdesired : w.status.desiredMode = w.config.mode) : Keeps w (w.proceed k result) := by
  unfold Supervisor.proceed
  dsimp only
  split
  · next hstopped => exact keeps_idle rfl rfl (Int.le_refl _) hstopped.symm rfl rfl
  cases result with
  | none => exact keeps_idle rfl rfl (Int.le_refl _) hdesired rfl rfl
  | some r =>
      dsimp only
      split
      · exact keeps_idle rfl rfl (Int.le_refl _) hdesired rfl rfl
      · exact keeps_idle rfl rfl (Int.le_refl _) hdesired rfl rfl

theorem keeps_settle {baseline : CleanupResult}
    (hdesired : w.status.desiredMode = w.config.mode) : Keeps w (w.settle k baseline) := by
  unfold Supervisor.settle
  dsimp only
  split
  · exact keeps_published hdesired rfl
  split
  · exact keeps_idle rfl rfl (Int.le_refl _) rfl rfl rfl
  · have hproceed := @keeps_proceed
      { w with
        unresolvedCleanup := none, lastCleanup := some (k.pendingCleanup.merge baseline) }
      { k with
        retryIndex := if w.generation ≠ k.appliedGeneration then 0 else k.retryIndex
        appliedGeneration := w.generation }
      (w.takeResult k) hdesired
    exact ⟨hproceed.store, hproceed.config, hproceed.generation, hproceed.desired,
      hproceed.creates⟩

theorem keeps_install {attempt : Nat} {config : LiveConfig} {now : Except Raised UtcTime}
    (h : Intent w) (hk : w.worker = some k) (hpc : k.pc = .installing attempt config) :
    Keeps w (w.install k attempt config now) := by
  unfold Supervisor.install
  split
  · exact keeps_reconcile h.desired
  next hgo =>
  obtain ⟨-, hgen⟩ := not_outdated hgo
  have hconfig : config = w.config := h.creates k config hk (by rw [hpc]; rfl) hgen
  cases now with
  | error e => exact keeps_idle rfl rfl (Int.le_refl _) h.desired rfl rfl
  | ok t => exact keeps_idle rfl rfl (Int.le_refl _) (congrArg LiveConfig.mode hconfig) rfl rfl

theorem keeps_clearAttempt {attempt : Nat} {result : Option AttemptResult}
    (hdesired : w.status.desiredMode = w.config.mode) :
    Keeps w (w.clearAttempt k attempt result) := by
  unfold Supervisor.clearAttempt
  dsimp only
  split <;> split <;> exact keeps_idle rfl rfl (Int.le_refl _) hdesired rfl rfl

theorem keeps_workerFailed {error : Raised} (hdesired : w.status.desiredMode = w.config.mode) :
    Keeps w (w.workerFailed k error) := by
  unfold Supervisor.workerFailed Supervisor.interruptAttempt
  dsimp only
  have hgen : w.generation ≤ w.generation + 1 := by omega
  split <;> exact keeps_idle rfl rfl hgen hdesired rfl rfl

/-- Every step of the worker keeps configuration, store and published mode. -/
theorem keeps_work {reply : Reply} (h : Intent w) (hk : w.worker = some k) {pc : Pc}
    (hpc : k.pc = pc) (hv : w.work k pc reply = some v) : Keeps w v := by
  unfold Supervisor.work at hv
  split at hv
  all_goals try cases hv
  case h_1 => exact keeps_idle rfl rfl (Int.le_refl _) h.desired rfl rfl
  case h_2 => exact keeps_settle h.desired
  case h_3 =>
    split at hv
    · obtain rfl := Option.some.inj hv
      exact keeps_reconcile h.desired
    · cases hv
  case h_4 =>
    unfold Supervisor.reportCompleted
    split
    · exact keeps_reconcile h.desired
    · exact keeps_idle rfl rfl (Int.le_refl _) h.desired rfl rfl
  case h_5 =>
    unfold Supervisor.reportRetry
    split
    · exact keeps_reconcile h.desired
    split
    · exact keeps_idle rfl rfl (Int.le_refl _) h.desired rfl rfl
    · exact keeps_idle rfl rfl (Int.le_refl _) h.desired rfl rfl
  case h_6 => exact keeps_reconcile h.desired
  case h_7 => exact keeps_idle rfl rfl (Int.le_refl _) h.desired rfl rfl
  case h_8 =>
    split
    · exact keeps_reconcile h.desired
    · exact keeps_idle rfl rfl (Int.le_refl _) h.desired rfl rfl
  case h_9 =>
    split
    · exact keeps_reconcile h.desired
    · next hgo =>
      refine ⟨rfl, rfl, Int.le_refl _, h.desired, fun k' config hk' hc => ?_⟩
      obtain rfl := Option.some.inj hk'
      exact ⟨k, hk, rfl, Or.inr ⟨hpc, (Option.some.inj hc).symm, hgo⟩⟩
  case h_10 config attempt =>
    refine ⟨rfl, rfl, Int.le_refl _, h.desired, fun k' config hk' hc => ?_⟩
    obtain rfl := Option.some.inj hk'
    exact ⟨k, hk, rfl, Or.inl (by rw [hpc]; exact hc)⟩
  case h_11 => exact keeps_idle rfl rfl (Int.le_refl _) h.desired rfl rfl
  case h_12 => exact keeps_install h hk hpc
  case h_18 => exact keeps_clearAttempt h.desired
  case h_19 => exact keeps_workerFailed h.desired
  case h_21 => exact keeps_published h.desired rfl
  all_goals exact keeps_idle rfl rfl (Int.le_refl _) h.desired rfl rfl

/-- A new generation leaves no created attempt behind that is of the current one. -/
theorem Intent.newGeneration (hinv : Inv w) (hstored : v.store = v.config)
    (hdesired : v.status.desiredMode = v.config.mode) (hworker : v.worker = w.worker)
    (hgen : v.generation = w.generation + 1) : Intent v := by
  refine ⟨hstored, hdesired, fun k config hk _ happlied => ?_⟩
  have := (worker_inv hinv (hworker ▸ hk)).applied
  omega

theorem interruptAttempt_intent (w : Supervisor) :
    w.interruptAttempt.store = w.store ∧ w.interruptAttempt.config = w.config ∧
      w.interruptAttempt.status = w.status ∧ w.interruptAttempt.worker = w.worker ∧
      w.interruptAttempt.generation = w.generation := by
  unfold Supervisor.interruptAttempt
  split <;> exact ⟨rfl, rfl, rfl, rfl, rfl⟩

/-- A command that begins a new generation and publishes the configured mode. -/
theorem Intent.bumped {u : Supervisor} {status : RuntimeStatus} (hinv : Inv w)
    (hstored : u.store = u.config) (hworker : u.worker = w.worker)
    (hgen : u.generation = w.generation) (hstatus : status.desiredMode = u.config.mode) :
    Intent { u.bump.interruptAttempt with status } := by
  obtain ⟨hs, hc, -, hw, hg⟩ := interruptAttempt_intent u.bump
  refine Intent.newGeneration hinv ?_ ?_ (hw.trans hworker) (hg.trans (congrArg (· + 1) hgen))
  · exact (hs.trans hstored).trans hc.symm
  · exact hstatus.trans (congrArg LiveConfig.mode hc.symm)

/-- A step that leaves configuration, generation, worker and published mode alone. -/
theorem Intent.unchanged (h : Intent w) (hstore : v.store = w.store) (hconfig : v.config = w.config)
    (hdesired : v.status.desiredMode = w.status.desiredMode) (hworker : v.worker = w.worker)
    (hgen : v.generation = w.generation) : Intent v where
  stored := by rw [hstore, hconfig, h.stored]
  desired := by rw [hdesired, hconfig, h.desired]
  creates k config hk hc happlied := by
    rw [hconfig]
    exact h.creates k config (hworker ▸ hk) hc (hgen ▸ happlied)

theorem intent_selectMode (hinv : Inv w) (h : Intent w) (mode : DesiredMode)
    {outcome : SaveOutcome} (hatomic : outcome ≠ .replacedNotSaved) :
    Intent (w.selectMode mode outcome) := by
  unfold Supervisor.selectMode Supervisor.save
  split
  · exact h
  cases outcome with
  | saved =>
      obtain ⟨-, hc, -⟩ := interruptAttempt_intent
        ({ w with store := { w.config with mode := mode }, config := { w.config with mode := mode } } :
          Supervisor).bump
      exact @Intent.bumped w { w with
        store := { w.config with mode := mode }, config := { w.config with mode := mode } } _ hinv
        rfl rfl rfl rfl
  | notSaved => exact h
  | replacedNotSaved => exact absurd rfl hatomic

/-- While a created attempt is of the current generation the mode is active. -/
theorem active_of_creates (hinv : Inv w) (hopen : w.closing = false) {config : LiveConfig}
    (hk : w.worker = some k) (hc : k.pc.creates = some config)
    (hgen : w.generation = k.appliedGeneration) : w.config.mode ≠ .stopped := by
  have hat := (worker_inv hinv hk).safe hopen
  cases hpc : k.pc <;> rw [hpc] at hc hat <;> first
    | exact hat.active hgen
    | cases hc

/-- A worker that is ready in the current generation has an active mode. -/
theorem ready_active (hinv : Inv w) (hopen : w.closing = false) (hk : w.worker = some k)
    (hpc : k.pc = .ready) (hgen : w.generation = k.appliedGeneration) :
    w.config.mode ≠ .stopped := by
  have hw := worker_inv hinv hk
  have hat := hw.safe hopen
  rw [hpc] at hat
  exact hat.active hgen

theorem intent_updateConfig (hinv : Inv w) (h : Intent w) {replacement : Option LiveConfig}
    {outcome : SaveOutcome} (hatomic : outcome ≠ .replacedNotSaved)
    (hmode : replacement.all (·.mode = w.config.mode) = true) :
    Intent (w.updateConfig replacement outcome) := by
  unfold Supervisor.updateConfig Supervisor.save
  split
  · exact h
  next hopen =>
  have hopen : w.closing = false := by simpa using hopen
  cases replacement with
  | none => exact h
  | some replacement =>
      have hmode : replacement.mode = w.config.mode := by simpa using hmode
      dsimp only
      split
      · exact h
      cases outcome with
      | saved =>
          dsimp only
          split
          · exact @Intent.bumped w { w with store := replacement, config := replacement } _ hinv
              rfl rfl rfl rfl
          · next hstopped =>
            refine ⟨rfl, h.desired.trans hmode.symm, fun k config hk hc hgen => ?_⟩
            have hactive := active_of_creates hinv hopen hk hc hgen
            simp [hmode, hactive] at hstopped
      | notSaved => exact h
      | replacedNotSaved => exact absurd rfl hatomic

theorem intent_restart (hinv : Inv w) (h : Intent w) : Intent w.restart := by
  unfold Supervisor.restart
  split
  · exact h
  split
  · exact h
  · refine @Intent.bumped w w _ hinv h.stored rfl rfl ?_
    obtain ⟨-, -, hstatus, -⟩ := interruptAttempt_intent w.bump
    exact (congrArg RuntimeStatus.desiredMode hstatus).trans h.desired

theorem intent_start (hinv : Inv w) (h : Intent w) (spawned : Bool) : Intent (w.start spawned) := by
  unfold Supervisor.start
  split
  · exact h
  split
  · have hkeeps : Keeps w ((({ w with started := true } : Supervisor).note .workerBegan).reconcile
        { pc := .reconciling }) := keeps_idle rfl rfl (Int.le_refl _) h.desired rfl rfl
    exact hkeeps.intent hinv h
  · have hkeeps : Keeps w (({ w with started := true } : Supervisor).withWorker
        { pc := .unstarted }) := keeps_idle rfl rfl (Int.le_refl _) h.desired rfl rfl
    exact hkeeps.intent hinv h

theorem intent_announceClose (hinv : Inv w) (h : Intent w) : Intent w.announceClose := by
  refine @Intent.bumped w { w with closing := true } _ hinv h.stored rfl rfl ?_
  obtain ⟨-, -, hstatus, -⟩ := interruptAttempt_intent ({ w with closing := true } : Supervisor).bump
  exact (congrArg RuntimeStatus.desiredMode hstatus).trans h.desired

theorem Intent.closed (h : Intent w) (id : Nat) (pc : ClosePc) : Intent (w.closed id pc) :=
  h.unchanged rfl rfl rfl rfl rfl

theorem Intent.closer (h : Intent w) (id : Nat) (pc : ClosePc) : Intent (w.closer id pc) :=
  h.unchanged rfl rfl rfl rfl rfl

theorem intent_beginClose (hinv : Inv w) (h : Intent w) (id : Nat) : Intent (w.beginClose id) := by
  unfold Supervisor.beginClose
  split
  · split
    · exact h.closer id _
    · exact h.closed id _
  · split
    · exact (intent_announceClose hinv h).closer id _
    · exact ((intent_announceClose hinv h).unchanged (v := w.announceClose.note .reconcileCalled)
        rfl rfl rfl rfl rfl).closer id _

theorem intent_joined {id : Nat} {next : Supervisor} (h : Intent w) (hnext : Intent next)
    (hv : w.joined id next = some v) : Intent v := by
  unfold Supervisor.joined at hv
  split at hv
  · cases hv
    exact hnext
  · cases hv
    exact h.closed id _
  · cases hv

theorem intent_publishClosed (h : Intent w) (result : CleanupResult) :
    Intent (w.publishClosed result) := by
  obtain ⟨hstore, hconfig, hmode, hworker, hgen⟩ := publishClosed_intent w result h.desired
  exact h.unchanged hstore hconfig (hmode.trans h.desired.symm) hworker hgen

theorem intent_closeStep {id : Nat} {outcome : Except Raised CleanupResult} {pc : ClosePc}
    (hinv : Inv w) (h : Intent w) (hv : w.closeStep id outcome pc = some v) : Intent v := by
  cases pc with
  | closeLock =>
      simp only [Supervisor.closeStep] at hv
      split at hv
      · cases hv
        exact h.unchanged rfl rfl rfl rfl rfl
      · cases hv
  | «section» =>
      cases hv
      exact intent_beginClose hinv h id
  | joinReturn result => exact intent_joined h (h.closed id _) hv
  | reconciling =>
      cases hv
      exact h.unchanged rfl rfl rfl rfl rfl
  | publishing result =>
      cases hv
      exact (intent_publishClosed h result).closed id _
  | join => exact intent_joined h (h.closer id _) hv
  | collect =>
      simp only [Supervisor.closeStep] at hv
      split at hv
      · cases hv
        exact h.closed id _
      · cases hv
        exact (intent_publishClosed h _).closed id _
  | returned result => cases hv
  | raised => cases hv

theorem intent_publish (h : Intent w) (k : Worker) (event : AttemptEvent) :
    Intent (w.publish k event) := by
  unfold Supervisor.publish
  split
  · exact h
  · exact h.unchanged rfl rfl rfl rfl rfl

/-- Every action under the store's assumption keeps store and configuration together. -/
theorem step_intent {a : Action} (hinv : Inv w) (h : Intent w) (hatomic : AtomicSave w a)
    (hv : w.step a = some v) : Intent v := by
  cases a with
  | start spawned =>
      cases hv
      exact intent_start hinv h spawned
  | selectMode mode outcome =>
      cases hv
      exact intent_selectMode hinv h mode hatomic
  | updateConfig replacement outcome =>
      simp only [Supervisor.step] at hv
      split at hv
      · next hmode =>
        cases hv
        exact intent_updateConfig hinv h hatomic hmode
      · cases hv
  | restart =>
      cases hv
      exact intent_restart hinv h
  | close id =>
      simp only [Supervisor.step] at hv
      split at hv
      · cases hv
        exact h.closer id _
      · cases hv
  | closeStep id outcome =>
      obtain ⟨pc, -, hv⟩ := Option.bind_eq_some_iff.mp hv
      exact intent_closeStep hinv h hv
  | publish attempt event =>
      simp only [Supervisor.step] at hv
      split at hv
      · obtain ⟨k, -, rfl⟩ := Option.map_eq_some_iff.mp hv
        exact intent_publish h k event
      · cases hv
  | work reply =>
      obtain ⟨k, hk, hv⟩ := Option.bind_eq_some_iff.mp hv
      exact (keeps_work h hk rfl hv).intent hinv h

end Steps

section Created

/-- How a step changes generation and configuration: not at all, into the next
generation, or within a stopped one. -/
def Ages (w v : Supervisor) : Prop :=
  (v.config = w.config ∧ w.generation ≤ v.generation) ∨ v.generation = w.generation + 1 ∨
    (v.generation = w.generation ∧ w.config.mode = .stopped ∧ v.config.mode = .stopped)

/-- A step of a client's call. -/
structure Outside (w v : Supervisor) : Prop where
  worker : v.worker = w.worker
  ages : Ages w v

theorem Outside.same (hworker : v.worker = w.worker) (hconfig : v.config = w.config)
    (hgen : v.generation = w.generation) : Outside w v :=
  ⟨hworker, Or.inl ⟨hconfig, Int.le_of_eq hgen.symm⟩⟩

theorem outside_bumped {u : Supervisor} {status : RuntimeStatus} (hworker : u.worker = w.worker)
    (hgen : u.generation = w.generation) : Outside w { u.bump.interruptAttempt with status } := by
  obtain ⟨-, -, -, hw, hg⟩ := interruptAttempt_intent u.bump
  exact ⟨hw.trans hworker, Or.inr (Or.inl (hg.trans (congrArg (· + 1) hgen)))⟩

theorem outside_selectMode (w : Supervisor) (mode : DesiredMode) (outcome : SaveOutcome) :
    Outside w (w.selectMode mode outcome) := by
  unfold Supervisor.selectMode Supervisor.save
  split
  · exact .same rfl rfl rfl
  cases outcome with
  | saved =>
      exact @outside_bumped w { w with
        store := { w.config with mode := mode }, config := { w.config with mode := mode } } _ rfl rfl
  | notSaved => exact .same rfl rfl rfl
  | replacedNotSaved => exact .same rfl rfl rfl

theorem outside_updateConfig {replacement : Option LiveConfig} {outcome : SaveOutcome}
    (hmode : replacement.all (·.mode = w.config.mode) = true) :
    Outside w (w.updateConfig replacement outcome) := by
  unfold Supervisor.updateConfig Supervisor.save
  split
  · exact .same rfl rfl rfl
  cases replacement with
  | none => exact .same rfl rfl rfl
  | some replacement =>
      have hmode : replacement.mode = w.config.mode := by simpa using hmode
      dsimp only
      split
      · exact .same rfl rfl rfl
      cases outcome with
      | saved =>
          dsimp only
          split
          · exact @outside_bumped w { w with store := replacement, config := replacement } _ rfl rfl
          · next hstopped =>
            have hstopped : replacement.mode = .stopped := by simpa using hstopped
            exact ⟨rfl, Or.inr (Or.inr ⟨rfl, hmode ▸ hstopped, hstopped⟩)⟩
      | notSaved => exact .same rfl rfl rfl
      | replacedNotSaved => exact .same rfl rfl rfl

theorem outside_joined {id : Nat} {next : Supervisor} (hnext : Outside w next)
    (hv : w.joined id next = some v) : Outside w v := by
  unfold Supervisor.joined at hv
  split at hv
  · cases hv
    exact hnext
  · cases hv
    exact .same rfl rfl rfl
  · cases hv

theorem outside_closeStep {id : Nat} {outcome : Except Raised CleanupResult} {pc : ClosePc}
    (hdesired : w.status.desiredMode = w.config.mode) (hv : w.closeStep id outcome pc = some v) :
    Outside w v := by
  have published : ∀ result, Outside w ((w.publishClosed result).closed id (.returned result)) := by
    intro result
    obtain ⟨-, hconfig, -, hworker, hgen⟩ := publishClosed_intent w result hdesired
    exact .same hworker hconfig hgen
  cases pc with
  | closeLock =>
      simp only [Supervisor.closeStep] at hv
      split at hv
      · cases hv
        exact .same rfl rfl rfl
      · cases hv
  | «section» =>
      cases hv
      have hclose : Outside w w.announceClose := @outside_bumped w { w with closing := true } _ rfl rfl
      unfold Supervisor.beginClose
      split
      · split <;> exact .same rfl rfl rfl
      · split <;> exact ⟨hclose.worker, hclose.ages⟩
  | joinReturn result =>
      have hnext : Outside w (w.closed id (.returned result)) := .same rfl rfl rfl
      exact outside_joined hnext hv
  | reconciling =>
      cases hv
      exact .same rfl rfl rfl
  | publishing result =>
      cases hv
      exact published result
  | join =>
      have hnext : Outside w (w.closer id .collect) := .same rfl rfl rfl
      exact outside_joined hnext hv
  | collect =>
      simp only [Supervisor.closeStep] at hv
      split at hv
      · cases hv
        exact .same rfl rfl rfl
      · cases hv
        exact published _
  | returned result => cases hv
  | raised => cases hv

/-- Every step but those of the worker and its start leaves the worker alone. -/
theorem step_outside {a : Action} (h : Intent w) (hv : w.step a = some v)
    (hstart : ∀ spawned, a ≠ .start spawned) (hwork : ∀ reply, a ≠ .work reply) : Outside w v := by
  cases a with
  | start spawned => exact absurd rfl (hstart spawned)
  | selectMode mode outcome =>
      cases hv
      exact outside_selectMode w mode outcome
  | updateConfig replacement outcome =>
      simp only [Supervisor.step] at hv
      split at hv
      · next hmode =>
        cases hv
        exact outside_updateConfig hmode
      · cases hv
  | restart =>
      cases hv
      unfold Supervisor.restart
      split
      · exact .same rfl rfl rfl
      split
      · exact .same rfl rfl rfl
      · exact @outside_bumped w w _ rfl rfl
  | close id =>
      simp only [Supervisor.step] at hv
      split at hv
      · cases hv
        exact .same rfl rfl rfl
      · cases hv
  | closeStep id outcome =>
      obtain ⟨pc, -, hv⟩ := Option.bind_eq_some_iff.mp hv
      exact outside_closeStep h.desired hv
  | publish attempt event =>
      simp only [Supervisor.step] at hv
      split at hv
      · obtain ⟨k, -, rfl⟩ := Option.map_eq_some_iff.mp hv
        unfold Supervisor.publish
        split <;> exact .same rfl rfl rfl
      · cases hv
  | work reply => exact absurd rfl (hwork reply)

theorem step_ages {a : Action} (h : Intent w) (hv : w.step a = some v) : Ages w v := by
  cases a with
  | start spawned =>
      cases hv
      unfold Supervisor.start
      split
      · exact Or.inl ⟨rfl, Int.le_refl _⟩
      · split <;> exact Or.inl ⟨rfl, Int.le_refl _⟩
  | work reply =>
      obtain ⟨k, hk, hv⟩ := Option.bind_eq_some_iff.mp hv
      have hkeeps := keeps_work h hk rfl hv
      exact Or.inl ⟨hkeeps.config, hkeeps.generation⟩
  | _ => exact (step_outside h hv (by simp) (by simp)).ages

/-- How a step creates an attempt. -/
theorem step_creates {a : Action} {config : LiveConfig} (h : Intent w) (hv : w.step a = some v)
    (hk : v.worker = some k) (hc : k.pc.creates = some config) : Creates w k config := by
  have unchanged : v.worker = w.worker → Creates w k config := fun hworker =>
    ⟨k, hworker ▸ hk, rfl, Or.inl hc⟩
  cases a with
  | start spawned =>
      cases hv
      unfold Supervisor.start at hk
      split at hk
      · exact ⟨k, hk, rfl, Or.inl hc⟩
      · split at hk <;> (cases hk; cases hc)
  | work reply =>
      obtain ⟨k', hk', hv⟩ := Option.bind_eq_some_iff.mp hv
      exact (keeps_work h hk' rfl hv).creates k config hk hc
  | _ => exact unchanged (step_outside h hv (by simp) (by simp)).worker

/-- The past of a state whose generation is the current one had its configuration. -/
structure Past (past : List (Supervisor × Action)) (w : Supervisor) : Prop where
  intent : ∀ p ∈ past, Intent p.1
  generation : ∀ p ∈ past, p.1.generation ≤ w.generation
  config : ∀ p ∈ past, p.1.generation = w.generation →
    p.1.config.mode = w.config.mode ∧ (w.config.mode ≠ .stopped → p.1.config = w.config)
  creates : ∀ k config, w.worker = some k → k.pc.creates = some config →
    (∃ p ∈ past, p.1.generation = k.appliedGeneration) ∧
      ∀ p ∈ past, p.1.generation = k.appliedGeneration → p.1.store = config

theorem Past.ages {past : List (Supervisor × Action)} {a : Action} (h : Past past w)
    (hages : Ages w v) : (∀ p ∈ (w, a) :: past, p.1.generation ≤ v.generation) ∧
      ∀ p ∈ (w, a) :: past, p.1.generation = v.generation →
        p.1.config.mode = v.config.mode ∧ (v.config.mode ≠ .stopped → p.1.config = v.config) := by
  have hgrows : w.generation ≤ v.generation := by
    rcases hages with ⟨-, hle⟩ | hgen | ⟨hgen, -⟩ <;> omega
  have hnow : w.generation = v.generation →
      w.config.mode = v.config.mode ∧ (v.config.mode ≠ .stopped → w.config = v.config) := by
    intro hsame
    rcases hages with ⟨hconfig, -⟩ | hgen | ⟨-, hold, hnew⟩
    · exact ⟨by rw [hconfig], fun _ => hconfig.symm⟩
    · omega
    · exact ⟨hold.trans hnew.symm, fun hactive => absurd hnew hactive⟩
  constructor
  · intro p hp
    rcases List.mem_cons.mp hp with rfl | hp
    · exact hgrows
    · have := h.generation p hp
      omega
  · intro p hp hsame
    rcases List.mem_cons.mp hp with rfl | hp
    · exact hnow hsame
    · have hle := h.generation p hp
      have hwv : w.generation = v.generation := by omega
      obtain ⟨hmode, hconfig⟩ := h.config p hp (by omega)
      obtain ⟨hmode', hconfig'⟩ := hnow hwv
      refine ⟨hmode.trans hmode', fun hactive => ?_⟩
      rw [hconfig (by rw [hmode']; exact hactive), hconfig' hactive]

/-- The past fits every state of a run. -/
theorem path_past {config : LiveConfig} {past : List (Supervisor × Action)}
    (run : supervisorSystem.Path AtomicSave (Supervisor.create config) past w) :
    Inv w ∧ Intent w ∧ Past past w := by
  refine run.invariant (P := fun past w => Inv w ∧ Intent w ∧ Past past w) ?_ ?_
  · refine ⟨reaches_inv .refl, ⟨rfl, rfl, fun k _ hk => by cases hk⟩, ?_⟩
    exact ⟨by simp, by simp, by simp, fun k _ hk => by cases hk⟩
  · rintro past w a v - ⟨hinv, hintent, hpast⟩ hatomic hv
    refine ⟨step_inv hinv hv, step_intent hinv hintent hatomic hv, ?_⟩
    obtain ⟨hgen, hconfig⟩ := hpast.ages (a := a) (step_ages hintent hv)
    refine ⟨fun p hp => ?_, hgen, hconfig, fun k config hk hc => ?_⟩
    · rcases List.mem_cons.mp hp with rfl | hp
      · exact hintent
      · exact hpast.intent p hp
    obtain ⟨k', hk', happlied, hfrom⟩ := step_creates hintent hv hk hc
    rw [happlied]
    rcases hfrom with hold | ⟨hready, rfl, hgo⟩
    · obtain ⟨⟨p, hp, hsame⟩, hall⟩ := hpast.creates k' config hk' hold
      refine ⟨⟨p, List.mem_cons_of_mem _ hp, hsame⟩, fun p hp hsame => ?_⟩
      rcases List.mem_cons.mp hp with rfl | hp
      · rw [hintent.stored, hintent.creates k' config hk' hold hsame]
      · exact hall p hp hsame
    · obtain ⟨hopen, hnow⟩ := not_outdated hgo
      have hactive : w.config.mode ≠ .stopped := ready_active hinv hopen hk' hready hnow
      refine ⟨⟨(w, a), List.mem_cons_self, hnow⟩, fun p hp hsame => ?_⟩
      rcases List.mem_cons.mp hp with rfl | hp
      · exact hintent.stored
      · rw [(hpast.intent p hp).stored, (hpast.config p hp (by omega)).2 hactive]

/-- Under a store whose replacement fails before it takes place or succeeds:
store, configuration and published mode agree; a command that is refused or not
saved changes nothing; the factory gets what the store held in every state of
the run whose generation the attempt is for. -/
theorem persisted_intent {config : LiveConfig} {past : List (Supervisor × Action)}
    (run : supervisorSystem.Path AtomicSave (Supervisor.create config) past w) :
    (w.store = w.config ∧ w.status.desiredMode = w.config.mode) ∧
    ((∀ mode, w.selectMode mode .notSaved = w) ∧
      (∀ value outcome, DesiredMode.parse value = none → w.selectModeValue value outcome = w) ∧
      (∀ outcome, w.updateConfig none outcome = w) ∧
      ∀ replacement, w.updateConfig (some replacement) .notSaved = w) ∧
    ∀ k created, w.worker = some k → k.pc.creates = some created →
      (∃ p ∈ past, p.1.generation = k.appliedGeneration) ∧
        ∀ p ∈ past, p.1.generation = k.appliedGeneration → p.1.store = created := by
  obtain ⟨-, hintent, hpast⟩ := path_past run
  refine ⟨⟨hintent.stored, hintent.desired⟩, ⟨?_, ?_, ?_, ?_⟩, hpast.creates⟩
  · intro mode
    unfold Supervisor.selectMode Supervisor.save
    split <;> rfl
  · intro value outcome hvalue
    simp only [Supervisor.selectModeValue, hvalue]
  · intro outcome
    unfold Supervisor.updateConfig
    split <;> rfl
  · intro replacement
    unfold Supervisor.updateConfig Supervisor.save
    split
    · rfl
    · dsimp only
      split <;> rfl

/-- A stopped supervisor is switched to the desktop and asks for an attempt. -/
def selectDesktop : List Action :=
  [.start true, .work (.cleanup (.ok .empty)), .work (.locked (.ok 0)), .selectMode .desktop .saved,
    .work (.locked (.ok 0)), .work (.cleanup (.ok .empty)), .work (.locked (.ok 0)),
    .work (.locked (.ok 0))]

theorem persisted_intent_desktop :
    ∃ w past, supervisorSystem.Path AtomicSave
        (Supervisor.create ⟨.stopped, "", 30, 4000, "user", false⟩) past w ∧
      w.store = w.config ∧
      ∃ p ∈ past, p.1.generation = 1 ∧ p.1.store = ⟨.desktop, "", 30, 4000, "user", false⟩ := by
  have hexec : (supervisorSystem.exec (Supervisor.create ⟨.stopped, "", 30, 4000, "user", false⟩)
      selectDesktop).any (fun w => w.worker.any fun k =>
        k.pc.creates = some ⟨.desktop, "", 30, 4000, "user", false⟩ ∧ k.appliedGeneration = 1) =
          true := by decide +kernel
  obtain ⟨w, hw, hany⟩ := (Option.any_eq_true ..).mp hexec
  obtain ⟨k, hk, hall⟩ := (Option.any_eq_true ..).mp hany
  obtain ⟨hcreates, happlied⟩ := of_decide_eq_true hall
  have hok : ∀ u, ∀ a ∈ selectDesktop, AtomicSave u a := by
    intro u a ha
    simp only [selectDesktop, List.mem_cons, List.not_mem_nil, or_false] at ha
    rcases ha with rfl | rfl | rfl | rfl | rfl | rfl | rfl | rfl <;> simp [AtomicSave]
  obtain ⟨past, run⟩ := System.path_of_exec hok hw
  obtain ⟨⟨hstored, -⟩, -, hcreated⟩ := persisted_intent run
  obtain ⟨⟨p, hp, hgen⟩, hall⟩ := hcreated k _ hk hcreates
  exact ⟨w, past, run, hstored, p, hp, hgen.trans happlied, hall p hp hgen⟩

end Created

end HccastWired.Live
