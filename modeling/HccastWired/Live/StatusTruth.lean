import HccastWired.Live.Shutdown

/-!
# Truthfulness of the published status

Who writes the phases of an attempt, what a result of an earlier generation
can still change, and what the status says while the worker waits.
-/

namespace HccastWired.Live

open Foundation

/-- The phases that only an attempt's event publishes. -/
def RuntimePhase.isLive : RuntimePhase → Bool
  | .waitingForScreen => true
  | .handshaking => true
  | .streaming => true
  | _ => false

/-- The latest installation. -/
def installation : List Event → Option Installation
  | [] => none
  | .installed i :: _ => some i
  | _ :: rest => installation rest

/-- The worker is before the installation of its next attempt. -/
def Pc.isIdle : Pc → Bool
  | .unstarted => true
  | .reconciling => true
  | .settling _ => true
  | .waiting => true
  | .completed _ => true
  | .failed _ => true
  | .retryWait _ => true
  | .retried => true
  | .ready => true
  | .creating _ => true
  | .installing _ _ => true
  | _ => false

def Pc.isSettling : Pc → Bool
  | .settling _ => true
  | _ => false

/-- The attempt that is current was installed for the current generation. -/
def Supervisor.current (w : Supervisor) (n : Nat) : Prop :=
  w.closing = false ∧ w.currentAttempt = some n ∧
    ∃ i, installation w.log = some i ∧ i.attempt = n ∧ i.generation = w.generation

/-- No attempt calls its callback while another one is current and the worker
is up to date: the callback looks the current attempt up when it is called. -/
def prompt (w : Supervisor) : Action → Bool
  | .publish n _ =>
      w.worker.all (w.outdated ·) || w.currentAttempt = some n || w.currentAttempt = none
  | _ => true

/-- The result of an attempt of a generation, or of its failed creation. -/
def ResultOf (w : Supervisor) (r : AttemptResult) (generation : Int) : Prop :=
  (∃ n cleanup, .ended n generation (some r) cleanup ∈ w.log) ∨
    ∃ e, .createRaised generation ∈ w.log ∧ r = .ofException e .empty

/-- The worker without what its last attempt has left behind. -/
def Worker.forget (k : Worker) : Worker :=
  { k with
    retryIndex := 0, pendingCleanup := .empty, pendingResult := none, pendingGeneration := none }

variable {w v : Supervisor} {k k' : Worker}

/-- A pending result is one of the generation the worker has applied. -/
def Pending (w : Supervisor) (k : Worker) : Prop :=
  ∀ r, k.pendingResult = some r →
    k.pendingGeneration = some k.appliedGeneration ∧ ResultOf w r k.appliedGeneration

/-- No command has come in since the worker applied the generation. -/
def Supervisor.settled (w : Supervisor) (k : Worker) : Prop :=
  w.closing = false ∧ w.generation = k.appliedGeneration

def TruthAt (w : Supervisor) (k : Worker) : Pc → Prop
  | .waiting => w.settled k → w.status.phase = .stopped ∨ w.status.phase = .error
  | .completed r => ResultOf w r k.appliedGeneration
  | .failed _ => ∃ r, ResultOf w r k.appliedGeneration
  | .retryWait _ => w.settled k → w.status.phase = .retrying
  | .installing n _ => k.attempt = some n
  | .launching n _ => k.attempt = some n
  | .running n _ => k.attempt = some n
  | .stopping n _ => k.attempt = some n
  | .ending n result => k.attempt = some n ∧
      ∀ r, result = some r → ResultOf w r k.appliedGeneration
  | _ => True

structure WorkerTruth (w : Supervisor) (k : Worker) : Prop where
  current : ∀ n, w.currentAttempt = some n → k.attempt = some n ∧
    ∃ i, installation w.log = some i ∧ i.attempt = n ∧ i.generation = k.appliedGeneration
  launched : ∀ n, .runStarted n ∈ w.log → k.attempt ≠ none
  idle : k.pc.isIdle = true → w.currentAttempt = none ∧ Pending w k
  at_pc : TruthAt w k k.pc

structure Truth (w : Supervisor) : Prop where
  unbegun : w.worker = none → w.currentAttempt = none ∧ ∀ n, .runStarted n ∉ w.log
  worker : ∀ k, w.worker = some k → WorkerTruth w k

section Status

theorem publishClosed_phase (w : Supervisor) (result : CleanupResult) :
    (w.publishClosed result).status.phase.isLive = false := by
  unfold Supervisor.publishClosed
  dsimp only
  split <;> rfl

theorem proceed_phase (w : Supervisor) (k : Worker) (result : Option AttemptResult) :
    (w.proceed k result).status.phase = w.status.phase ∨
      (w.proceed k result).status.phase.isLive = false := by
  unfold Supervisor.proceed
  dsimp only
  split
  · exact Or.inr rfl
  · cases result with
    | none => exact Or.inl rfl
    | some r =>
        dsimp only
        split
        · exact Or.inl rfl
        · exact Or.inl rfl

theorem settle_phase (w : Supervisor) (k : Worker) (baseline : CleanupResult) :
    (w.settle k baseline).status.phase = w.status.phase ∨
      (w.settle k baseline).status.phase.isLive = false := by
  unfold Supervisor.settle
  dsimp only
  split
  · exact Or.inr (publishClosed_phase w _)
  split
  · exact Or.inr rfl
  · exact proceed_phase { w with
      unresolvedCleanup := none, lastCleanup := some (k.pendingCleanup.merge baseline) } _ _

/-- What a step of the worker writes to the status. -/
theorem work_status {pc : Pc} {reply : Reply} (hv : w.work k pc reply = some v) :
    (v.status.phase = w.status.phase ∨ v.status.phase.isLive = false) ∧
    (w.outdated k = true → pc.isSettling = false → pc.isDead = false → v.status = w.status) := by
  have same : ∀ {u : Supervisor}, u.status = w.status →
      (u.status.phase = w.status.phase ∨ u.status.phase.isLive = false) ∧
      (w.outdated k = true → pc.isSettling = false → pc.isDead = false → u.status = w.status) :=
    fun hs => ⟨Or.inl (by rw [hs]), fun _ _ _ => hs⟩
  have fresh : ∀ {u : Supervisor}, ¬ w.outdated k = true → u.status.phase.isLive = false →
      (u.status.phase = w.status.phase ∨ u.status.phase.isLive = false) ∧
      (w.outdated k = true → pc.isSettling = false → pc.isDead = false → u.status = w.status) :=
    fun hgo hs => ⟨Or.inr hs, fun hout => absurd hout hgo⟩
  unfold Supervisor.work at hv
  split at hv
  all_goals try cases hv
  case h_2 baseline _ => exact ⟨settle_phase w k baseline, fun _ hs => by cases hs⟩
  case h_3 =>
    split at hv
    · cases hv
      exact same rfl
    · cases hv
  case h_4 =>
    unfold Supervisor.reportCompleted
    split
    · exact same rfl
    · next hgo => exact fresh hgo rfl
  case h_5 =>
    unfold Supervisor.reportRetry
    split
    · exact same rfl
    next hgo =>
    split
    · exact same rfl
    · exact fresh hgo rfl
  case h_8 => split <;> exact same rfl
  case h_9 => split <;> exact same rfl
  case h_12 =>
    unfold Supervisor.install
    split
    · exact same rfl
    next hgo =>
    dsimp only
    split
    · exact same rfl
    · exact fresh hgo rfl
  case h_18 attempt result _ =>
    have quiet : ∀ {u : Supervisor}, u.outdated k = w.outdated k →
        (result.isSome && !u.outdated k) = true → ¬ w.outdated k = true := by
      intro u hu hgo hout
      rw [hu, hout, Bool.not_true, Bool.and_false] at hgo
      cases hgo
    unfold Supervisor.clearAttempt
    dsimp only
    split
    · split
      · next hgo => exact fresh (quiet rfl hgo) rfl
      · exact same rfl
    · split
      · next hgo => exact fresh (quiet rfl hgo) rfl
      · exact same rfl
  case h_19 => exact ⟨Or.inr (by unfold Supervisor.workerFailed; rfl), fun _ _ hd => by cases hd⟩
  case h_21 => exact ⟨Or.inr (publishClosed_phase w _), fun _ _ hd => by cases hd⟩
  all_goals exact same rfl

theorem publishClosed_status {result : CleanupResult} (h : result.success = false) :
    (w.publishClosed result).status = (w.publishCleanupError result).status := by
  unfold Supervisor.publishClosed
  dsimp only
  rw [if_neg (by simp [h])]
  rfl

/-- The closing status looks at a cleanup's success and the text of its errors. -/
theorem publishClosed_congr {a b : CleanupResult} (hs : a.success = b.success)
    (ht : a.errorText = b.errorText) : (w.publishClosed a).status = (w.publishClosed b).status := by
  unfold Supervisor.publishClosed
  dsimp only
  rw [hs]
  split
  · rfl
  · simp [Supervisor.publishCleanupError, ht]

theorem withUnresolved_congr {a b : CleanupResult} (hs : a.success = b.success)
    (he : a.errors = b.errors) :
    (w.withUnresolved a).success = (w.withUnresolved b).success ∧
      (w.withUnresolved a).errorText = (w.withUnresolved b).errorText := by
  unfold Supervisor.withUnresolved
  split
  · exact ⟨by simp [hs], by simp [CleanupResult.errorText, CleanupResult.merge, he]⟩
  · exact ⟨hs, by simp [CleanupResult.errorText, he]⟩

theorem withUnresolved_failed {checked : CleanupResult} (h : checked.success = false) :
    (w.withUnresolved checked).success = false := by
  unfold Supervisor.withUnresolved
  split <;> simp [h]

/-- Without a result to take over, only the configuration decides how to go on. -/
theorem proceed_congr {u : Supervisor} (hstatus : u.status = w.status) (hconfig : u.config = w.config)
    (happlied : k'.appliedGeneration = k.appliedGeneration) (hretry : k'.retryIndex = k.retryIndex)
    (hattempt : k'.attempt = k.attempt) :
    (u.proceed k' none).status = (w.proceed k none).status ∧
      (u.proceed k' none).worker = (w.proceed k none).worker := by
  unfold Supervisor.proceed
  dsimp only
  rw [hconfig]
  split <;> simp [Supervisor.withWorker, hstatus, happlied, hretry, hattempt]

/-- What an attempt of an earlier generation has left is forgotten, or it is a
failed cleanup and the status names it. -/
theorem settle_forget {baseline : CleanupResult} (hout : w.outdated k = true)
    (hpending : w.closing = false → w.takeResult k = none) :
    ((w.settle k baseline).status = (w.settle k.forget baseline).status ∧
      (w.closing = false → (w.settle k baseline).worker = (w.settle k.forget baseline).worker)) ∨
    (k.pendingCleanup.success = false ∧ (w.settle k baseline).status =
      (w.publishCleanupError (w.withUnresolved (k.pendingCleanup.merge baseline))).status) := by
  cases hs : k.pendingCleanup.success with
  | false =>
      have hchecked : (k.pendingCleanup.merge baseline).success = false := by simp [hs]
      refine Or.inr ⟨rfl, ?_⟩
      unfold Supervisor.settle
      dsimp only
      split
      · exact publishClosed_status (withUnresolved_failed hchecked)
      · rfl
  | true =>
      left
      have hsuccess : (k.pendingCleanup.merge baseline).success =
          (k.forget.pendingCleanup.merge baseline).success := by
        simp [hs, Worker.forget, CleanupResult.empty]
      have herrors : (k.pendingCleanup.merge baseline).errors =
          (k.forget.pendingCleanup.merge baseline).errors := by
        simp [CleanupResult.merge, Worker.forget, CleanupResult.empty, k.pendingCleanup.sound hs]
      obtain ⟨hs', ht'⟩ := @withUnresolved_congr w _ _ hsuccess herrors
      have hforget : w.takeResult
          { k.forget with retryIndex := 0, appliedGeneration := w.generation } = none := by
        simp [Supervisor.takeResult, Worker.forget]
      unfold Supervisor.settle
      dsimp only
      by_cases hc : w.closing = true
      · rw [if_pos hc, if_pos hc]
        refine ⟨publishClosed_congr hs' ht', fun hopen => ?_⟩
        rw [hc] at hopen
        cases hopen
      · have hgen : w.generation ≠ k.appliedGeneration := (outdated_iff.mp hout).resolve_left hc
        have happlied : k.forget.appliedGeneration = k.appliedGeneration := rfl
        rw [hsuccess, happlied, if_pos hgen, if_pos hgen, if_neg hc, if_neg hc]
        split
        · exact ⟨by simp [Supervisor.withWorker, Supervisor.note,
            Supervisor.publishCleanupError, ht'], fun _ => rfl⟩
        · have htake : w.takeResult
              { k with retryIndex := 0, appliedGeneration := w.generation } = none :=
            hpending (by simpa using hc)
          rw [htake, hforget]
          obtain ⟨hstatus, hworker⟩ := @proceed_congr
            { w with unresolvedCleanup := none, lastCleanup := some (k.forget.pendingCleanup.merge baseline) }
            { k.forget with retryIndex := 0, appliedGeneration := w.generation }
            { k with retryIndex := 0, appliedGeneration := w.generation }
            { w with unresolvedCleanup := none, lastCleanup := some (k.pendingCleanup.merge baseline) }
            rfl rfl rfl rfl rfl
          exact ⟨hstatus, fun _ => hworker⟩

end Status

section Worker

theorem ResultOf.later {r : AttemptResult} {g : Int} (h : ResultOf w r g)
    (hlog : ∀ e ∈ w.log, e ∈ v.log) : ResultOf v r g := by
  rcases h with ⟨n, cleanup, hended⟩ | ⟨e, hraised, hr⟩
  · exact Or.inl ⟨n, cleanup, hlog _ hended⟩
  · exact Or.inr ⟨e, hlog _ hraised, hr⟩

theorem Pending.later (h : Pending w k) (hlog : ∀ e ∈ w.log, e ∈ v.log)
    (hresult : k'.pendingResult = k.pendingResult)
    (hgeneration : k'.pendingGeneration = k.pendingGeneration)
    (happlied : k'.appliedGeneration = k.appliedGeneration) : Pending v k' := by
  intro r hr
  obtain ⟨hg, hof⟩ := h r (hresult.symm.trans hr)
  rw [happlied, hgeneration]
  exact ⟨hg, hof.later hlog⟩

/-- The worker goes on with the generation and the attempt it has. -/
theorem WorkerTruth.moves (h : WorkerTruth w k) (hcurrent : v.currentAttempt = w.currentAttempt)
    (hinstalled : installation v.log = installation w.log) (hlog : ∀ e ∈ w.log, e ∈ v.log)
    (hstarted : ∀ n, .runStarted n ∈ v.log → .runStarted n ∈ w.log)
    (happlied : k'.appliedGeneration = k.appliedGeneration) (hattempt : k'.attempt = k.attempt)
    (hresult : k'.pendingResult = k.pendingResult)
    (hgeneration : k'.pendingGeneration = k.pendingGeneration)
    (hidle : k'.pc.isIdle = true → k.pc.isIdle = true) (hat : TruthAt v k' k'.pc) :
    WorkerTruth v k' := by
  constructor
  · intro n hn
    rw [hattempt, hinstalled, happlied]
    exact h.current n (hcurrent.symm.trans hn)
  · intro n hn
    rw [hattempt]
    exact h.launched n (hstarted n hn)
  · intro hpc
    obtain ⟨hnone, hpending⟩ := h.idle (hidle hpc)
    exact ⟨hcurrent.trans hnone, hpending.later hlog hresult hgeneration happlied⟩
  · exact hat

/-- The worker goes on while no attempt is current. -/
theorem WorkerTruth.ofIdle (hnone : w.currentAttempt = none)
    (hlaunched : ∀ n, .runStarted n ∈ w.log → k.attempt ≠ none)
    (hpending : k.pc.isIdle = true → Pending w k) (hat : TruthAt w k k.pc) : WorkerTruth w k where
  current n hn := by
    rw [hnone] at hn
    cases hn
  launched := hlaunched
  idle hpc := ⟨hnone, hpending hpc⟩
  at_pc := hat

theorem runStarted_of_cons {e : Event} {log : List Event} (he : ∀ n, e ≠ .runStarted n) {n : Nat}
    (hn : .runStarted n ∈ e :: log) : .runStarted n ∈ log := by
  rcases List.mem_cons.mp hn with rfl | hn
  · exact absurd rfl (he n)
  · exact hn

/-- The worker starts another round. -/
theorem truth_reconcile (hnone : w.currentAttempt = none)
    (hlaunched : ∀ n, .runStarted n ∈ w.log → k.attempt ≠ none) (hpending : Pending w k) :
    WorkerTruth (w.reconcile k) { k with pc := .reconciling } :=
  .ofIdle hnone (fun n hn => hlaunched n (runStarted_of_cons (by simp) hn))
    (fun _ => hpending.later (fun _ he => List.mem_cons_of_mem _ he) rfl rfl rfl) trivial

theorem pending_none (hnone : k.pendingResult = none) : Pending w k := by
  intro r hr
  rw [hnone] at hr
  cases hr

/-- The result taken over after a successful reconciliation is one of the
current generation. -/
theorem takeResult_of {r : AttemptResult} (hpending : Pending w k) (h : w.takeResult k = some r) :
    ResultOf w r w.generation := by
  obtain ⟨hresult, hg⟩ := takeResult_some h
  obtain ⟨happlied, hof⟩ := hpending r hresult
  rw [hg] at happlied
  rw [Option.some.inj happlied]
  exact hof

theorem truth_proceed {result : Option AttemptResult} (hnone : w.currentAttempt = none)
    (hlaunched : ∀ n, .runStarted n ∈ w.log → k.attempt ≠ none)
    (hof : ∀ r, result = some r → ResultOf w r k.appliedGeneration) :
    ∃ k', (w.proceed k result).worker = some k' ∧ WorkerTruth (w.proceed k result) k' := by
  unfold Supervisor.proceed
  dsimp only
  split
  · exact ⟨_, rfl, .ofIdle hnone hlaunched (fun _ => pending_none rfl) fun _ => Or.inl rfl⟩
  · cases result with
    | none => exact ⟨_, rfl, .ofIdle hnone hlaunched (fun _ => pending_none rfl) trivial⟩
    | some r =>
        dsimp only
        split
        · exact ⟨_, rfl, .ofIdle hnone hlaunched (fun _ => pending_none rfl) (hof r rfl)⟩
        · exact ⟨_, rfl, .ofIdle hnone hlaunched (fun _ => pending_none rfl) ⟨r, hof r rfl⟩⟩

theorem truth_settle {baseline : CleanupResult} (h : WorkerTruth w k)
    (hpc : k.pc = .settling baseline) :
    ∃ k', (w.settle k baseline).worker = some k' ∧ WorkerTruth (w.settle k baseline) k' := by
  obtain ⟨hnone, hpending⟩ := h.idle (by rw [hpc]; rfl)
  unfold Supervisor.settle
  dsimp only
  split
  · obtain ⟨hlog, -, -, -, -, -, hcurrent, -⟩ :=
      publishClosed_frame w (w.withUnresolved (k.pendingCleanup.merge baseline))
    refine ⟨_, rfl, .ofIdle (hcurrent.trans hnone) (fun n hn => h.launched n ?_)
      (fun hi => by cases hi) trivial⟩
    rw [← hlog]
    exact hn
  split
  · exact ⟨_, rfl, .ofIdle hnone (fun n hn => h.launched n (runStarted_of_cons (by simp) hn))
      (fun _ => pending_none rfl) fun _ => Or.inr rfl⟩
  · exact @truth_proceed { w with
        unresolvedCleanup := none, lastCleanup := some (k.pendingCleanup.merge baseline) }
      { k with
        retryIndex := if w.generation ≠ k.appliedGeneration then 0 else k.retryIndex
        appliedGeneration := w.generation } _ hnone h.launched
      fun r hr => takeResult_of hpending hr

theorem truth_install {attempt : Nat} {config : LiveConfig} {now : Except Raised UtcTime}
    (h : WorkerTruth w k) (hpc : k.pc = .installing attempt config) :
    ∃ k', (w.install k attempt config now).worker = some k' ∧
      WorkerTruth (w.install k attempt config now) k' := by
  obtain ⟨hnone, hpending⟩ := h.idle (by rw [hpc]; rfl)
  have hattempt : k.attempt = some attempt := by
    have hat := h.at_pc
    rw [hpc] at hat
    exact hat
  unfold Supervisor.install
  split
  · exact ⟨_, rfl, truth_reconcile hnone h.launched hpending⟩
  next hgo =>
  obtain ⟨-, hgen⟩ := not_outdated hgo
  have installed : ∀ {u : Supervisor} {k' : Worker}, u.currentAttempt = some attempt →
      u.log = .installed ⟨attempt, k.appliedGeneration, w.generation, w.config.mode, w.closing⟩ ::
        w.log → k'.attempt = k.attempt → k'.appliedGeneration = k.appliedGeneration →
      k'.pc.isIdle = false → TruthAt u k' k'.pc → WorkerTruth u k' := by
    intro u k' hcurrent hlog hatt happlied hidle hat
    constructor
    · intro n hn
      obtain rfl := Option.some.inj (hcurrent.symm.trans hn)
      refine ⟨hatt.trans hattempt, ⟨attempt, k.appliedGeneration, w.generation, w.config.mode,
        w.closing⟩, ?_, rfl, ?_⟩
      · rw [hlog]
        rfl
      · exact hgen.trans happlied.symm
    · intro n _
      rw [hatt, hattempt]
      simp
    · intro hi
      rw [hidle] at hi
      cases hi
    · exact hat
  dsimp only
  split
  · exact ⟨_, rfl, installed rfl rfl rfl rfl rfl trivial⟩
  · exact ⟨_, rfl, installed rfl rfl rfl rfl rfl hattempt⟩

theorem truth_clearAttempt {attempt : Nat} {result : Option AttemptResult} (h : WorkerTruth w k)
    (hpc : k.pc = .ending attempt result) :
    ∃ k', (w.clearAttempt k attempt result).worker = some k' ∧
      WorkerTruth (w.clearAttempt k attempt result) k' := by
  have hat := h.at_pc
  rw [hpc] at hat
  obtain ⟨hattempt, hof⟩ := hat
  have cleared : ∀ {u : Supervisor} {k' : Worker}, u.currentAttempt = none → u.log = w.log →
      k'.attempt = k.attempt → Pending u k' →
      WorkerTruth (u.reconcile k') { k' with pc := .reconciling } := by
    intro u k' hnone hlog hatt hpending
    refine truth_reconcile hnone (fun n hn => ?_) hpending
    rw [hatt]
    exact h.launched n (hlog ▸ hn)
  have hpending : ∀ {u : Supervisor}, u.log = w.log → Pending u { k with
      pendingResult := result
      pendingGeneration := if result.isSome then some k.appliedGeneration else none } := by
    intro u hlog r hr
    have hr : result = some r := hr
    exact ⟨by simp [hr], (hof r hr).later fun e he => hlog ▸ he⟩
  unfold Supervisor.clearAttempt
  dsimp only
  split
  · split <;> exact ⟨_, rfl, cleared rfl rfl rfl (hpending rfl)⟩
  · next hother =>
    have hnone : w.currentAttempt = none := by
      cases hn : w.currentAttempt with
      | none => rfl
      | some n =>
          have := (h.current n hn).1.symm.trans hattempt
          rw [hn, Option.some.inj this] at hother
          exact absurd rfl hother
    split <;> exact ⟨_, rfl, cleared hnone rfl rfl (hpending rfl)⟩

/-- A result is one of those that are in the log once the attempt has ended. -/
theorem truth_finishAttempt {attempt : Nat} {result : Option AttemptResult}
    {cleanup : CleanupResult} (h : WorkerTruth w k) (hattempt : k.attempt = some attempt) :
    WorkerTruth (w.finishAttempt k attempt result cleanup)
      { k with pendingCleanup := cleanup, pc := .ending attempt result } := by
  refine h.moves rfl rfl (fun _ he => List.mem_cons_of_mem _ he)
    (fun n hn => runStarted_of_cons (by simp) hn) rfl rfl rfl rfl (fun hi => by cases hi)
    ⟨hattempt, fun r hr => Or.inl ⟨attempt, cleanup, ?_⟩⟩
  rw [← hr]
  exact List.mem_cons_self

/-- Every step of the worker. -/
theorem truth_work {pc : Pc} {reply : Reply} (h : WorkerTruth w k) (hpc : k.pc = pc)
    (hv : w.work k pc reply = some v) : ∃ k', v.worker = some k' ∧ WorkerTruth v k' := by
  have hat := h.at_pc
  rw [hpc] at hat
  have idle : pc.isIdle = true → w.currentAttempt = none ∧ Pending w k := hpc ▸ h.idle
  have again : pc.isIdle = true → ∃ k', (w.reconcile k).worker = some k' ∧
      WorkerTruth (w.reconcile k) k' := fun hi =>
    ⟨_, rfl, truth_reconcile (idle hi).1 h.launched (idle hi).2⟩
  have moves : ∀ {u : Supervisor} {k' : Worker}, u.worker = some k' →
      u.currentAttempt = w.currentAttempt → u.log = w.log →
      k'.appliedGeneration = k.appliedGeneration → k'.attempt = k.attempt →
      k'.pendingResult = k.pendingResult → k'.pendingGeneration = k.pendingGeneration →
      (k'.pc.isIdle = true → pc.isIdle = true) → TruthAt u k' k'.pc →
      ∃ k', u.worker = some k' ∧ WorkerTruth u k' := by
    intro u k' hk' hcurrent hlog happlied hattempt hresult hgeneration hidle hat'
    refine ⟨k', hk', h.moves hcurrent (by rw [hlog]) (fun e he => hlog ▸ he) (fun n hn => hlog ▸ hn)
      happlied hattempt hresult hgeneration (fun hi => ?_) hat'⟩
    rw [hpc]
    exact hidle hi
  have notes : ∀ {u : Supervisor} {k' : Worker} {e : Event}, u.worker = some k' →
      u.currentAttempt = w.currentAttempt → u.log = e :: w.log →
      installation (e :: w.log) = installation w.log → (∀ n, e ≠ .runStarted n) →
      k'.appliedGeneration = k.appliedGeneration → k'.attempt = k.attempt →
      k'.pendingResult = k.pendingResult → k'.pendingGeneration = k.pendingGeneration →
      (k'.pc.isIdle = true → pc.isIdle = true) → TruthAt u k' k'.pc →
      ∃ k', u.worker = some k' ∧ WorkerTruth u k' := by
    intro u k' e hk' hcurrent hlog hinst hnot happlied hattempt hresult hgeneration hidle hat'
    refine ⟨k', hk', h.moves hcurrent (hlog ▸ hinst) (fun e' he => ?_) (fun n hn => ?_) happlied
      hattempt hresult hgeneration (fun hi => ?_) hat'⟩
    · rw [hlog]
      exact List.mem_cons_of_mem _ he
    · rw [hlog] at hn
      exact runStarted_of_cons hnot hn
    · rw [hpc]
      exact hidle hi
  unfold Supervisor.work at hv
  split at hv
  all_goals try cases hv
  case h_1 => exact notes rfl rfl rfl rfl (by simp) rfl rfl rfl rfl id trivial
  case h_2 => exact truth_settle h hpc
  case h_3 =>
    split at hv
    · cases hv
      exact again rfl
    · cases hv
  case h_4 =>
    unfold Supervisor.reportCompleted
    split
    · exact again rfl
    · exact moves rfl rfl rfl rfl rfl rfl rfl id fun _ => Or.inr rfl
  case h_5 =>
    unfold Supervisor.reportRetry
    split
    · exact again rfl
    split
    · exact moves rfl rfl rfl rfl rfl rfl rfl (fun hi => by cases hi) trivial
    · exact notes rfl rfl rfl rfl (by simp) rfl rfl rfl rfl id fun _ => rfl
  case h_6 => exact again rfl
  case h_7 => exact moves rfl rfl rfl rfl rfl rfl rfl id trivial
  case h_8 =>
    split
    · exact again rfl
    · exact moves rfl rfl rfl rfl rfl rfl rfl id trivial
  case h_9 =>
    split
    · exact again rfl
    · exact moves rfl rfl rfl rfl rfl rfl rfl id trivial
  case h_10 attempt =>
    obtain ⟨hnone, hpending⟩ := idle rfl
    exact ⟨_, rfl, .ofIdle hnone (fun _ _ => by simp)
      (fun _ => hpending.later (fun _ => id) rfl rfl rfl) rfl⟩
  case h_11 e =>
    obtain ⟨hnone, -⟩ := idle rfl
    refine ⟨_, rfl, truth_reconcile hnone
      (fun n hn => h.launched n (runStarted_of_cons (by simp) hn)) fun r hr => ⟨rfl, ?_⟩⟩
    obtain rfl := Option.some.inj hr
    exact Or.inr ⟨e, List.mem_cons_self, rfl⟩
  case h_12 => exact truth_install h hpc
  case h_13 n i =>
    refine ⟨_, rfl, ?_⟩
    constructor
    · exact h.current
    · intro m _
      show k.attempt ≠ none
      rw [hat]
      simp
    · intro hi
      cases hi
    · exact hat
  case h_14 n i r =>
    have hran : WorkerTruth (w.note (.runEnded n)) k :=
      h.moves rfl rfl (fun _ he => List.mem_cons_of_mem _ he)
        (fun m hm => runStarted_of_cons (by simp) hm) rfl rfl rfl rfl id (by rw [hpc]; exact hat)
    exact ⟨_, rfl, truth_finishAttempt hran hat⟩
  case h_15 =>
    exact notes rfl rfl rfl rfl (by simp) rfl rfl rfl rfl (fun hi => by cases hi) hat
  case h_16 =>
    exact notes rfl rfl rfl rfl (by simp) rfl rfl rfl rfl (fun hi => by cases hi) hat
  case h_17 => exact ⟨_, rfl, truth_finishAttempt h hat⟩
  case h_18 => exact truth_clearAttempt h hpc
  case h_19 error _ =>
    unfold Supervisor.workerFailed Supervisor.interruptAttempt
    dsimp only
    split <;> refine ⟨_, rfl, h.moves rfl rfl (fun _ he => ?_) (fun n hn => ?_) rfl rfl rfl rfl
      (fun hi => by cases hi) trivial⟩
    · exact List.mem_cons_of_mem _ (List.mem_cons_of_mem _ he)
    · exact runStarted_of_cons (by simp) (runStarted_of_cons (by simp) hn)
    · exact List.mem_cons_of_mem _ (List.mem_cons_of_mem _ he)
    · exact runStarted_of_cons (by simp) (runStarted_of_cons (by simp) hn)
  case h_20 => exact notes rfl rfl rfl rfl (by simp) rfl rfl rfl rfl (fun hi => by cases hi) trivial
  case h_21 result _ =>
    obtain ⟨hlog, -, -, -, -, -, hcurrent, -⟩ := publishClosed_frame w result
    exact moves rfl hcurrent hlog rfl rfl rfl rfl (fun hi => by cases hi) trivial
  all_goals exact moves rfl rfl rfl rfl rfl rfl rfl (fun hi => by cases hi) trivial

end Worker

section Steps

/-- A step of another thread that the worker hears of later: it may change the
status, the generation and closing. -/
structure Heard (w v : Supervisor) : Prop where
  worker : v.worker = w.worker
  current : v.currentAttempt = w.currentAttempt
  installed : installation v.log = installation w.log
  mem : ∀ e ∈ w.log, e ∈ v.log
  started : ∀ n, .runStarted n ∈ v.log → .runStarted n ∈ w.log
  settled : ∀ k, v.settled k → w.generation < v.generation ∨
    (w.settled k ∧ v.status.phase = w.status.phase)

theorem WorkerTruth.heard (h : WorkerTruth w k) (hv : Heard w v)
    (happlied : k.appliedGeneration ≤ w.generation) : WorkerTruth v k := by
  have hold : v.settled k → w.settled k ∧ v.status.phase = w.status.phase := by
    intro hs
    rcases hv.settled k hs with hlt | hsame
    · have := hs.2
      omega
    · exact hsame
  refine h.moves hv.current hv.installed hv.mem hv.started rfl rfl rfl rfl id ?_
  have hat := h.at_pc
  cases hpc : k.pc with
  | waiting =>
      rw [hpc] at hat
      intro hs
      obtain ⟨hs', hphase⟩ := hold hs
      rw [hphase]
      exact hat hs'
  | retryWait delay =>
      rw [hpc] at hat
      intro hs
      obtain ⟨hs', hphase⟩ := hold hs
      rw [hphase]
      exact hat hs'
  | completed r =>
      rw [hpc] at hat
      exact hat.later hv.mem
  | failed delay =>
      rw [hpc] at hat
      obtain ⟨r, hr⟩ := hat
      exact ⟨r, hr.later hv.mem⟩
  | ending n result =>
      rw [hpc] at hat
      exact ⟨hat.1, fun r hr => (hat.2 r hr).later hv.mem⟩
  | _ =>
      rw [hpc] at hat
      exact hat

theorem Truth.heard (h : Truth w) (hinv : Inv w) (hv : Heard w v) : Truth v where
  unbegun hn := by
    obtain ⟨hnone, hstarted⟩ := h.unbegun (hv.worker.symm.trans hn)
    exact ⟨hv.current.trans hnone, fun n hn => hstarted n (hv.started n hn)⟩
  worker k hk := by
    have hk : w.worker = some k := hv.worker.symm.trans hk
    refine (h.worker k hk).heard hv ?_
    cases hs : w.started with
    | false =>
        have := (hinv.unbegun hs).1.worker
        rw [hk] at this
        cases this
    | true =>
        obtain ⟨k', hk', hworker⟩ := hinv.begun hs
        obtain rfl := Option.some.inj (hk.symm.trans hk')
        exact hworker.applied

/-- A step that leaves the status and the generation alone. -/
theorem heard_quiet (hworker : v.worker = w.worker) (hcurrent : v.currentAttempt = w.currentAttempt)
    (hlog : v.log = w.log) (hstatus : v.status = w.status) (hgen : v.generation = w.generation)
    (hclosing : v.closing = w.closing) : Heard w v where
  worker := hworker
  current := hcurrent
  installed := by rw [hlog]
  mem e he := hlog ▸ he
  started _ hn := hlog ▸ hn
  settled k hs := Or.inr ⟨⟨hclosing.symm.trans hs.1, hgen.symm.trans hs.2⟩, by rw [hstatus]⟩

/-- A note about the cleanup of `close` itself. -/
theorem heard_noted {e : Event} (hinst : installation (e :: w.log) = installation w.log)
    (hnot : ∀ n, e ≠ .runStarted n) : Heard w (w.note e) where
  worker := rfl
  current := rfl
  installed := hinst
  mem _ he := List.mem_cons_of_mem _ he
  started _ hn := runStarted_of_cons hnot hn
  settled _ hs := Or.inr ⟨hs, rfl⟩

/-- A command that begins a new generation. -/
theorem heard_bumped {u : Supervisor} {status : RuntimeStatus} (hworker : u.worker = w.worker)
    (hcurrent : u.currentAttempt = w.currentAttempt) (hlog : u.log = w.log)
    (hgen : u.generation = w.generation) : Heard w { u.bump.interruptAttempt with status } := by
  have hlt : w.generation < u.generation + 1 := by omega
  have hinst : installation (.generationChanged :: u.log) = installation w.log := by
    rw [hlog]
    rfl
  have hstarted : ∀ n, .runStarted n ∈ Event.generationChanged :: u.log → .runStarted n ∈ w.log := by
    intro n hn
    rw [hlog] at hn
    exact runStarted_of_cons (by simp) hn
  have hmem : ∀ e ∈ w.log, e ∈ Event.generationChanged :: u.log := by
    intro e he
    rw [hlog]
    exact List.mem_cons_of_mem _ he
  unfold Supervisor.interruptAttempt
  split <;> exact ⟨hworker, hcurrent, hinst, hmem, hstarted, fun _ _ => Or.inl hlt⟩

theorem heard_selectMode (w : Supervisor) (mode : DesiredMode) (outcome : SaveOutcome) :
    Heard w (w.selectMode mode outcome) := by
  unfold Supervisor.selectMode Supervisor.save
  split
  · exact heard_quiet rfl rfl rfl rfl rfl rfl
  cases outcome with
  | saved =>
      exact @heard_bumped w { w with
        store := { w.config with mode := mode }, config := { w.config with mode := mode } } _
        rfl rfl rfl rfl
  | notSaved => exact heard_quiet rfl rfl rfl rfl rfl rfl
  | replacedNotSaved => exact heard_quiet rfl rfl rfl rfl rfl rfl

theorem heard_updateConfig (w : Supervisor) (replacement : Option LiveConfig)
    (outcome : SaveOutcome) : Heard w (w.updateConfig replacement outcome) := by
  unfold Supervisor.updateConfig Supervisor.save
  split
  · exact heard_quiet rfl rfl rfl rfl rfl rfl
  cases replacement with
  | none => exact heard_quiet rfl rfl rfl rfl rfl rfl
  | some replacement =>
      dsimp only
      split
      · exact heard_quiet rfl rfl rfl rfl rfl rfl
      cases outcome with
      | saved =>
          dsimp only
          split
          · exact @heard_bumped w { w with store := replacement, config := replacement } _
              rfl rfl rfl rfl
          · exact heard_quiet rfl rfl rfl rfl rfl rfl
      | notSaved => exact heard_quiet rfl rfl rfl rfl rfl rfl
      | replacedNotSaved => exact heard_quiet rfl rfl rfl rfl rfl rfl

theorem heard_restart (w : Supervisor) : Heard w w.restart := by
  unfold Supervisor.restart
  split
  · exact heard_quiet rfl rfl rfl rfl rfl rfl
  split
  · exact heard_quiet rfl rfl rfl rfl rfl rfl
  · exact @heard_bumped w w _ rfl rfl rfl rfl

theorem heard_announceClose (w : Supervisor) : Heard w w.announceClose :=
  @heard_bumped w { w with closing := true } _ rfl rfl rfl rfl

/-- The final result is published by `close` itself. -/
theorem heard_published {i : Nat} {result : CleanupResult} (hclosing : w.closing = true) :
    Heard w ((w.publishClosed result).closed i (.returned result)) := by
  obtain ⟨hlog, -, hc, -, -, hworker, hcurrent, -⟩ := publishClosed_frame w result
  refine ⟨hworker, hcurrent, congrArg installation hlog, fun e he => ?_, fun n hn => ?_,
    fun k hs => ?_⟩
  · show e ∈ (w.publishClosed result).log
    rw [hlog]
    exact he
  · have hn : .runStarted n ∈ (w.publishClosed result).log := hn
    rw [hlog] at hn
    exact hn
  have hopen := hc.symm.trans hs.1
  rw [hclosing] at hopen
  cases hopen

theorem truth_closeStep {past : List (Supervisor × Action)} {i : Nat}
    {outcome : Except Raised CleanupResult} {pc : ClosePc} (hinv : Inv w) (hshut : Shut past w)
    (h : Truth w) (hpc : w.closers i = some pc) (hv : w.closeStep i outcome pc = some v) :
    Truth v := by
  have quiet : ∀ {u : Supervisor}, u.worker = w.worker → u.currentAttempt = w.currentAttempt →
      u.log = w.log → u.status = w.status → u.generation = w.generation →
      u.closing = w.closing → Truth u := fun hworker hcurrent hlog hstatus hgen hclosing =>
    h.heard hinv (heard_quiet hworker hcurrent hlog hstatus hgen hclosing)
  obtain ⟨hat, hsets⟩ := hshut.closers i pc hpc
  cases pc with
  | closeLock =>
      simp only [Supervisor.closeStep] at hv
      split at hv <;> cases hv
      exact quiet rfl rfl rfl rfl rfl rfl
  | «section» =>
      cases hv
      unfold Supervisor.beginClose
      split
      · split <;> exact quiet rfl rfl rfl rfl rfl rfl
      · have hannounced := h.heard hinv (heard_announceClose w)
        have hinv' := inv_announceClose hinv
        split
        · exact hannounced.heard hinv' (heard_quiet rfl rfl rfl rfl rfl rfl)
        · have hnoted := @heard_noted w.announceClose .reconcileCalled rfl (by simp)
          exact hannounced.heard hinv' ⟨hnoted.worker, hnoted.current, hnoted.installed,
            hnoted.mem, hnoted.started, hnoted.settled⟩
  | joinReturn result =>
      rcases joined_cases hv with ⟨rfl, -⟩ | rfl <;> exact quiet rfl rfl rfl rfl rfl rfl
  | reconciling =>
      cases hv
      have hnoted := @heard_noted w
        (.reconcileReturned (Supervisor.reconciled outcome).success) rfl (by simp)
      exact h.heard hinv ⟨hnoted.worker, hnoted.current, hnoted.installed, hnoted.mem,
        hnoted.started, hnoted.settled⟩
  | publishing result =>
      cases hv
      exact h.heard hinv (heard_published (hsets rfl))
  | join =>
      rcases joined_cases hv with ⟨rfl, -⟩ | rfl <;> exact quiet rfl rfl rfl rfl rfl rfl
  | collect =>
      simp only [Supervisor.closeStep] at hv
      split at hv
      · cases hv
        exact quiet rfl rfl rfl rfl rfl rfl
      · cases hv
        exact h.heard hinv (heard_published (hsets rfl))
  | returned result => cases hv
  | raised => cases hv

/-- A callback writes the status only for the attempt that is current when it is called. -/
theorem publish_cases {event : AttemptEvent} (h : WorkerTruth w k)
    (hstarted : ∃ n, .runStarted n ∈ w.log) :
    w.publish k event = w ∨ (w.outdated k = false ∧ ∃ n, w.currentAttempt = some n ∧
      ∃ i, installation w.log = some i ∧ i.attempt = n ∧ i.generation = k.appliedGeneration) := by
  unfold Supervisor.publish
  split
  · exact Or.inl rfl
  · next hgo =>
    right
    obtain ⟨hout, hcurrent⟩ : w.outdated k = false ∧ w.currentAttempt = k.attempt := by
      simpa using hgo
    refine ⟨hout, ?_⟩
    obtain ⟨m, hm⟩ := hstarted
    cases hattempt : k.attempt with
    | none => exact absurd hattempt (h.launched m hm)
    | some n =>
        rw [hattempt] at hcurrent
        exact ⟨n, hcurrent, (h.current n hcurrent).2⟩

theorem truth_publish {event : AttemptEvent} (h : Truth w) (hk : w.worker = some k)
    (hstarted : ∃ n, .runStarted n ∈ w.log) : Truth (w.publish k event) := by
  have hworker := h.worker k hk
  rcases @publish_cases w k event hworker hstarted with hsame | ⟨-, n, hcurrent, -⟩
  · rw [hsame]
    exact h
  unfold Supervisor.publish
  split
  · exact h
  constructor
  · intro hnone
    have hnone : w.worker = none := hnone
    rw [hk] at hnone
    cases hnone
  · intro k' hk'
    obtain rfl := Option.some.inj (hk.symm.trans hk')
    have hidle : k.pc.isIdle = false := by
      by_contra hi
      have := (hworker.idle (by simpa using hi)).1
      rw [hcurrent] at this
      cases this
    refine hworker.moves rfl rfl (fun _ => id) (fun _ => id) rfl rfl rfl rfl id ?_
    have hat := hworker.at_pc
    cases hpc : k.pc with
    | waiting => simp [hpc, Pc.isIdle] at hidle
    | retryWait delay => simp [hpc, Pc.isIdle] at hidle
    | _ =>
        rw [hpc] at hat
        exact hat

theorem truth_start (h : Truth w) (hinv : Inv w) (spawned : Bool) : Truth (w.start spawned) := by
  unfold Supervisor.start
  split
  · exact h
  next hfirst =>
  have hstarted : w.started = false := by simpa using And.right (by simpa using hfirst)
  obtain ⟨hnone, hlog⟩ := h.unbegun (hinv.unbegun hstarted).1.worker
  split
  · constructor
    · intro hn
      cases hn
    · intro k hk
      obtain rfl := Option.some.inj hk
      refine .ofIdle hnone (fun n hn => ?_) (fun _ => pending_none rfl) trivial
      exact absurd (runStarted_of_cons (by simp) (runStarted_of_cons (by simp) hn)) (hlog n)
  · constructor
    · intro hn
      cases hn
    · intro k hk
      obtain rfl := Option.some.inj hk
      exact .ofIdle hnone (fun n hn => absurd hn (hlog n)) (fun _ => pending_none rfl) trivial

/-- Every action keeps the status truthful. -/
theorem step_truth {past : List (Supervisor × Action)} {a : Action} (hinv : Inv w)
    (hshut : Shut past w) (h : Truth w) (hv : w.step a = some v) : Truth v := by
  cases a with
  | start spawned =>
      cases hv
      exact truth_start h hinv spawned
  | selectMode mode outcome =>
      cases hv
      exact h.heard hinv (heard_selectMode w mode outcome)
  | updateConfig replacement outcome =>
      simp only [Supervisor.step] at hv
      split at hv <;> cases hv
      exact h.heard hinv (heard_updateConfig w replacement outcome)
  | restart =>
      cases hv
      exact h.heard hinv (heard_restart w)
  | close i =>
      simp only [Supervisor.step] at hv
      split at hv <;> cases hv
      exact h.heard hinv (heard_quiet rfl rfl rfl rfl rfl rfl)
  | closeStep i outcome =>
      obtain ⟨pc, hpc, hv⟩ := Option.bind_eq_some_iff.mp hv
      exact truth_closeStep hinv hshut h hpc hv
  | publish n event =>
      simp only [Supervisor.step] at hv
      split at hv
      · next hstarted =>
        obtain ⟨k, hk, rfl⟩ := Option.map_eq_some_iff.mp hv
        exact truth_publish h hk ⟨n, hstarted⟩
      · cases hv
  | work reply =>
      obtain ⟨k, hk, hv⟩ := Option.bind_eq_some_iff.mp hv
      obtain ⟨k', hk', hworker⟩ := truth_work (h.worker k hk) rfl hv
      constructor
      · intro hn
        rw [hk'] at hn
        cases hn
      · intro k'' hk''
        obtain rfl := Option.some.inj (hk'.symm.trans hk'')
        exact hworker

theorem reaches_truth {config : LiveConfig}
    (run : supervisorSystem.Reaches System.Any (Supervisor.create config) w) : Truth w := by
  obtain ⟨past, hpath⟩ := run.path
  refine hpath.invariant (P := fun _ w => Truth w) ?_ fun past w a v hpath h _ hv => ?_
  · constructor
    · exact fun _ => ⟨rfl, fun n hn => by cases hn⟩
    · exact fun k hk => by cases hk
  · obtain ⟨hinv, hshut⟩ := path_shut hpath
    exact step_truth hinv hshut h hv

theorem closeStep_phase {i : Nat} {outcome : Except Raised CleanupResult} {pc : ClosePc}
    (hv : w.closeStep i outcome pc = some v) :
    v.status.phase = w.status.phase ∨ v.status.phase.isLive = false := by
  cases pc with
  | closeLock =>
      simp only [Supervisor.closeStep] at hv
      split at hv <;> cases hv
      exact Or.inl rfl
  | «section» =>
      cases hv
      unfold Supervisor.beginClose
      split
      · split <;> exact Or.inl rfl
      · split <;> exact Or.inr rfl
  | joinReturn result => rcases joined_cases hv with ⟨rfl, -⟩ | rfl <;> exact Or.inl rfl
  | reconciling =>
      cases hv
      exact Or.inl rfl
  | publishing result =>
      cases hv
      exact Or.inr (publishClosed_phase w result)
  | join => rcases joined_cases hv with ⟨rfl, -⟩ | rfl <;> exact Or.inl rfl
  | collect =>
      simp only [Supervisor.closeStep] at hv
      split at hv <;> cases hv
      · exact Or.inl rfl
      · exact Or.inr (publishClosed_phase w _)
  | returned result => cases hv
  | raised => cases hv

/-- Only a callback writes a phase of an attempt. -/
theorem step_phase {a : Action} (hnot : ∀ n event, a ≠ .publish n event)
    (hv : w.step a = some v) :
    v.status.phase = w.status.phase ∨ v.status.phase.isLive = false := by
  cases a with
  | start spawned =>
      cases hv
      unfold Supervisor.start
      split
      · exact Or.inl rfl
      · split <;> exact Or.inl rfl
  | selectMode mode outcome =>
      cases hv
      unfold Supervisor.selectMode Supervisor.save
      split
      · exact Or.inl rfl
      cases outcome with
      | saved => exact Or.inr (by dsimp only; split <;> rfl)
      | notSaved => exact Or.inl rfl
      | replacedNotSaved => exact Or.inl rfl
  | updateConfig replacement outcome =>
      simp only [Supervisor.step] at hv
      split at hv <;> cases hv
      unfold Supervisor.updateConfig Supervisor.save
      split
      · exact Or.inl rfl
      cases replacement with
      | none => exact Or.inl rfl
      | some replacement =>
          dsimp only
          split
          · exact Or.inl rfl
          cases outcome with
          | saved =>
              dsimp only
              split
              · exact Or.inr rfl
              · exact Or.inl rfl
          | notSaved => exact Or.inl rfl
          | replacedNotSaved => exact Or.inl rfl
  | restart =>
      cases hv
      unfold Supervisor.restart
      split
      · exact Or.inl rfl
      split
      · exact Or.inl rfl
      · exact Or.inr rfl
  | close i =>
      simp only [Supervisor.step] at hv
      split at hv <;> cases hv
      exact Or.inl rfl
  | closeStep i outcome =>
      obtain ⟨pc, -, hv⟩ := Option.bind_eq_some_iff.mp hv
      exact closeStep_phase hv
  | publish n event => exact absurd rfl (hnot n event)
  | work reply =>
      obtain ⟨k, -, hv⟩ := Option.bind_eq_some_iff.mp hv
      exact (work_status hv).1

end Steps

section Truthful

/-- A pending result of an earlier generation is not taken over. -/
theorem takeResult_none (hpending : Pending w k) (hgen : w.generation ≠ k.appliedGeneration) :
    w.takeResult k = none := by
  cases htake : w.takeResult k with
  | none => rfl
  | some r =>
      obtain ⟨hresult, hg⟩ := takeResult_some htake
      obtain ⟨happlied, -⟩ := hpending r hresult
      rw [hg] at happlied
      exact absurd (Option.some.inj happlied) hgen

theorem outdated_settle {baseline : CleanupResult} {now : Except Raised UtcTime}
    (h : WorkerTruth w k) (hk : w.worker = some k) (hout : w.outdated k = true)
    (hpc : k.pc = .settling baseline) (hv : w.step (.work (.locked now)) = some v) :
    (v.status = (w.settle k.forget baseline).status ∧
      (w.closing = false → v.worker = (w.settle k.forget baseline).worker)) ∨
    (k.pendingCleanup.success = false ∧ v.status =
      (w.publishCleanupError (w.withUnresolved (k.pendingCleanup.merge baseline))).status) := by
  obtain ⟨k', hk', hv⟩ := Option.bind_eq_some_iff.mp hv
  obtain rfl := Option.some.inj (hk.symm.trans hk')
  rw [hpc] at hv
  cases hv
  have hpending := (h.idle (by rw [hpc]; rfl)).2
  refine settle_forget hout fun hopen => takeResult_none hpending ?_
  rcases outdated_iff.mp hout with hclosing | hgen
  · rw [hopen] at hclosing
    cases hclosing
  · exact hgen

/-- The first attempt has ended and a restart has begun a new generation; the
second attempt is running when a late event of the first one arrives. -/
theorem late_event_published :
    ∃ w v i, supervisorSystem.exec
        (Supervisor.create ⟨.desktop, "", 30, 4000, "user", false⟩) restartAfterFailedCleanup =
          some w ∧
      w.currentAttempt = some 1 ∧ installation w.log = some i ∧ i.attempt = 1 ∧ i.generation = 1 ∧
      .runEnded 0 ∈ w.log ∧ w.status.phase = .starting ∧
      w.step (.publish 0 ⟨.streaming, some "receiver", none, by decide⟩) = some v ∧
      v.status.phase = .streaming ∧ v.status.product = some "receiver" := by
  have hexec : (supervisorSystem.exec (Supervisor.create ⟨.desktop, "", 30, 4000, "user", false⟩)
      restartAfterFailedCleanup).any (fun w => w.currentAttempt = some 1 ∧
        (installation w.log).any (fun i => i.attempt = 1 ∧ i.generation = 1) ∧
        .runEnded 0 ∈ w.log ∧ w.status.phase = .starting ∧
        (w.step (.publish 0 ⟨.streaming, some "receiver", none, by decide⟩)).any (fun v =>
          v.status.phase = .streaming ∧ v.status.product = some "receiver")) = true := by
    decide +kernel
  obtain ⟨w, hw, hall⟩ := (Option.any_eq_true ..).mp hexec
  obtain ⟨hcurrent, hinst, hended, hphase, hnext⟩ := of_decide_eq_true hall
  obtain ⟨i, hi, hinst⟩ := (Option.any_eq_true ..).mp hinst
  obtain ⟨hattempt, hgen⟩ := of_decide_eq_true hinst
  obtain ⟨v, hv, hnext⟩ := (Option.any_eq_true ..).mp hnext
  obtain ⟨hlive, hproduct⟩ := of_decide_eq_true hnext
  exact ⟨w, v, i, hw, hcurrent, hi, hattempt, hgen, hended, hphase, hv, hlive, hproduct⟩

/-- The published status is truthful in every run whose callbacks are prompt. -/
theorem status_truthful {config : LiveConfig}
    (run : supervisorSystem.Reaches (fun w a => prompt w a = true) (Supervisor.create config) w) :
    (∀ n event v, prompt w (.publish n event) = true →
      supervisorSystem.step w (.publish n event) = some v → v = w ∨ w.current n) ∧
    (∀ a v, (∀ n event, a ≠ .publish n event) → supervisorSystem.step w a = some v →
      v.status.phase.isLive = true → v.status.phase = w.status.phase) ∧
    (∀ k reply v, w.worker = some k → w.outdated k = true → k.pc.isDead = false →
      k.pc.isSettling = false → supervisorSystem.step w (.work reply) = some v →
      v.status = w.status) ∧
    (∀ k baseline now v, w.worker = some k → w.outdated k = true → k.pc = .settling baseline →
      supervisorSystem.step w (.work (.locked now)) = some v →
      (v.status = (w.settle k.forget baseline).status ∧
        (w.closing = false → v.worker = (w.settle k.forget baseline).worker)) ∨
      (k.pendingCleanup.success = false ∧ v.status =
        (w.publishCleanupError (w.withUnresolved (k.pendingCleanup.merge baseline))).status)) ∧
    (∀ k, w.worker = some k → (k.pc.isIdle = true → Pending w k) ∧
      (∀ r, k.pc = .completed r → ResultOf w r k.appliedGeneration)) ∧
    ∀ k, w.worker = some k → (k.pc = .waiting ∨ ∃ delay, k.pc = .retryWait delay) → w.settled k →
      w.currentAttempt = none ∧ w.status.phase ∈ [RuntimePhase.stopped, .error, .retrying] := by
  have h := reaches_truth (run.weaken fun _ _ _ => trivial)
  refine ⟨?_, ?_, ?_, ?_, ?_, ?_⟩
  · intro n event v hprompt hv
    simp only [supervisorSystem, Supervisor.step] at hv
    split at hv
    · next hstarted =>
      obtain ⟨k, hk, rfl⟩ := Option.map_eq_some_iff.mp hv
      rcases @publish_cases w k event (h.worker k hk) ⟨n, hstarted⟩ with
        hsame | ⟨hout, m, hcurrent, i, hi, him, higen⟩
      · exact Or.inl hsame
      · right
        obtain ⟨hopen, hgen⟩ := not_outdated (w := w) (k := k) (by simp [hout])
        have hmn : m = n := by
          simpa [prompt, hk, hout, hcurrent] using hprompt
        exact ⟨hopen, hmn ▸ hcurrent, i, hi, him.trans hmn, higen.trans hgen.symm⟩
    · cases hv
  · intro a v hnot hv hlive
    rcases step_phase hnot hv with hsame | hother
    · exact hsame
    · rw [hlive] at hother
      cases hother
  · intro k reply v hk hout hdead hsettling hv
    obtain ⟨k', hk', hv⟩ := Option.bind_eq_some_iff.mp hv
    obtain rfl := Option.some.inj (hk.symm.trans hk')
    exact (work_status hv).2 hout hsettling hdead
  · intro k baseline now v hk hout hpc hv
    exact outdated_settle (h.worker k hk) hk hout hpc hv
  · intro k hk
    have hworker := h.worker k hk
    refine ⟨fun hidle => (hworker.idle hidle).2, fun r hpc => ?_⟩
    have hat := hworker.at_pc
    rw [hpc] at hat
    exact hat
  · intro k hk hwaits hsettled
    have hworker := h.worker k hk
    have hat := hworker.at_pc
    rcases hwaits with hpc | ⟨delay, hpc⟩
    · rw [hpc] at hat
      refine ⟨(hworker.idle (by rw [hpc]; rfl)).1, ?_⟩
      rcases hat hsettled with hphase | hphase
      · simp [hphase]
      · simp [hphase]
    · rw [hpc] at hat
      refine ⟨(hworker.idle (by rw [hpc]; rfl)).1, ?_⟩
      simp [show w.status.phase = .retrying from hat hsettled]

theorem status_truthful_restart :
    ∃ w, (supervisorSystem.guard prompt).exec
        (Supervisor.create ⟨.desktop, "", 30, 4000, "user", false⟩)
        (restartAfterFailedCleanup ++ [.publish 1 ⟨.handshaking, none, none, by decide⟩]) = some w ∧
      w.status.phase = .handshaking ∧ w.current 1 := by
  have hexec : ((supervisorSystem.guard prompt).exec
      (Supervisor.create ⟨.desktop, "", 30, 4000, "user", false⟩)
      (restartAfterFailedCleanup ++ [.publish 1 ⟨.handshaking, none, none, by decide⟩])).any
        (fun w => w.status.phase = .handshaking ∧
          prompt w (.publish 1 ⟨.streaming, none, none, by decide⟩) = true ∧
          (w.step (.publish 1 ⟨.streaming, none, none, by decide⟩)).any (fun v =>
            v.status.phase = .streaming)) = true := by decide +kernel
  obtain ⟨w, hw, hall⟩ := (Option.any_eq_true ..).mp hexec
  obtain ⟨hphase, hprompt, hnext⟩ := of_decide_eq_true hall
  obtain ⟨v, hv, hstreaming⟩ := (Option.any_eq_true ..).mp hnext
  have hstreaming := of_decide_eq_true hstreaming
  obtain ⟨hpublish, -⟩ := status_truthful (System.reaches_of_guard hw)
  refine ⟨w, hw, hphase, ?_⟩
  rcases hpublish 1 _ v hprompt hv with hsame | hcurrent
  · rw [hsame, hphase] at hstreaming
    cases hstreaming
  · exact hcurrent

end Truthful

end HccastWired.Live
