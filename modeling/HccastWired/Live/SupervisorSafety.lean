import HccastWired.Live.History

/-!
# Physical safety of the supervisor

One invariant for each program counter of the worker, and the safety theorem
read off it: one run at a time, and no attempt on a device that may be unclean.
-/

namespace HccastWired.Live

open Foundation

variable {w v : Supervisor} {k : Worker}

/-- A round that may lead to an installation. -/
structure Prepared (w : Supervisor) (k : Worker) : Prop where
  fresh : freshBaseline w.log = true
  clear : debt w.log = .clear
  past : ∀ g ∈ completedIn w.log, g < k.appliedGeneration
  active : w.generation = k.appliedGeneration → w.config.mode ≠ .stopped

/-- A completed attempt belongs to an earlier generation, or its result is pending. -/
def Spent (w : Supervisor) (k : Worker) : Prop :=
  ∀ g ∈ completedIn w.log, g < w.generation ∨
    (g ≤ w.generation ∧ k.pendingGeneration = some g ∧
      ∃ r, k.pendingResult = some r ∧ r.classification = .completed)

/-- What holds at each program counter while the supervisor is open. -/
def At (w : Supervisor) (k : Worker) : Pc → Prop
  | .reconciling => calledFresh w.log = true ∧
      (k.pendingCleanup.success = true → debt w.log ≠ .failed) ∧ Spent w k
  | .settling baseline => (baseline.success = true → freshBaseline w.log = true ∧
      (k.pendingCleanup.success = true → debt w.log = .clear)) ∧ Spent w k
  | .waiting => (debt w.log = .failed → w.generation = k.appliedGeneration) ∧
      ∀ g ∈ completedIn w.log, g ≤ k.appliedGeneration
  | .completed _ => debt w.log = .clear ∧ ∀ g ∈ completedIn w.log, g ≤ k.appliedGeneration
  | .failed _ => Prepared w k
  | .retryWait _ => Prepared w k
  | .retried => Prepared w k
  | .ready => Prepared w k
  | .creating _ => Prepared w k
  | .installing _ _ => Prepared w k
  | .launching _ _ => debt w.log = .clear ∧ ∀ g ∈ completedIn w.log, g < k.appliedGeneration
  | .running _ _ => debt w.log = .clear ∧ ∀ g ∈ completedIn w.log, g < k.appliedGeneration
  | .stopping _ _ => debt w.log = .clear ∧ ∀ g ∈ completedIn w.log, g < k.appliedGeneration
  | .ending _ result => (k.pendingCleanup.success = true → debt w.log ≠ .failed) ∧
      ∀ g ∈ completedIn w.log, g < k.appliedGeneration ∨
        (g = k.appliedGeneration ∧ ∃ r, result = some r ∧ r.classification = .completed)
  | _ => True

/-- The run in progress, and the attempt about to run. -/
def Runs (w : Supervisor) : Pc → Prop
  | .running n _ => openRuns w.log = [n]
  | .launching n _ => openRuns w.log = [] ∧ w.currentAttempt = some n ∧
      lastInstalled w.log = some n
  | _ => openRuns w.log = []

structure WorkerInv (w : Supervisor) (k : Worker) : Prop where
  runs : Runs w k.pc
  applied : k.appliedGeneration ≤ w.generation
  safe : w.closing = false → At w k k.pc

/-- Before the worker begins nothing has happened to an attempt. -/
structure Unbegun (w : Supervisor) : Prop where
  worker : w.worker = none
  runs : openRuns w.log = []
  clear : debt w.log = .clear
  completed : completedIn w.log = []

structure Inv (w : Supervisor) : Prop where
  sound : Sound w.log
  unbegun : w.started = false → Unbegun w ∧ 0 ≤ w.generation
  begun : w.started = true → ∃ k, w.worker = some k ∧ WorkerInv w k
  closers : ∀ id, w.closers id = some .reconciling → w.closing = true ∧ w.started = false

section Commands

/-- A command leaves log, generation and mode alone, or changes the generation. -/
def Later (w v : Supervisor) : Prop :=
  (v.log = w.log ∧ v.generation = w.generation ∧ v.config.mode = w.config.mode) ∨
    (v.log = .generationChanged :: w.log ∧ v.generation = w.generation + 1)

theorem debt_changed (log : List Event) : debt (.generationChanged :: log) ≠ .failed := by
  simp only [debt]
  split
  · simp
  · assumption

theorem debt_changed_clear {log : List Event} (h : debt log = .clear) :
    debt (.generationChanged :: log) = .clear := by
  simp [debt, h]

theorem At.later (hk : k.appliedGeneration ≤ w.generation) (hlater : Later w v) {pc : Pc}
    (h : At w k pc) : At v k pc := by
  rcases hlater with ⟨hlog, hgen, hmode⟩ | ⟨hlog, hgen⟩
  · have prepared : Prepared w k → Prepared v k := fun hp =>
      ⟨hlog ▸ hp.fresh, hlog ▸ hp.clear, hlog ▸ hp.past, by rw [hgen, hmode]; exact hp.active⟩
    have spent : Spent w k → Spent v k := by
      unfold Spent
      rw [hlog, hgen]
      exact id
    cases pc <;> simp only [At, hlog, hgen] at h ⊢ <;>
      first
        | exact h
        | exact prepared h
        | exact ⟨h.1, h.2.1, spent h.2.2⟩
        | exact ⟨h.1, spent h.2⟩
  · have prepared : Prepared w k → Prepared v k := fun hp =>
      ⟨by rw [hlog]; exact hp.fresh, by rw [hlog]; exact debt_changed_clear hp.clear,
        by rw [hlog]; exact hp.past, fun heq => by omega⟩
    have spent : Spent w k → Spent v k := by
      intro hs g hg
      rw [hlog] at hg
      rcases hs g hg with hlt | ⟨hle, hrest⟩
      · exact Or.inl (by omega)
      · exact Or.inr ⟨by omega, hrest⟩
    have hchanged := debt_changed w.log
    cases pc with
    | reconciling =>
        exact ⟨by rw [hlog]; exact h.1, fun _ => by rw [hlog]; exact hchanged, spent h.2.2⟩
    | settling baseline =>
        refine ⟨fun hb => ⟨by rw [hlog]; exact (h.1 hb).1, fun hp => ?_⟩, spent h.2⟩
        rw [hlog]
        exact debt_changed_clear ((h.1 hb).2 hp)
    | waiting =>
        refine ⟨fun hf => ?_, by rw [hlog]; exact h.2⟩
        rw [hlog] at hf
        exact absurd hf hchanged
    | completed result => exact ⟨by rw [hlog]; exact debt_changed_clear h.1, by rw [hlog]; exact h.2⟩
    | failed delay => exact prepared h
    | retryWait delay => exact prepared h
    | retried => exact prepared h
    | ready => exact prepared h
    | creating config => exact prepared h
    | installing n config => exact prepared h
    | launching n i => exact ⟨by rw [hlog]; exact debt_changed_clear h.1, by rw [hlog]; exact h.2⟩
    | running n i => exact ⟨by rw [hlog]; exact debt_changed_clear h.1, by rw [hlog]; exact h.2⟩
    | stopping n e => exact ⟨by rw [hlog]; exact debt_changed_clear h.1, by rw [hlog]; exact h.2⟩
    | ending n result => exact ⟨fun _ => by rw [hlog]; exact hchanged, by rw [hlog]; exact h.2⟩
    | _ => trivial

theorem Runs.later (hcurrent : v.currentAttempt = w.currentAttempt) (hlater : Later w v) {pc : Pc}
    (h : Runs w pc) : Runs v pc := by
  have hopen : openRuns v.log = openRuns w.log := by
    rcases hlater with ⟨hlog, -⟩ | ⟨hlog, -⟩
    · rw [hlog]
    · rw [hlog]
      rfl
  have hlast : lastInstalled v.log = lastInstalled w.log := by
    rcases hlater with ⟨hlog, -⟩ | ⟨hlog, -⟩
    · rw [hlog]
    · rw [hlog]
      rfl
  cases pc <;> simp only [Runs, hopen, hlast, hcurrent] at h ⊢ <;> exact h

/-- Commands, whenever they land, keep the invariant. -/
theorem Inv.later (h : Inv w) (hlater : Later w v) (hworker : v.worker = w.worker)
    (hcurrent : v.currentAttempt = w.currentAttempt) (hstarted : v.started = w.started)
    (hclosing : w.closing = true → v.closing = true)
    (hclosers : ∀ id, v.closers id = some .reconciling →
      w.closers id = some .reconciling ∨ v.closing = true ∧ v.started = false) : Inv v where
  sound := by
    rcases hlater with ⟨hlog, -⟩ | ⟨hlog, -⟩ <;> (rw [hlog]; exact h.sound)
  unbegun hs := by
    obtain ⟨hu, hgen⟩ := h.unbegun (hstarted ▸ hs)
    rcases hlater with ⟨hlog, hgen', -⟩ | ⟨hlog, hgen'⟩
    · exact ⟨⟨hworker.trans hu.worker, hlog ▸ hu.runs, hlog ▸ hu.clear, hlog ▸ hu.completed⟩,
        by omega⟩
    · exact ⟨⟨hworker.trans hu.worker, by rw [hlog]; exact hu.runs,
        by rw [hlog]; exact debt_changed_clear hu.clear, by rw [hlog]; exact hu.completed⟩,
        by omega⟩
  begun hs := by
    obtain ⟨k, hk, hw⟩ := h.begun (hstarted ▸ hs)
    refine ⟨k, hworker.trans hk, hw.runs.later hcurrent hlater, ?_, fun hopen => ?_⟩
    · have := hw.applied
      rcases hlater with ⟨-, hgen, -⟩ | ⟨-, hgen⟩ <;> omega
    · refine (hw.safe ?_).later hw.applied hlater
      by_contra hc
      rw [hclosing (by simpa using hc)] at hopen
      cases hopen
  closers id hid := by
    rcases hclosers id hid with hold | hnew
    · obtain ⟨hc, hs⟩ := h.closers id hold
      exact ⟨hclosing hc, hstarted.trans hs⟩
    · exact hnew

end Commands

section Worker

/-- The worker goes on under its invariant, and nothing else is disturbed. -/
structure Works (w v : Supervisor) : Prop where
  worker : ∃ k, v.worker = some k ∧ WorkerInv v k
  started : v.started = w.started
  closers : v.closers = w.closers
  closing : w.closing = true → v.closing = true
  sound : Sound w.log → Sound v.log

theorem Works.inv (hw : Works w v) (h : Inv w) (hk : w.worker = some k) : Inv v where
  sound := hw.sound h.sound
  unbegun hs := by
    have hu := (h.unbegun (hw.started ▸ hs)).1.worker
    rw [hk] at hu
    cases hu
  begun _ := hw.worker
  closers id hid := by
    obtain ⟨hc, hs⟩ := h.closers id (hw.closers ▸ hid)
    exact ⟨hw.closing hc, hw.started.trans hs⟩

/-- The start of a round. -/
theorem works_reconcile (hopen : openRuns w.log = []) (happlied : k.appliedGeneration ≤ w.generation)
    (hsafe : w.closing = false →
      (k.pendingCleanup.success = true → debt w.log ≠ .failed) ∧ Spent w k) :
    Works w (w.reconcile k) where
  worker := ⟨_, rfl, hopen, happlied, fun hc => ⟨rfl, (hsafe hc).1, (hsafe hc).2⟩⟩
  started := rfl
  closers := rfl
  closing := id
  sound := id

theorem outdated_iff : w.outdated k = true ↔ w.closing = true ∨ w.generation ≠ k.appliedGeneration := by
  simp [Supervisor.outdated]

theorem not_outdated (h : ¬ w.outdated k = true) :
    w.closing = false ∧ w.generation = k.appliedGeneration := by
  simpa [Supervisor.outdated] using h

/-- A round is given up because a command has come in. -/
theorem works_outdated (hopen : openRuns w.log = []) (happlied : k.appliedGeneration ≤ w.generation)
    (hsafe : w.closing = false → (debt w.log = .failed → w.generation = k.appliedGeneration) ∧
      ∀ g ∈ completedIn w.log, g ≤ k.appliedGeneration)
    (hout : w.outdated k = true) : Works w (w.reconcile k) := by
  refine works_reconcile hopen happlied fun hc => ?_
  have hgen : w.generation ≠ k.appliedGeneration := by
    rcases outdated_iff.mp hout with h | h
    · rw [hc] at h
      cases h
    · exact h
  refine ⟨fun _ hf => hgen ((hsafe hc).1 hf), fun g hg => Or.inl ?_⟩
  have := (hsafe hc).2 g hg
  omega

theorem Prepared.outdated (h : Prepared w k) : (debt w.log = .failed →
    w.generation = k.appliedGeneration) ∧ ∀ g ∈ completedIn w.log, g ≤ k.appliedGeneration :=
  ⟨fun hf => absurd hf (by simp [h.clear]), fun g hg => Int.le_of_lt (h.past g hg)⟩

/-- A round goes on, or is given up because a command has come in. -/
theorem works_prepared (hopen : openRuns w.log = [])
    (happlied : k.appliedGeneration ≤ w.generation) (hsafe : w.closing = false → Prepared w k)
    {next : Supervisor} (hnext : ¬ w.outdated k = true → Works w next) :
    Works w (if w.outdated k then w.reconcile k else next) := by
  split
  · next hout => exact works_outdated hopen happlied (fun hc => (hsafe hc).outdated) hout
  · next hout => exact hnext hout

theorem works_reconciled {outcome : Except Raised CleanupResult} (h : WorkerInv w k)
    (hpc : k.pc = .reconciling) :
    Works w ((w.note (.reconcileReturned (Supervisor.reconciled outcome).success)).withWorker
      { k with pc := .settling (Supervisor.reconciled outcome) }) := by
  have hruns : openRuns w.log = [] := by simpa [Runs, hpc] using h.runs
  refine ⟨⟨_, rfl, hruns, h.applied, fun hc => ⟨fun hb => ⟨?_, fun hp => ?_⟩, ?_⟩⟩, rfl, rfl, id, id⟩
  all_goals
    have hat := h.safe hc
    rw [hpc] at hat
    obtain ⟨hfresh, hdebt, hspent⟩ := hat
  · simp [Supervisor.withWorker, Supervisor.note, freshBaseline, hb, hfresh]
  · have hne := hdebt hp
    simp only [Supervisor.withWorker, Supervisor.note, hb, debt]
    cases hd : debt w.log with
    | clear => rfl
    | failed => exact absurd hd hne
    | changed => rfl
  · exact hspent

theorem takeResult_some {r : AttemptResult} (h : w.takeResult k = some r) :
    k.pendingResult = some r ∧ k.pendingGeneration = some w.generation := by
  unfold Supervisor.takeResult at h
  split at h
  · next hg => exact ⟨h, hg⟩
  · cases h

/-- A prepared round looks at the log, the configuration and the two generations. -/
theorem Prepared.congr {k' : Worker} (h : Prepared w k) (hlog : v.log = w.log)
    (hgen : v.generation = w.generation) (hconfig : v.config = w.config)
    (happlied : k'.appliedGeneration = k.appliedGeneration) : Prepared v k' :=
  ⟨hlog ▸ h.fresh, hlog ▸ h.clear, by rw [hlog, happlied]; exact h.past,
    by rw [hgen, happlied, hconfig]; exact h.active⟩

/-- Without a completed result taken over, completed attempts are in the past. -/
theorem Spent.past (h : Spent w k)
    (hr : ∀ r, w.takeResult k = some r → r.classification ≠ .completed) :
    ∀ g ∈ completedIn w.log, g < w.generation := by
  intro g hg
  rcases h g hg with hlt | ⟨hle, hpg, r, hpr, hr'⟩
  · exact hlt
  · by_contra hge
    have hsame : g = w.generation := by omega
    have htake : w.takeResult k = some r := by
      unfold Supervisor.takeResult
      rw [if_pos (by rw [hpg, hsame]), hpr]
    exact hr r htake hr'

theorem Spent.le (h : Spent w k) : ∀ g ∈ completedIn w.log, g ≤ w.generation := by
  intro g hg
  rcases h g hg with hlt | ⟨hle, -⟩
  · omega
  · exact hle

theorem works_proceed {result : Option AttemptResult} (hopen : openRuns w.log = [])
    (happlied : k.appliedGeneration = w.generation)
    (hfresh : freshBaseline w.log = true) (hclear : debt w.log = .clear)
    (hle : ∀ g ∈ completedIn w.log, g ≤ w.generation)
    (hpast : (∀ r, result = some r → r.classification ≠ .completed) →
      ∀ g ∈ completedIn w.log, g < w.generation) : Works w (w.proceed k result) := by
  have hwaits : debt w.log = .failed → w.generation = k.appliedGeneration := fun hf =>
    absurd hf (by simp [hclear])
  have hpassed : ∀ g ∈ completedIn w.log, g ≤ k.appliedGeneration := by
    rw [happlied]
    exact hle
  have prepared : w.config.mode ≠ .stopped →
      (∀ r, result = some r → r.classification ≠ .completed) → Prepared w k :=
    fun hmode hr => ⟨hfresh, hclear, by rw [happlied]; exact hpast hr, fun _ => hmode⟩
  unfold Supervisor.proceed
  dsimp only
  split
  · exact ⟨⟨_, rfl, hopen, Int.le_of_eq happlied, fun _ => ⟨hwaits, hpassed⟩⟩, rfl, rfl, id, id⟩
  next hmode =>
  cases result with
  | none =>
      exact ⟨⟨_, rfl, hopen, Int.le_of_eq happlied,
        fun _ => (prepared hmode fun r hr => by cases hr).congr rfl rfl rfl rfl⟩, rfl, rfl, id, id⟩
  | some r =>
      dsimp only
      split
      · exact ⟨⟨_, rfl, hopen, Int.le_of_eq happlied, fun _ => ⟨hclear, hpassed⟩⟩, rfl, rfl, id, id⟩
      · next hfailure =>
        have hfailure : r.classification = .failure := by simpa using hfailure
        have hprepared : Prepared w k := prepared hmode fun r' hr' => by
          obtain rfl := Option.some.inj hr'
          simp [hfailure]
        exact ⟨⟨_, rfl, hopen, Int.le_of_eq happlied,
          fun _ => hprepared.congr rfl rfl rfl rfl⟩, rfl, rfl, id, id⟩

theorem publishClosed_frame (w : Supervisor) (result : CleanupResult) :
    (w.publishClosed result).log = w.log ∧ (w.publishClosed result).generation = w.generation ∧
      (w.publishClosed result).closing = w.closing ∧
      (w.publishClosed result).started = w.started ∧
      (w.publishClosed result).closers = w.closers ∧
      (w.publishClosed result).worker = w.worker ∧
      (w.publishClosed result).currentAttempt = w.currentAttempt ∧
      (w.publishClosed result).config = w.config := by
  simp only [Supervisor.publishClosed]
  split <;> exact ⟨rfl, rfl, rfl, rfl, rfl, rfl, rfl, rfl⟩

/-- The worker exits after it has published the final cleanup. -/
theorem works_exited {result : CleanupResult} (hopen : openRuns w.log = []) {k' : Worker}
    (hpc : k'.pc = .exited) (happlied : k'.appliedGeneration ≤ w.generation) :
    Works w ((w.publishClosed result).withWorker k') := by
  obtain ⟨hlog, hgen, hclosing, hstarted, hclosers, -⟩ := publishClosed_frame w result
  refine ⟨⟨k', rfl, ?_, by rw [← hgen] at happlied; exact happlied, fun _ => by rw [hpc]; trivial⟩,
    hstarted, hclosers, fun hc => hclosing.trans hc, fun hs => by rw [← hlog] at hs; exact hs⟩
  rw [hpc]
  exact (congrArg openRuns hlog).trans hopen

theorem works_settle {baseline : CleanupResult} (h : WorkerInv w k)
    (hpc : k.pc = .settling baseline) : Works w (w.settle k baseline) := by
  have hopen : openRuns w.log = [] := by simpa [Runs, hpc] using h.runs
  unfold Supervisor.settle
  dsimp only
  split
  · exact works_exited hopen rfl (Int.le_refl _)
  next hopened =>
  have hc : w.closing = false := by simpa using hopened
  have hat := h.safe hc
  rw [hpc] at hat
  obtain ⟨hbase, hspent⟩ := hat
  split
  · exact ⟨⟨_, rfl, hopen, Int.le_refl _, fun _ => ⟨fun _ => rfl, hspent.le⟩⟩, rfl, rfl, id, id⟩
  · next hsuccess =>
    obtain ⟨hp, hb⟩ : k.pendingCleanup.success = true ∧ baseline.success = true := by
      simpa using hsuccess
    obtain ⟨hfresh, hclear⟩ := hbase hb
    have hworks := @works_proceed
      { w with
        unresolvedCleanup := none, lastCleanup := some (k.pendingCleanup.merge baseline) }
      { k with
        retryIndex := if w.generation ≠ k.appliedGeneration then 0 else k.retryIndex
        appliedGeneration := w.generation }
      (w.takeResult k) hopen rfl hfresh (hclear hp) hspent.le hspent.past
    exact ⟨hworks.worker, hworks.started, hworks.closers, hworks.closing, hworks.sound⟩

theorem works_die {k' : Worker} {error : Raised} (hopen : openRuns w.log = [])
    (happlied : k'.appliedGeneration ≤ w.generation) : Works w (w.die k' error) :=
  ⟨⟨_, rfl, hopen, happlied, fun _ => trivial⟩, rfl, rfl, id, id⟩

theorem works_install {attempt : Nat} {config : LiveConfig} {now : Except Raised UtcTime}
    (h : WorkerInv w k) (hpc : k.pc = .installing attempt config) :
    Works w (w.install k attempt config now) := by
  have hopen : openRuns w.log = [] := by simpa [Runs, hpc] using h.runs
  have hsafe : w.closing = false → Prepared w k := fun hc => by
    have hat := h.safe hc
    rwa [hpc] at hat
  refine works_prepared hopen h.applied hsafe fun hgo => ?_
  obtain ⟨hc, hgen⟩ := not_outdated hgo
  have hprepared := hsafe hc
  have hnew : w.generation ∉ completedIn w.log := fun hg => by
    have := hprepared.past w.generation hg
    omega
  have hsound : Sound w.log → Sound (.installed
      ⟨attempt, k.appliedGeneration, w.generation, w.config.mode, w.closing⟩ :: w.log) := fun hs =>
    ⟨⟨hprepared.fresh, hprepared.clear, hopen, hnew, hc, hprepared.active hgen, hgen.symm⟩, hs⟩
  cases now with
  | error e => exact ⟨⟨_, rfl, hopen, h.applied, fun _ => trivial⟩, rfl, rfl, id, hsound⟩
  | ok t =>
      exact ⟨⟨_, rfl, ⟨hopen, rfl, rfl⟩, h.applied, fun _ => ⟨hprepared.clear, hprepared.past⟩⟩,
        rfl, rfl, id, hsound⟩

/-- An attempt has ended: its own cleanup is pending, and so is its result. -/
theorem works_finishAttempt {attempt : Nat} {result : Option AttemptResult}
    {cleanup : CleanupResult} (hopen : openRuns w.log = [])
    (happlied : k.appliedGeneration ≤ w.generation)
    (hsafe : w.closing = false →
      debt w.log = .clear ∧ ∀ g ∈ completedIn w.log, g < k.appliedGeneration) :
    Works w (w.finishAttempt k attempt result cleanup) := by
  refine ⟨⟨_, rfl, hopen, happlied, fun hc => ⟨fun hp => ?_, ?_⟩⟩, rfl, rfl, id, id⟩
  all_goals obtain ⟨hclear, hpast⟩ := hsafe hc
  · have hp : cleanup.success = true := hp
    show debt (.ended attempt k.appliedGeneration result cleanup :: w.log) ≠ .failed
    simp [debt, hp, hclear]
  · show ∀ g ∈ completedIn (.ended attempt k.appliedGeneration result cleanup :: w.log), _
    cases result with
    | none => exact fun g hg => Or.inl (hpast g hg)
    | some r =>
        simp only [completedIn]
        split
        · next hr =>
          rintro g hg
          rcases List.mem_cons.mp hg with rfl | hg
          · exact Or.inr ⟨rfl, r, rfl, hr⟩
          · exact Or.inl (hpast g hg)
        · exact fun g hg => Or.inl (hpast g hg)

theorem works_clearAttempt {attempt : Nat} {result : Option AttemptResult} (h : WorkerInv w k)
    (hpc : k.pc = .ending attempt result) : Works w (w.clearAttempt k attempt result) := by
  have hopen : openRuns w.log = [] := by simpa [Runs, hpc] using h.runs
  have spent : w.closing = false → (k.pendingCleanup.success = true → debt w.log ≠ .failed) ∧
      ∀ g ∈ completedIn w.log, g < w.generation ∨ (g ≤ w.generation ∧
        (if result.isSome then some k.appliedGeneration else none) = some g ∧
        ∃ r, result = some r ∧ r.classification = .completed) := by
    intro hc
    have hat := h.safe hc
    rw [hpc] at hat
    refine ⟨hat.1, fun g hg => ?_⟩
    have := h.applied
    rcases hat.2 g hg with hlt | ⟨rfl, r, rfl, hr⟩
    · exact Or.inl (by omega)
    · exact Or.inr ⟨this, rfl, r, rfl, hr⟩
  have works : ∀ u : Supervisor, u.log = w.log → u.generation = w.generation →
      u.closing = w.closing → u.started = w.started → u.closers = w.closers →
      Works w (u.reconcile { k with
        pendingResult := result
        pendingGeneration := if result.isSome then some k.appliedGeneration else none }) := by
    intro u hlog hgen hclosing hstarted hclosers
    have hr := @works_reconcile u { k with
      pendingResult := result
      pendingGeneration := if result.isSome then some k.appliedGeneration else none }
      (by rw [hlog]; exact hopen) (by rw [hgen]; exact h.applied)
      (fun hc => by
        unfold Spent
        rw [hlog, hgen]
        exact spent (hclosing ▸ hc))
    exact ⟨hr.worker, hstarted, hclosers, fun hc => hclosing.trans hc,
      fun hs => hr.sound (by rw [hlog]; exact hs)⟩
  unfold Supervisor.clearAttempt
  dsimp only
  split <;> split <;> exact works _ rfl rfl rfl rfl rfl

theorem works_workerFailed {error : Raised} (hopen : openRuns w.log = [])
    (happlied : k.appliedGeneration ≤ w.generation) : Works w (w.workerFailed k error) := by
  unfold Supervisor.workerFailed Supervisor.interruptAttempt
  dsimp only
  have hgen : k.appliedGeneration ≤ w.generation + 1 := by omega
  split <;> exact ⟨⟨_, rfl, hopen, hgen, fun hc => by cases hc⟩, rfl, rfl, fun _ => rfl, id⟩

def Pc.isRunning : Pc → Bool
  | .running _ _ => true
  | _ => false

/-- At every program counter but `running` no run is in progress. -/
theorem WorkerInv.idle (h : WorkerInv w k) {pc : Pc} (hpc : k.pc = pc)
    (hnot : pc.isRunning = false) : openRuns w.log = [] := by
  have hruns := h.runs
  rw [hpc] at hruns
  cases pc with
  | running n i => cases hnot
  | launching n i => exact hruns.1
  | _ => exact hruns

/-- Every step of the worker keeps its invariant. -/
theorem works_work {pc : Pc} {reply : Reply} (h : WorkerInv w k) (hpc : k.pc = pc)
    (hv : w.work k pc reply = some v) : Works w v := by
  have idle := h.idle hpc
  have hat : w.closing = false → At w k pc := hpc ▸ h.safe
  unfold Supervisor.work at hv
  split at hv
  case h_1 =>
    obtain rfl := Option.some.inj hv
    exact works_reconciled h hpc
  case h_2 =>
    obtain rfl := Option.some.inj hv
    exact works_settle h hpc
  case h_3 =>
    split at hv
    · next hout =>
      obtain rfl := Option.some.inj hv
      exact works_outdated (idle rfl) h.applied hat hout
    · cases hv
  case h_4 =>
    obtain rfl := Option.some.inj hv
    have hwaits : w.closing = false → (debt w.log = .failed → w.generation = k.appliedGeneration) ∧
        ∀ g ∈ completedIn w.log, g ≤ k.appliedGeneration :=
      fun hc => ⟨fun hf => absurd hf (by simp [(hat hc).1]), (hat hc).2⟩
    unfold Supervisor.reportCompleted
    split
    · next hout => exact works_outdated (idle rfl) h.applied hwaits hout
    · exact ⟨⟨_, rfl, idle rfl, h.applied, hwaits⟩, rfl, rfl, id, id⟩
  case h_5 =>
    obtain rfl := Option.some.inj hv
    refine works_prepared (idle rfl) h.applied hat fun hgo => ?_
    split
    · exact works_die (idle rfl) h.applied
    · exact ⟨⟨_, rfl, idle rfl, h.applied,
        fun hc => ⟨(hat hc).fresh, (hat hc).clear, (hat hc).past, (hat hc).active⟩⟩, rfl, rfl, id, id⟩
  case h_6 =>
    obtain rfl := Option.some.inj hv
    refine works_reconcile (idle rfl) h.applied fun hc => ?_
    have hp := hat hc
    have := h.applied
    exact ⟨fun _ hf => by simp [hp.clear] at hf, fun g hg => Or.inl (by have := hp.past g hg; omega)⟩
  case h_7 =>
    obtain rfl := Option.some.inj hv
    exact ⟨⟨_, rfl, idle rfl, h.applied,
      fun hc => (hat hc).congr rfl rfl rfl rfl⟩, rfl, rfl, id, id⟩
  case h_8 =>
    obtain rfl := Option.some.inj hv
    refine works_prepared (idle rfl) h.applied hat fun _ => ?_
    exact ⟨⟨_, rfl, idle rfl, h.applied,
      fun hc => (hat hc).congr rfl rfl rfl rfl⟩, rfl, rfl, id, id⟩
  case h_9 =>
    obtain rfl := Option.some.inj hv
    refine works_prepared (idle rfl) h.applied hat fun _ => ?_
    exact ⟨⟨_, rfl, idle rfl, h.applied,
      fun hc => (hat hc).congr rfl rfl rfl rfl⟩, rfl, rfl, id, id⟩
  case h_10 =>
    obtain rfl := Option.some.inj hv
    exact ⟨⟨_, rfl, idle rfl, h.applied,
      fun hc => (hat hc).congr rfl rfl rfl rfl⟩, rfl, rfl, id, id⟩
  case h_11 e =>
    obtain rfl := Option.some.inj hv
    have hr := @works_reconcile (w.note (.createRaised k.appliedGeneration)) { k with
      pendingResult := some (.ofException e .empty)
      pendingGeneration := some k.appliedGeneration } (idle rfl) h.applied (fun hc => by
        have hp := hat hc
        have := h.applied
        exact ⟨fun _ => by show debt w.log ≠ _; simp [hp.clear],
          fun g hg => Or.inl (Int.lt_of_lt_of_le (hp.past g hg) this)⟩)
    exact ⟨hr.worker, hr.started, hr.closers, hr.closing, hr.sound⟩
  case h_12 =>
    obtain rfl := Option.some.inj hv
    exact works_install h hpc
  case h_13 n i =>
    obtain rfl := Option.some.inj hv
    have hopen : openRuns w.log = [] := idle rfl
    have hrun : openRuns (.runStarted n :: w.log) = [n] := by simp [openRuns, hopen]
    have hruns := h.runs
    rw [hpc] at hruns
    exact ⟨⟨_, rfl, hrun, h.applied, hat⟩, rfl, rfl, id, fun hs => ⟨⟨hruns.2.2, hopen⟩, hs⟩⟩
  case h_14 n _ r =>
    obtain rfl := Option.some.inj hv
    have hopen : openRuns (w.note (.runEnded n)).log = [] := by
      have hruns := h.runs
      rw [hpc] at hruns
      simp [Supervisor.note, openRuns, show openRuns w.log = [n] from hruns]
    have hf := @works_finishAttempt (w.note (.runEnded n)) k n (some r) r.cleanup hopen h.applied hat
    exact ⟨hf.worker, hf.started, hf.closers, hf.closing, hf.sound⟩
  case h_15 n _ =>
    obtain rfl := Option.some.inj hv
    have hruns := h.runs
    rw [hpc] at hruns
    have hopen : openRuns (.runEnded n :: w.log) = [] := by
      simp [openRuns, show openRuns w.log = [n] from hruns]
    exact ⟨⟨_, rfl, hopen, h.applied, hat⟩, rfl, rfl, id, id⟩
  case h_16 n _ e =>
    obtain rfl := Option.some.inj hv
    have hruns := h.runs
    rw [hpc] at hruns
    have hopen : openRuns (.runEnded n :: w.log) = [] := by
      simp [openRuns, show openRuns w.log = [n] from hruns]
    exact ⟨⟨_, rfl, hopen, h.applied, hat⟩, rfl, rfl, id, id⟩
  case h_17 =>
    obtain rfl := Option.some.inj hv
    exact works_finishAttempt (idle rfl) h.applied hat
  case h_18 =>
    obtain rfl := Option.some.inj hv
    exact works_clearAttempt h hpc
  case h_19 =>
    obtain rfl := Option.some.inj hv
    exact works_workerFailed (idle rfl) h.applied
  case h_20 =>
    obtain rfl := Option.some.inj hv
    exact ⟨⟨_, rfl, idle rfl, h.applied, fun _ => trivial⟩, rfl, rfl, id, id⟩
  case h_21 =>
    obtain rfl := Option.some.inj hv
    exact works_exited (idle rfl) rfl h.applied
  case h_22 => cases hv
  case h_23 => cases hv
  case h_24 => cases hv
  case h_25 =>
    obtain rfl := Option.some.inj hv
    exact ⟨⟨_, rfl, idle rfl, h.applied, fun _ => trivial⟩, rfl, rfl, id, id⟩
  case h_26 =>
    obtain rfl := Option.some.inj hv
    exact ⟨⟨_, rfl, idle rfl, h.applied, fun _ => trivial⟩, rfl, rfl, id, id⟩
  case h_27 =>
    obtain rfl := Option.some.inj hv
    exact ⟨⟨_, rfl, idle rfl, h.applied, fun _ => trivial⟩, rfl, rfl, id, id⟩
  case h_28 hrunning _ _ _ =>
    obtain rfl := Option.some.inj hv
    refine works_die (idle ?_) h.applied
    cases pc <;> first | rfl | exact (hrunning _ _ rfl).elim
  case h_29 => cases hv

end Worker

section Steps

theorem interruptAttempt_frame (w : Supervisor) :
    w.interruptAttempt.log = w.log ∧ w.interruptAttempt.generation = w.generation ∧
      w.interruptAttempt.config = w.config ∧ w.interruptAttempt.closing = w.closing ∧
      w.interruptAttempt.started = w.started ∧ w.interruptAttempt.closers = w.closers ∧
      w.interruptAttempt.worker = w.worker ∧
      w.interruptAttempt.currentAttempt = w.currentAttempt := by
  unfold Supervisor.interruptAttempt
  split <;> exact ⟨rfl, rfl, rfl, rfl, rfl, rfl, rfl, rfl⟩

/-- A command that changes the generation. -/
theorem Inv.bumped {u : Supervisor} (h : Inv w) (hu : u.log = w.log) (hgen : u.generation = w.generation)
    (hclosing : w.closing = true → u.closing = true) (hstarted : u.started = w.started)
    (hclosers : u.closers = w.closers) (hworker : u.worker = w.worker)
    (hcurrent : u.currentAttempt = w.currentAttempt) (status : RuntimeStatus) :
    Inv { u.bump.interruptAttempt with status } := by
  obtain ⟨hlog', hgen', -, hclosing', hstarted', hclosers', hworker', hcurrent'⟩ :=
    interruptAttempt_frame u.bump
  refine h.later (Or.inr ⟨hlog'.trans (congrArg _ hu), hgen'.trans (congrArg (· + 1) hgen)⟩)
    (hworker'.trans hworker) (hcurrent'.trans hcurrent) (hstarted'.trans hstarted)
    (fun hc => hclosing'.trans (hclosing hc)) fun id hid => Or.inl ?_
  rwa [show _ = w.closers from hclosers'.trans hclosers] at hid

/-- A step that changes neither log nor generation nor mode. -/
theorem Inv.quiet (h : Inv w) (hlog : v.log = w.log) (hgen : v.generation = w.generation)
    (hmode : v.config.mode = w.config.mode) (hclosing : v.closing = w.closing)
    (hstarted : v.started = w.started) (hworker : v.worker = w.worker)
    (hcurrent : v.currentAttempt = w.currentAttempt)
    (hclosers : ∀ id, v.closers id = some .reconciling → w.closers id = some .reconciling) :
    Inv v :=
  h.later (Or.inl ⟨hlog, hgen, hmode⟩) hworker hcurrent hstarted (fun hc => hclosing.trans hc)
    fun id hid => Or.inl (hclosers id hid)

theorem inv_selectMode (h : Inv w) (mode : DesiredMode) (outcome : SaveOutcome) :
    Inv (w.selectMode mode outcome) := by
  unfold Supervisor.selectMode Supervisor.save
  split
  · exact h
  · cases outcome with
    | saved =>
        exact @Inv.bumped w { w with
          store := { w.config with mode := mode }, config := { w.config with mode := mode } } h
          rfl rfl id rfl rfl rfl rfl _
    | notSaved => exact h
    | replacedNotSaved => exact h.quiet rfl rfl rfl rfl rfl rfl rfl fun _ hid => hid

theorem inv_updateConfig (h : Inv w) {replacement : Option LiveConfig} (outcome : SaveOutcome)
    (hmode : replacement.all (·.mode = w.config.mode) = true) :
    Inv (w.updateConfig replacement outcome) := by
  unfold Supervisor.updateConfig Supervisor.save
  split
  · exact h
  cases replacement with
  | none => exact h
  | some replacement =>
      have hmode : replacement.mode = w.config.mode := by simpa using hmode
      dsimp only
      split
      · exact h
      · cases outcome with
        | saved =>
            dsimp only
            split
            · exact @Inv.bumped w { w with store := replacement, config := replacement } h
                rfl rfl id rfl rfl rfl rfl _
            · exact h.quiet rfl rfl hmode rfl rfl rfl rfl fun _ hid => hid
        | notSaved => exact h
        | replacedNotSaved => exact h.quiet rfl rfl rfl rfl rfl rfl rfl fun _ hid => hid

theorem inv_restart (h : Inv w) : Inv w.restart := by
  unfold Supervisor.restart
  split
  · exact h
  split
  · exact h
  · exact h.bumped rfl rfl id rfl rfl rfl rfl _

theorem inv_start (h : Inv w) (spawned : Bool) : Inv (w.start spawned) := by
  unfold Supervisor.start
  split
  · exact h
  next hfirst =>
  obtain ⟨hopen, hstarted⟩ : w.closing = false ∧ w.started = false := by simpa using hfirst
  obtain ⟨hu, hgen⟩ := h.unbegun hstarted
  have happlied : (-1 : Int) ≤ w.generation := by omega
  have hclosed : ∀ id, w.closers id = some .reconciling → False := fun id hid => by
    have := (h.closers id hid).1
    rw [hopen] at this
    cases this
  split
  · refine ⟨h.sound, fun hs => (Bool.noConfusion hs), fun _ => ⟨_, rfl, hu.runs, happlied, fun _ => ?_⟩,
      fun id hid => (hclosed id hid).elim⟩
    refine ⟨rfl, fun _ => ?_, fun g hg => ?_⟩
    · show debt w.log ≠ .failed
      simp [hu.clear]
    · have hg : g ∈ completedIn w.log := hg
      rw [hu.completed] at hg
      cases hg
  · exact ⟨h.sound, fun hs => (Bool.noConfusion hs), fun _ => ⟨_, rfl, hu.runs, happlied, fun _ => trivial⟩,
      fun id hid => (hclosed id hid).elim⟩

/-- A supervisor whose worker never began. -/
theorem Inv.ofUnbegun (hsound : Sound w.log) (hu : Unbegun w) (hgen : 0 ≤ w.generation) (hs : w.started = false)
    (hclosers : ∀ id, w.closers id = some .reconciling → w.closing = true) : Inv w :=
  ⟨hsound, fun _ => ⟨hu, hgen⟩, fun hyes => absurd hyes (by simp [hs]),
    fun id hid => ⟨hclosers id hid, hs⟩⟩

theorem Inv.started_of_worker (h : Inv w) (hw : w.worker.isSome = false) : w.started = false := by
  by_contra hs
  obtain ⟨k, hk, -⟩ := h.begun (by simpa using hs)
  simp [hk] at hw

theorem closer_closers (w : Supervisor) (id : Nat) (pc : ClosePc) (i : Nat) :
    (w.closer id pc).closers i = if i = id then some pc else w.closers i := by
  simp [Supervisor.closer, Function.update_apply]

/-- Moving a closer anywhere but into `reconcile_stopped`. -/
theorem Inv.closer (h : Inv w) (id : Nat) {pc : ClosePc} (hpc : pc ≠ .reconciling) :
    Inv (w.closer id pc) := by
  refine h.quiet rfl rfl rfl rfl rfl rfl rfl fun i hi => ?_
  rw [closer_closers] at hi
  split at hi
  · exact absurd (Option.some.inj hi) hpc
  · exact hi

theorem Inv.closed (h : Inv w) (id : Nat) {pc : ClosePc} (hpc : pc ≠ .reconciling) :
    Inv (w.closed id pc) :=
  Inv.closer (w := { w with closeLock := none })
    (h.quiet rfl rfl rfl rfl rfl rfl rfl fun _ hid => hid) id hpc

theorem inv_publishClosed (h : Inv w) (result : CleanupResult) : Inv (w.publishClosed result) := by
  obtain ⟨hlog, hgen, hclosing, hstarted, hclosers, hworker, hcurrent, hconfig⟩ :=
    publishClosed_frame w result
  exact h.quiet hlog hgen (congrArg LiveConfig.mode hconfig) hclosing hstarted hworker hcurrent
    fun id hid => by rwa [hclosers] at hid

/-- `close` without a worker reconciles itself. -/
theorem Inv.reconcileCalled (h : Inv w) (hc : w.closing = true) (hs : w.started = false)
    (id : Nat) : Inv ((w.note .reconcileCalled).closer id .reconciling) := by
  obtain ⟨hu, hgen⟩ := h.unbegun hs
  refine Inv.ofUnbegun h.sound ⟨hu.worker, hu.runs, hu.clear, hu.completed⟩ hgen hs fun _ _ => hc

theorem Inv.reconcileReturned (h : Inv w) (hc : w.closing = true) (hs : w.started = false)
    (success : Bool) : Inv (w.note (.reconcileReturned success)) := by
  obtain ⟨hu, hgen⟩ := h.unbegun hs
  refine Inv.ofUnbegun h.sound ⟨hu.worker, hu.runs, ?_, hu.completed⟩ hgen hs fun _ _ => hc
  cases success <;> simp [Supervisor.note, debt, hu.clear]

theorem announceClose_frame (w : Supervisor) : w.announceClose.closing = true ∧
    w.announceClose.started = w.started := by
  obtain ⟨-, -, -, hclosing, hstarted, -⟩ :=
    interruptAttempt_frame ({ w with closing := true } : Supervisor).bump
  exact ⟨hclosing, hstarted⟩

theorem inv_announceClose (h : Inv w) : Inv w.announceClose :=
  @Inv.bumped w { w with closing := true } h rfl rfl (fun _ => rfl) rfl rfl rfl rfl _

theorem inv_beginClose (h : Inv w) (id : Nat) : Inv (w.beginClose id) := by
  unfold Supervisor.beginClose
  split
  · split
    · exact h.closer id (by simp)
    · exact h.closed id (by simp)
  · obtain ⟨hclosing, hstarted⟩ := announceClose_frame w
    split
    · exact (inv_announceClose h).closer id (by simp)
    · next hnone =>
      have hs : w.started = false := h.started_of_worker (by simpa using hnone)
      exact (inv_announceClose h).reconcileCalled hclosing (hstarted.trans hs) id

theorem inv_joined {id : Nat} {next : Supervisor} (h : Inv w) (hnext : Inv next)
    (hv : w.joined id next = some v) : Inv v := by
  unfold Supervisor.joined at hv
  split at hv
  · obtain rfl := Option.some.inj hv
    exact hnext
  · obtain rfl := Option.some.inj hv
    exact h.closed id (by simp)
  · cases hv

theorem inv_closeStep {id : Nat} {outcome : Except Raised CleanupResult} {pc : ClosePc}
    (h : Inv w) (hpc : w.closers id = some pc) (hv : w.closeStep id outcome pc = some v) :
    Inv v := by
  cases pc with
  | closeLock =>
      simp only [Supervisor.closeStep] at hv
      split at hv
      · obtain rfl := Option.some.inj hv
        exact Inv.closer (w := { w with closeLock := some id })
          (h.quiet rfl rfl rfl rfl rfl rfl rfl fun _ hid => hid) id (by simp)
      · cases hv
  | «section» =>
      obtain rfl := Option.some.inj hv
      exact inv_beginClose h id
  | joinReturn result => exact inv_joined h (h.closed id (by simp)) hv
  | reconciling =>
      obtain rfl := Option.some.inj hv
      obtain ⟨hc, hs⟩ := h.closers id hpc
      exact (h.reconcileReturned hc hs _).closer id (by simp)
  | publishing result =>
      obtain rfl := Option.some.inj hv
      exact (inv_publishClosed h result).closed id (by simp)
  | join => exact inv_joined h (h.closer id (by simp)) hv
  | collect =>
      simp only [Supervisor.closeStep] at hv
      split at hv
      · obtain rfl := Option.some.inj hv
        exact h.closed id (by simp)
      · obtain rfl := Option.some.inj hv
        exact (inv_publishClosed h _).closed id (by simp)
  | returned result => cases hv
  | raised => cases hv

theorem inv_publish (h : Inv w) (k : Worker) (event : AttemptEvent) : Inv (w.publish k event) := by
  unfold Supervisor.publish
  split
  · exact h
  · exact h.quiet rfl rfl rfl rfl rfl rfl rfl fun _ hid => hid

/-- Every action keeps the supervisor's invariant. -/
theorem step_inv {a : Action} (h : Inv w) (hv : w.step a = some v) : Inv v := by
  cases a with
  | start spawned =>
      obtain rfl := Option.some.inj hv
      exact inv_start h spawned
  | selectMode mode outcome =>
      obtain rfl := Option.some.inj hv
      exact inv_selectMode h mode outcome
  | updateConfig replacement outcome =>
      simp only [Supervisor.step] at hv
      split at hv
      · next hmode =>
        obtain rfl := Option.some.inj hv
        exact inv_updateConfig h outcome hmode
      · cases hv
  | restart =>
      obtain rfl := Option.some.inj hv
      exact inv_restart h
  | close id =>
      simp only [Supervisor.step] at hv
      split at hv
      · obtain rfl := Option.some.inj hv
        exact h.closer id (by simp)
      · cases hv
  | closeStep id outcome =>
      obtain ⟨pc, hpc, hv⟩ := Option.bind_eq_some_iff.mp hv
      exact inv_closeStep h hpc hv
  | publish attempt event =>
      simp only [Supervisor.step] at hv
      split at hv
      · obtain ⟨k, -, rfl⟩ := Option.map_eq_some_iff.mp hv
        exact inv_publish h k event
      · cases hv
  | work reply =>
      obtain ⟨k, hk, hv⟩ := Option.bind_eq_some_iff.mp hv
      by_cases hs : w.started = true
      · obtain ⟨k', hk', hw⟩ := h.begun hs
        obtain rfl := Option.some.inj (hk.symm.trans hk')
        exact (works_work hw rfl hv).inv h hk
      · have hu := (h.unbegun (by simpa using hs)).1.worker
        rw [hk] at hu
        cases hu

/-- The invariant holds in every state of every run of a new supervisor. -/
theorem reaches_inv {config : LiveConfig}
    (run : supervisorSystem.Reaches System.Any (Supervisor.create config) w) : Inv w :=
  run.invariant (P := Inv) (fun _ _ _ h _ hv => step_inv h hv)
    (Inv.ofUnbegun (w := Supervisor.create config) trivial ⟨rfl, rfl, rfl, rfl⟩ (Int.le_refl _) rfl fun _ hid => by cases hid)

end Steps

section Safety

theorem Runs.length_le (w : Supervisor) {pc : Pc} (h : Runs w pc) : (openRuns w.log).length ≤ 1 := by
  cases pc with
  | running n i => simp [show openRuns w.log = [n] from h]
  | launching n i => simp [h.1]
  | _ => simp [show openRuns w.log = [] from h]

theorem Inv.length_le (h : Inv w) : (openRuns w.log).length ≤ 1 := by
  by_cases hs : w.started = true
  · obtain ⟨k, -, hk⟩ := h.begun hs
    exact hk.runs.length_le
  · simp [(h.unbegun (by simpa using hs)).1.runs]

/-- At most one run is in progress. An attempt is installed only on a device
that the latest reconciliation found stopped, with every failed cleanup since
followed by a generation change and a successful reconciliation, in a
generation where no attempt has completed, and while the supervisor is open,
its mode is active and the worker's generation is the current one; what runs is
the attempt installed last. -/
theorem physical_safety {config : LiveConfig}
    (run : supervisorSystem.Reaches System.Any (Supervisor.create config) w) :
    (openRuns w.log).length ≤ 1 ∧
    (∀ newer i older, w.log = newer ++ .installed i :: older →
      freshBaseline older = true ∧ debt older = .clear ∧ openRuns older = [] ∧
      i.generation ∉ completedIn older ∧
      i.closing = false ∧ i.mode ≠ .stopped ∧ i.appliedGeneration = i.generation) ∧
    ∀ newer n older, w.log = newer ++ .runStarted n :: older →
      lastInstalled older = some n ∧ openRuns older = [] := by
  have hinv := reaches_inv run
  refine ⟨hinv.length_le, fun newer i older hlog => ?_, fun newer n older hlog => ?_⟩
  · have hsound := hinv.sound
    rw [hlog] at hsound
    exact hsound.older.1
  · have hsound := hinv.sound
    rw [hlog] at hsound
    exact hsound.older.1

/-- One attempt up to its run. -/
def runAttempt (n : Nat) : List Action :=
  [.work (.locked (.ok 0)), .work (.created (.ok n)), .work (.locked (.ok 0)), .work .launch]

theorem gadget_busy : "gadget busy" ≠ "" := by decide

/-- The first attempt raises and so does its `stop`; a restart admits the second. -/
def restartAfterFailedCleanup : List Action :=
  let raised : Raised := ⟨"gadget busy", gadget_busy⟩
  [.start true, .work (.cleanup (.ok .empty)), .work (.locked (.ok 0))] ++ runAttempt 0 ++
    [.work (.ran (.error raised)), .work (.cleanup (.error raised)), .work (.locked (.ok 0)),
      .work (.cleanup (.ok .empty)), .work (.locked (.ok 0)), .restart, .work (.locked (.ok 0)),
      .work (.cleanup (.ok .empty)), .work (.locked (.ok 0))] ++ runAttempt 1

theorem physical_safety_restart :
    ∃ w older, supervisorSystem.exec
        (Supervisor.create ⟨.desktop, "", 30, 4000, "user", false⟩) restartAfterFailedCleanup =
          some w ∧
      w.log = .runStarted 1 :: .installed ⟨1, 1, 1, .desktop, false⟩ :: older ∧
      Event.cleanupFailed ∈ older ∧ freshBaseline older = true ∧ debt older = .clear ∧
      (openRuns w.log).length ≤ 1 := by
  have hexec : (supervisorSystem.exec (Supervisor.create ⟨.desktop, "", 30, 4000, "user", false⟩)
      restartAfterFailedCleanup).any (fun w =>
        w.log = .runStarted 1 :: .installed ⟨1, 1, 1, .desktop, false⟩ :: w.log.drop 2 ∧
          Event.cleanupFailed ∈ w.log.drop 2) = true := by decide +kernel
  obtain ⟨w, hw, hall⟩ := (Option.any_eq_true ..).mp hexec
  obtain ⟨hlog, hfailed⟩ := of_decide_eq_true hall
  obtain ⟨hone, hinstalled, -⟩ := physical_safety (System.reaches_of_exec hw)
  obtain ⟨hfresh, hclear, -⟩ := hinstalled [.runStarted 1] _ _ hlog
  exact ⟨w, w.log.drop 2, hw, hlog, hfailed, hfresh, hclear, hone⟩

end Safety

end HccastWired.Live
