import HccastWired.Foundation.Path
import HccastWired.Live.SupervisorSafety

/-!
# Shutdown of the supervisor

Which cleanups a run still owes when it is closed, who may write the final
result, and what a successful result says about the device.
-/

namespace HccastWired.Live

open Foundation

/-- The worker's external call ends with a failed cleanup. -/
def Pc.fails : Pc → Reply → Bool
  | .running _ _, .ran (.ok (some result)) => !result.cleanup.success
  | .stopping _ _, .cleanup outcome => !(Supervisor.stopped outcome).success
  | .reconciling, .cleanup outcome => !(Supervisor.reconciled outcome).success
  | .lastReconcile _, .cleanup outcome => !(Supervisor.reconciled outcome).success
  | _, _ => false

/-- The worker has checked a wholly successful cleanup before closing. -/
def Supervisor.clears (w : Supervisor) (k : Worker) : Pc → Reply → Bool
  | .settling baseline, .locked _ =>
      !w.closing && (k.pendingCleanup.merge baseline).success
  | _, _ => false

/-- A step that ends with a failed cleanup of an attempt or a failed reconciliation. -/
def failsCleanup (w : Supervisor) : Action → Bool
  | .work reply => w.worker.any fun k => k.pc.fails reply
  | .closeStep id outcome =>
      w.closers id = some .reconciling && !(Supervisor.reconciled outcome).success
  | _ => false

def clearsCleanup (w : Supervisor) : Action → Bool
  | .work reply => w.worker.any fun k => w.clears k k.pc reply
  | _ => false

/-- A failed cleanup has not been followed by a wholly successful checked one. -/
def owing : List (Supervisor × Action) → Bool
  | [] => false
  | (w, a) :: past =>
      if failsCleanup w a then true else if clearsCleanup w a then false else owing past

def Pc.isDying : Pc → Bool
  | .dying _ => true
  | _ => false

/-- An unexpected exception has left `_worker_main`. -/
def Died (past : List (Supervisor × Action)) : Prop :=
  ∃ p ∈ past, p.1.worker.any (·.pc.isDying) = true

/-- The worker after an unexpected exception, or after its end. -/
def Pc.isDead : Pc → Bool
  | .dying _ => true
  | .lastReconcile _ => true
  | .lastPublish _ => true
  | .exited => true
  | _ => false

/-- An attempt is the current one and is not stopped yet. -/
def Pc.isLaunched : Pc → Bool
  | .launching _ _ => true
  | .running _ _ => true
  | _ => false

def ClosePc.holds : ClosePc → Bool
  | .closeLock => false
  | .returned _ => false
  | .raised => false
  | _ => true

/-- The call has announced the shutdown itself. -/
def ClosePc.announced : ClosePc → Bool
  | .reconciling => true
  | .publishing _ => true
  | .join => true
  | .collect => true
  | _ => false

variable {w v : Supervisor} {k k' : Worker} {past : List (Supervisor × Action)}

/-- Whatever is still owed is remembered as unresolved. -/
def Remembered (past : List (Supervisor × Action)) (w : Supervisor) : Prop :=
  owing past = true → w.unresolvedCleanup ≠ none

/-- What holds at each program counter of the worker, closing or not. -/
def ShutAt (past : List (Supervisor × Action)) (w : Supervisor) (k : Worker) : Pc → Prop
  | .unstarted => True
  | .reconciling => calledFresh w.log = true ∧
      (owing past = true → k.pendingCleanup.success = false ∨ w.unresolvedCleanup ≠ none)
  | .settling baseline => (baseline.success = true → freshBaseline w.log = true) ∧
      (owing past = true → (k.pendingCleanup.merge baseline).success = false ∨
        w.unresolvedCleanup ≠ none)
  | .launching _ interrupt => Remembered past w ∧ w.attemptInterrupt = some interrupt ∧
      (w.closing = true → w.isSet interrupt = true)
  | .ending _ _ => owing past = true →
      k.pendingCleanup.success = false ∨ w.unresolvedCleanup ≠ none
  | .dying _ => True
  | .lastReconcile _ => w.closing = true
  | .lastPublish result => result.success = false ∧ w.closing = true
  | .exited => True
  | _ => Remembered past w

/-- What holds at each program counter of a `close()` call. -/
def CloserAt (past : List (Supervisor × Action)) (w : Supervisor) : ClosePc → Prop
  | .joinReturn result => w.closedResult = some result
  | .reconciling => w.worker = none ∧ w.closedResult = none ∧ calledFresh w.log = true ∧
      owing past = false
  | .publishing result => w.worker = none ∧ w.closedResult = none ∧
      (result.success = true → freshBaseline w.log = true ∧ owing past = false)
  | .collect => ∃ k, w.worker = some k ∧ k.pc = .exited
  | .returned result => w.closedResult = some result
  | _ => True

/-- Who may still write the final result, and what it says. -/
structure Shut (past : List (Supervisor × Action)) (w : Supervisor) : Prop where
  unresolved : ∀ u, w.unresolvedCleanup = some u → u.success = false
  worker : ∀ k, w.worker = some k →
    ShutAt past w k k.pc ∧ (k.pc ≠ .exited → w.closedResult = none)
  lock : ∀ i pc, w.closers i = some pc → pc.holds = true → w.closeLock = some i
  closers : ∀ i pc, w.closers i = some pc → CloserAt past w pc ∧
    (pc.announced = true → w.closing = true)
  result : ∀ r, w.closedResult = some r → w.closing = true ∧
    (r.success = true → freshBaseline w.log = true ∧ owing past = false)
  idle : w.worker = none → owing past = true →
    w.closedResult ≠ none ∨ ∃ i r, w.closers i = some (.publishing r)
  died : Died past → ∃ k, w.worker = some k ∧ k.pc.isDead = true ∧
    ∀ r, w.closedResult = some r → r.success = false

section Worker

theorem owing_work {reply : Reply} (hk : w.worker = some k) :
    owing ((w, .work reply) :: past) =
      if k.pc.fails reply then true else if w.clears k k.pc reply then false else owing past := by
  simp [owing, failsCleanup, clearsCleanup, hk]

theorem owing_neutral {a : Action} (hf : failsCleanup w a = false) (hc : clearsCleanup w a = false) :
    owing ((w, a) :: past) = owing past := by
  simp [owing, hf, hc]

theorem died_cons {a : Action} (h : Died ((w, a) :: past)) :
    w.worker.any (·.pc.isDying) = true ∨ Died past := by
  obtain ⟨p, hp, hdying⟩ := h
  rcases List.mem_cons.mp hp with rfl | hp
  · exact Or.inl hdying
  · exact Or.inr ⟨p, hp, hdying⟩

theorem Pc.isDead_of_isDying {pc : Pc} (h : pc.isDying = true) : pc.isDead = true := by
  cases pc <;> first | rfl | cases h

/-- A step of the worker after an exception, or with one in the past. -/
theorem Shut.dead {a : Action} (h : Shut past w) (hk : w.worker = some k)
    (hdied : Died ((w, a) :: past)) : k.pc.isDead = true := by
  rcases died_cons hdied with hdying | hold
  · rw [hk] at hdying
    exact Pc.isDead_of_isDying hdying
  · obtain ⟨k', hk', hdead, -⟩ := h.died hold
    obtain rfl := Option.some.inj (hk.symm.trans hk')
    exact hdead

/-- The worker goes on. -/
theorem Shut.moves {a : Action} (h : Shut past w) (hk : w.worker = some k) (hlive : k.pc ≠ .exited)
    (hclosers : v.closers = w.closers) (hlock : v.closeLock = w.closeLock)
    (hresult : v.closedResult = w.closedResult) (hclosing : w.closing = true → v.closing = true)
    (hk' : v.worker = some k') (hat : ShutAt ((w, a) :: past) v k' k'.pc)
    (hunresolved : ∀ u, v.unresolvedCleanup = some u → u.success = false)
    (hdead : k.pc.isDead = true → k'.pc.isDead = true) : Shut ((w, a) :: past) v := by
  have hnone : v.closedResult = none := hresult.trans ((h.worker k hk).2 hlive)
  constructor
  · exact hunresolved
  · intro k'' hk''
    obtain rfl := Option.some.inj (hk'.symm.trans hk'')
    exact ⟨hat, fun _ => hnone⟩
  · intro i pc hi hholds
    rw [hlock]
    exact h.lock i pc (hclosers ▸ hi) hholds
  · intro i pc hi
    obtain ⟨hcloser, hsets⟩ := h.closers i pc (hclosers ▸ hi)
    refine ⟨?_, fun hpc => hclosing (hsets hpc)⟩
    cases pc with
    | joinReturn result => exact hresult.trans hcloser
    | returned result => exact hresult.trans hcloser
    | reconciling =>
        have := hcloser.1
        simp [hk] at this
    | publishing result =>
        have := hcloser.1
        simp [hk] at this
    | collect =>
        obtain ⟨k'', hk'', hpc⟩ := hcloser
        obtain rfl := Option.some.inj (hk.symm.trans hk'')
        exact absurd hpc hlive
    | _ => trivial
  · intro r hr
    rw [hnone] at hr
    cases hr
  · intro hworker
    rw [hk'] at hworker
    cases hworker
  · intro hdied
    refine ⟨k', hk', hdead (h.dead hk hdied), fun r hr => ?_⟩
    rw [hnone] at hr
    cases hr

/-- The worker ends, with a result or without one. -/
theorem Shut.exits {a : Action} (h : Shut past w) (hk : w.worker = some k) (hlive : k.pc ≠ .exited)
    (hclosers : v.closers = w.closers) (hlock : v.closeLock = w.closeLock)
    (hclosing : w.closing = true → v.closing = true) (hk' : v.worker = some k')
    (hexit : k'.pc = .exited)
    (hunresolved : ∀ u, v.unresolvedCleanup = some u → u.success = false)
    (hresult : ∀ r, v.closedResult = some r → v.closing = true ∧
      (r.success = true → freshBaseline v.log = true ∧ owing ((w, a) :: past) = false ∧
        k.pc.isDead = false)) : Shut ((w, a) :: past) v := by
  have hnone : w.closedResult = none := (h.worker k hk).2 hlive
  constructor
  · exact hunresolved
  · intro k'' hk''
    obtain rfl := Option.some.inj (hk'.symm.trans hk'')
    refine ⟨?_, fun hne => absurd hexit hne⟩
    rw [hexit]
    trivial
  · intro i pc hi hholds
    rw [hlock]
    exact h.lock i pc (hclosers ▸ hi) hholds
  · intro i pc hi
    obtain ⟨hcloser, hsets⟩ := h.closers i pc (hclosers ▸ hi)
    refine ⟨?_, fun hpc => hclosing (hsets hpc)⟩
    cases pc with
    | joinReturn result => simp [CloserAt, hnone] at hcloser
    | returned result => simp [CloserAt, hnone] at hcloser
    | reconciling =>
        have := hcloser.1
        simp [hk] at this
    | publishing result =>
        have := hcloser.1
        simp [hk] at this
    | collect => exact ⟨k', hk', hexit⟩
    | _ => trivial
  · intro r hr
    obtain ⟨hc, hsuccess⟩ := hresult r hr
    exact ⟨hc, fun hs => ⟨(hsuccess hs).1, (hsuccess hs).2.1⟩⟩
  · intro hworker
    rw [hk'] at hworker
    cases hworker
  · intro hdied
    refine ⟨k', hk', by rw [hexit]; rfl, fun r hr => ?_⟩
    obtain ⟨-, hsuccess⟩ := hresult r hr
    by_contra hs
    obtain ⟨-, -, hdead⟩ := hsuccess (by simpa using hs)
    rw [h.dead hk hdied] at hdead
    cases hdead

/-- The worker starts another round. -/
theorem Shut.reconcile {a : Action} (h : Shut past w) (hk : w.worker = some k)
    (hdead : k.pc.isDead = false) (howed : owing ((w, a) :: past) = true →
      k'.pendingCleanup.success = false ∨ w.unresolvedCleanup ≠ none) :
    Shut ((w, a) :: past) (w.reconcile k') := by
  have hlive : k.pc ≠ .exited := fun hexit => by simp [hexit, Pc.isDead] at hdead
  exact h.moves hk hlive rfl rfl rfl id rfl ⟨rfl, howed⟩ h.unresolved
    (fun hd => by simp [hdead] at hd)

theorem publishClosed_shut (w : Supervisor) (result : CleanupResult) :
    (w.publishClosed result).closers = w.closers ∧
      (w.publishClosed result).closeLock = w.closeLock ∧
      (w.publishClosed result).closing = w.closing ∧ (w.publishClosed result).log = w.log ∧
      (w.publishClosed result).unresolvedCleanup = w.unresolvedCleanup ∧
      (w.publishClosed result).closedResult = some result := by
  simp only [Supervisor.publishClosed]
  split <;> exact ⟨rfl, rfl, rfl, rfl, rfl, rfl⟩

theorem withUnresolved_success {checked : CleanupResult}
    (hunresolved : ∀ u, w.unresolvedCleanup = some u → u.success = false)
    (h : (w.withUnresolved checked).success = true) :
    w.unresolvedCleanup = none ∧ checked.success = true := by
  unfold Supervisor.withUnresolved at h
  split at h
  · next u hu => simp [hunresolved u hu] at h
  · next hnone => exact ⟨hnone, h⟩

/-- The locked section after a reconciliation. -/
theorem shut_settle {baseline : CleanupResult} {now : Except Raised UtcTime} (h : Shut past w)
    (hk : w.worker = some k) (hpc : k.pc = .settling baseline) :
    Shut ((w, .work (.locked now)) :: past) (w.settle k baseline) := by
  have hlive : k.pc ≠ .exited := by simp [hpc]
  have hat := (h.worker k hk).1
  rw [hpc] at hat
  obtain ⟨hfresh, howed⟩ := hat
  have howing : owing ((w, .work (.locked now)) :: past) =
      if !w.closing && (k.pendingCleanup.merge baseline).success then false else owing past := by
    rw [owing_work hk, hpc]
    rfl
  unfold Supervisor.settle
  dsimp only
  split
  · next hclosing =>
    obtain ⟨hclosers, hlock, hc, hlog, hunres, hresult⟩ :=
      publishClosed_shut w (w.withUnresolved (k.pendingCleanup.merge baseline))
    have hkeep : owing ((w, .work (.locked now)) :: past) = owing past := by
      simp [howing, hclosing]
    refine h.exits hk hlive hclosers hlock (fun _ => hc.trans hclosing) rfl rfl
      (fun u hu => h.unresolved u (hunres ▸ hu)) fun r hr => ⟨hc.trans hclosing, fun hs => ?_⟩
    obtain rfl := Option.some.inj (hresult.symm.trans hr)
    obtain ⟨hnone, hchecked⟩ := withUnresolved_success h.unresolved hs
    have hbase : baseline.success = true := by simp at hchecked; exact hchecked.2
    refine ⟨?_, ?_, by simp [hpc, Pc.isDead]⟩
    · show freshBaseline (w.publishClosed _).log = true
      rw [hlog]
      exact hfresh hbase
    · rw [hkeep]
      by_contra ho
      rcases howed (by simpa using ho) with hfail | hsome
      · rw [hchecked] at hfail
        cases hfail
      · exact hsome hnone
  next hopen =>
  split
  · next hfail =>
    refine h.moves hk hlive rfl rfl rfl id rfl (fun _ => by simp [Supervisor.withWorker,
      Supervisor.note, Supervisor.publishCleanupError]) (fun u hu => ?_) (by simp [hpc, Pc.isDead])
    obtain rfl := Option.some.inj hu
    by_contra hs
    obtain ⟨-, hchecked⟩ := withUnresolved_success h.unresolved (by simpa using hs)
    rw [hfail] at hchecked
    cases hchecked
  · next hsuccess =>
    have hclear : owing ((w, .work (.locked now)) :: past) = false := by
      rw [howing, if_pos]
      simpa [hopen] using hsuccess
    have hremembered : ∀ u : Supervisor, Remembered ((w, .work (.locked now)) :: past) u :=
      fun u ho => by simp [hclear] at ho
    unfold Supervisor.proceed
    dsimp only
    split
    · exact h.moves hk hlive rfl rfl rfl id rfl (hremembered _) (fun u hu => by cases hu)
        (by simp [hpc, Pc.isDead])
    split
    · exact h.moves hk hlive rfl rfl rfl id rfl (hremembered _) (fun u hu => by cases hu)
        (by simp [hpc, Pc.isDead])
    · split
      · exact h.moves hk hlive rfl rfl rfl id rfl (hremembered _) (fun u hu => by cases hu)
          (by simp [hpc, Pc.isDead])
      · exact h.moves hk hlive rfl rfl rfl id rfl (hremembered _) (fun u hu => by cases hu)
          (by simp [hpc, Pc.isDead])

theorem shut_install {attempt : Nat} {config : LiveConfig} {now : Except Raised UtcTime}
    (h : Shut past w) (hk : w.worker = some k) (hpc : k.pc = .installing attempt config) :
    Shut ((w, .work (.locked now)) :: past) (w.install k attempt config now) := by
  have hlive : k.pc ≠ .exited := by simp [hpc]
  have hat := (h.worker k hk).1
  rw [hpc] at hat
  have hat : Remembered past w := hat
  have hkeep : owing ((w, .work (.locked now)) :: past) = owing past := by
    rw [owing_work hk, hpc]
    rfl
  unfold Supervisor.install
  split
  · exact h.reconcile hk (by simp [hpc, Pc.isDead]) fun ho => Or.inr (hat (hkeep ▸ ho))
  next hgo =>
  obtain ⟨hopen, -⟩ := not_outdated hgo
  cases now with
  | error e => exact h.moves hk hlive rfl rfl rfl id rfl trivial h.unresolved (fun _ => rfl)
  | ok t =>
      refine h.moves hk hlive rfl rfl rfl id rfl ⟨fun ho => hat (hkeep ▸ ho), rfl, fun hc => ?_⟩
        h.unresolved (by simp [hpc, Pc.isDead])
      have hc : w.closing = true := hc
      rw [hopen] at hc
      cases hc

/-- The locked section after an attempt. -/
theorem shut_clearAttempt {attempt : Nat} {result : Option AttemptResult}
    {now : Except Raised UtcTime} (h : Shut past w) (hk : w.worker = some k)
    (hpc : k.pc = .ending attempt result) :
    Shut ((w, .work (.locked now)) :: past) (w.clearAttempt k attempt result) := by
  have hlive : k.pc ≠ .exited := by simp [hpc]
  have hat := (h.worker k hk).1
  rw [hpc] at hat
  have hkeep : owing ((w, .work (.locked now)) :: past) = owing past := by
    rw [owing_work hk, hpc]
    rfl
  unfold Supervisor.clearAttempt
  dsimp only
  split <;> split <;>
    exact h.moves hk hlive rfl rfl rfl id rfl ⟨rfl, fun ho => hat (hkeep ▸ ho)⟩ h.unresolved
      (by simp [hpc, Pc.isDead])

theorem shut_workerFailed {error : Raised} {now : Except Raised UtcTime} (h : Shut past w)
    (hk : w.worker = some k) (hpc : k.pc = .dying error) :
    Shut ((w, .work (.locked now)) :: past) (w.workerFailed k error) := by
  have hlive : k.pc ≠ .exited := by simp [hpc]
  unfold Supervisor.workerFailed Supervisor.interruptAttempt
  dsimp only
  split <;> exact h.moves hk hlive rfl rfl rfl (fun _ => rfl) rfl rfl h.unresolved (fun _ => rfl)

/-- Every step of the worker. -/
theorem shut_work {reply : Reply} (h : Shut past w) (hk : w.worker = some k) {pc : Pc}
    (hpc : k.pc = pc) (hv : w.work k pc reply = some v) : Shut ((w, .work reply) :: past) v := by
  have hat := (h.worker k hk).1
  rw [hpc] at hat
  have howing : owing ((w, .work reply) :: past) =
      if pc.fails reply then true else if w.clears k pc reply then false else owing past := by
    rw [owing_work hk, hpc]
  have moves : ∀ {u : Supervisor} {k' : Worker}, pc.isDead = false → u.closers = w.closers →
      u.closeLock = w.closeLock → u.closedResult = w.closedResult → u.closing = w.closing →
      u.unresolvedCleanup = w.unresolvedCleanup → u.worker = some k' →
      ShutAt ((w, .work reply) :: past) u k' k'.pc → Shut ((w, .work reply) :: past) u := by
    intro u k' hdead hclosers hlock hresult hclosing hunres hk' hat'
    have hdead : k.pc.isDead = false := hpc ▸ hdead
    refine h.moves hk ?_ hclosers hlock hresult (fun hc => hclosing.trans hc) hk' hat'
      (fun u hu => h.unresolved u (hunres ▸ hu)) (fun hd => by simp [hdead] at hd)
    rintro hexit
    simp [hexit, Pc.isDead] at hdead
  have again : ∀ {u : Supervisor} {k' : Worker}, pc.isDead = false → Remembered past w →
      owing ((w, .work reply) :: past) = owing past → Shut ((w, .work reply) :: past)
        (w.reconcile k') := fun hdead hrem hkeep =>
    h.reconcile hk (hpc ▸ hdead) fun ho => Or.inr (hrem (hkeep ▸ ho))
  -- the handler raises and the worker ends without a result
  have ended : ∀ {k' : Worker}, k'.pc = .exited → pc ≠ .exited →
      Shut ((w, .work reply) :: past) (w.withWorker k') := fun hexit hlive =>
    h.exits hk (hpc ▸ hlive) rfl rfl id rfl hexit h.unresolved fun r hr => by
      have hnone := (h.worker k hk).2 (hpc ▸ hlive)
      rw [show (w.withWorker _).closedResult = w.closedResult from rfl, hnone] at hr
      cases hr
  unfold Supervisor.work at hv
  split at hv
  all_goals try cases hv
  case h_1 outcome =>
    have howed : owing ((w, .work (.cleanup outcome)) :: past) = true →
        (k.pendingCleanup.merge (Supervisor.reconciled outcome)).success = false ∨
          w.unresolvedCleanup ≠ none := by
      intro ho
      cases hb : (Supervisor.reconciled outcome).success with
      | false => exact Or.inl (by simp [hb])
      | true =>
          rw [howing] at ho
          simp only [Pc.fails, hb, Supervisor.clears, Bool.not_true, Bool.false_eq_true,
            if_false] at ho
          rcases hat.2 ho with hp | hu
          · exact Or.inl (by simp [hp])
          · exact Or.inr hu
    refine moves rfl rfl rfl rfl rfl rfl rfl ⟨fun hb => ?_, howed⟩
    simp [Supervisor.withWorker, Supervisor.note, freshBaseline, hb, hat.1]
  case h_2 => exact shut_settle h hk hpc
  case h_3 =>
    split at hv
    · cases hv
      exact again (u := w) rfl hat howing
    · cases hv
  case h_4 =>
    unfold Supervisor.reportCompleted
    split
    · exact again (u := w) rfl hat howing
    · exact moves rfl rfl rfl rfl rfl rfl rfl fun ho => hat (howing.symm.trans ho)
  case h_5 =>
    unfold Supervisor.reportRetry
    split
    · exact again (u := w) rfl hat howing
    split
    · exact moves rfl rfl rfl rfl rfl rfl rfl trivial
    · exact moves rfl rfl rfl rfl rfl rfl rfl fun ho => hat (howing.symm.trans ho)
  case h_6 => exact again (u := w) rfl hat howing
  case h_7 => exact moves rfl rfl rfl rfl rfl rfl rfl fun ho => hat (howing.symm.trans ho)
  case h_8 =>
    split
    · exact again (u := w) rfl hat howing
    · exact moves rfl rfl rfl rfl rfl rfl rfl fun ho => hat (howing.symm.trans ho)
  case h_9 =>
    split
    · exact again (u := w) rfl hat howing
    · exact moves rfl rfl rfl rfl rfl rfl rfl fun ho => hat (howing.symm.trans ho)
  case h_10 => exact moves rfl rfl rfl rfl rfl rfl rfl fun ho => hat (howing.symm.trans ho)
  case h_11 =>
    exact moves rfl rfl rfl rfl rfl rfl rfl ⟨rfl, fun ho => Or.inr (hat (howing.symm.trans ho))⟩
  case h_12 => exact shut_install h hk hpc
  case h_13 => exact moves rfl rfl rfl rfl rfl rfl rfl fun ho => hat.1 (howing.symm.trans ho)
  case h_14 result =>
    refine moves rfl rfl rfl rfl rfl rfl rfl fun ho => ?_
    cases hs : result.cleanup.success with
    | false => exact Or.inl rfl
    | true =>
        simp only [howing, Pc.fails, hs, Supervisor.clears, Bool.not_true, Bool.false_eq_true,
          if_false] at ho
        exact Or.inr (hat ho)
  case h_15 => exact moves rfl rfl rfl rfl rfl rfl rfl fun ho => hat (howing.symm.trans ho)
  case h_16 => exact moves rfl rfl rfl rfl rfl rfl rfl fun ho => hat (howing.symm.trans ho)
  case h_17 outcome =>
    refine moves rfl rfl rfl rfl rfl rfl rfl fun ho => ?_
    cases hs : (Supervisor.stopped outcome).success with
    | false => exact Or.inl rfl
    | true =>
        simp only [howing, Pc.fails, hs, Supervisor.clears, Bool.not_true, Bool.false_eq_true,
          if_false] at ho
        exact Or.inr (hat ho)
  case h_18 => exact shut_clearAttempt h hk hpc
  case h_19 => exact shut_workerFailed h hk hpc
  case h_20 =>
    exact h.moves hk (by simp [hpc]) rfl rfl rfl id rfl ⟨rfl, hat⟩ h.unresolved (fun _ => rfl)
  case h_21 result _ =>
    obtain ⟨hclosers, hlock, hc, hlog, hunres, hresult⟩ := publishClosed_shut w result
    refine h.exits hk (by simp [hpc]) hclosers hlock (fun hc' => hc.trans hc') rfl rfl
      (fun u hu => h.unresolved u (hunres ▸ hu)) fun r hr => ⟨hc.trans hat.2, fun hs => ?_⟩
    obtain rfl := Option.some.inj (hresult.symm.trans hr)
    rw [hat.1] at hs
    cases hs
  case h_25 => exact ended rfl (by simp)
  case h_26 => exact ended rfl (by simp)
  case h_27 => exact ended rfl (by simp)
  case h_28 _ hexited _ hdying hreconcile hpublish =>
    have hlive : pc.isDead = false := by
      cases pc with
      | exited => exact (hexited rfl).elim
      | dying e => exact (hdying e rfl).elim
      | lastReconcile e => exact (hreconcile e rfl).elim
      | lastPublish r => exact (hpublish r rfl).elim
      | _ => rfl
    exact moves hlive rfl rfl rfl rfl rfl rfl trivial

end Worker

section Calls

/-- A step of a client that no cleanup depends on. -/
theorem Shut.grow {a : Action} (h : Shut past w) (hf : failsCleanup w a = false)
    (hc : clearsCleanup w a = false) : Shut ((w, a) :: past) w := by
  have hkeep : owing ((w, a) :: past) = owing past := owing_neutral hf hc
  constructor
  · exact h.unresolved
  · intro k hk
    obtain ⟨hat, hlive⟩ := h.worker k hk
    refine ⟨?_, hlive⟩
    cases hpc : k.pc <;> rw [hpc] at hat <;> simp only [ShutAt, Remembered, hkeep] at hat ⊢ <;>
      exact hat
  · exact h.lock
  · intro i pc hi
    obtain ⟨hat, hsets⟩ := h.closers i pc hi
    refine ⟨?_, hsets⟩
    cases pc <;> simp only [CloserAt, hkeep] at hat ⊢ <;> exact hat
  · rw [hkeep]
    exact h.result
  · rw [hkeep]
    exact h.idle
  · intro hdied
    rcases died_cons hdied with hdying | hold
    · obtain ⟨k, hk, hdying⟩ := (Option.any_eq_true ..).mp hdying
      refine ⟨k, hk, Pc.isDead_of_isDying hdying, fun r hr => ?_⟩
      have hnone := (h.worker k hk).2 fun hexit => by
        rw [hexit] at hdying
        cases hdying
      rw [hnone] at hr
      cases hr
    · exact h.died hold

/-- A command: it may begin a generation, set the interrupt, and set closing. -/
structure Beside (w v : Supervisor) : Prop where
  worker : v.worker = w.worker
  unresolved : v.unresolvedCleanup = w.unresolvedCleanup
  lock : v.closeLock = w.closeLock
  closers : v.closers = w.closers
  result : v.closedResult = w.closedResult
  interrupt : v.attemptInterrupt = w.attemptInterrupt
  isSet : ∀ i, w.isSet i = true → v.isSet i = true
  closing : w.closing = true → v.closing = true
  announced : v.closing = true → w.closing = true ∨
    ∀ i, w.attemptInterrupt = some i → v.isSet i = true
  called : calledFresh v.log = calledFresh w.log
  fresh : freshBaseline v.log = freshBaseline w.log

theorem Shut.beside (h : Shut past w) (hb : Beside w v) : Shut past v := by
  constructor
  · rw [hb.unresolved]
    exact h.unresolved
  · intro k hk
    obtain ⟨hat, hlive⟩ := h.worker k (hb.worker ▸ hk)
    refine ⟨?_, fun hpc => hb.result.trans (hlive hpc)⟩
    cases hpc : k.pc with
    | launching n i =>
        rw [hpc] at hat
        obtain ⟨hrem, hset, hclosing⟩ := hat
        refine ⟨by simpa only [Remembered, hb.unresolved] using hrem, hb.interrupt.trans hset,
          fun hc => ?_⟩
        rcases hb.announced hc with hold | hnew
        · exact hb.isSet i (hclosing hold)
        · exact hnew i hset
    | lastReconcile e =>
        rw [hpc] at hat
        exact hb.closing hat
    | lastPublish r =>
        rw [hpc] at hat
        exact ⟨hat.1, hb.closing hat.2⟩
    | _ =>
        rw [hpc] at hat
        simp only [ShutAt, Remembered, hb.unresolved, hb.called, hb.fresh] at hat ⊢
        try exact hat
  · rw [hb.closers, hb.lock]
    exact h.lock
  · intro i pc hi
    obtain ⟨hat, hsets⟩ := h.closers i pc (hb.closers ▸ hi)
    refine ⟨?_, fun hpc => hb.closing (hsets hpc)⟩
    cases pc <;> simp only [CloserAt, hb.worker, hb.result, hb.called, hb.fresh] at hat ⊢ <;>
      exact hat
  · intro r hr
    obtain ⟨hc, hsuccess⟩ := h.result r (hb.result ▸ hr)
    rw [hb.fresh]
    exact ⟨hb.closing hc, hsuccess⟩
  · rw [hb.worker, hb.result, hb.closers]
    exact h.idle
  · rw [hb.worker, hb.result]
    exact h.died

/-- A `close()` call moves on. -/
theorem Shut.closer (h : Shut past w) (i : Nat) {pc : ClosePc} (hat : CloserAt past w pc)
    (hsets : pc.announced = true → w.closing = true)
    (hlock : pc.holds = true → w.closeLock = some i)
    (hidle : ∀ r, w.closers i = some (.publishing r) → w.closedResult ≠ none) :
    Shut past (w.closer i pc) := by
  constructor
  · exact h.unresolved
  · intro k hk
    obtain ⟨hat, hlive⟩ := h.worker k hk
    refine ⟨?_, hlive⟩
    cases hpc : k.pc <;> rw [hpc] at hat <;> exact hat
  · intro j pc' hj hholds
    rw [closer_closers] at hj
    split at hj
    · next hji =>
      rw [hji]
      exact hlock (Option.some.inj hj ▸ hholds)
    · exact h.lock j pc' hj hholds
  · intro j pc' hj
    rw [closer_closers] at hj
    split at hj
    · obtain rfl := Option.some.inj hj
      refine ⟨?_, hsets⟩
      cases pc <;> exact hat
    · obtain ⟨hat', hsets'⟩ := h.closers j pc' hj
      refine ⟨?_, hsets'⟩
      cases pc' <;> exact hat'
  · exact h.result
  · intro hworker ho
    rcases h.idle hworker ho with hsome | ⟨j, r, hj⟩
    · exact Or.inl hsome
    · by_cases hji : j = i
      · exact Or.inl (hidle r (hji ▸ hj))
      · refine Or.inr ⟨j, r, ?_⟩
        rw [closer_closers, if_neg hji]
        exact hj
  · exact h.died

/-- A `close()` call gives the close lock back. -/
theorem Shut.closed (h : Shut past w) {i : Nat} {pc : ClosePc} (hheld : w.closeLock = some i)
    (hat : CloserAt past w pc) (hpc : pc.holds = false)
    (hidle : ∀ r, w.closers i = some (.publishing r) → w.closedResult ≠ none) :
    Shut past (w.closed i pc) := by
  have hsets : pc.announced = true → w.closing = true := by
    intro ha
    cases pc with
    | closeLock => cases ha
    | «section» => cases ha
    | joinReturn r => cases ha
    | returned r => cases ha
    | raised => cases ha
    | _ => exact absurd hpc (by simp [ClosePc.holds])
  have hmoved := h.closer i hat hsets (fun hp => by simp [hpc] at hp) hidle
  constructor
  · exact hmoved.unresolved
  · intro k hk
    obtain ⟨hat, hlive⟩ := hmoved.worker k hk
    refine ⟨?_, hlive⟩
    cases hk' : k.pc <;> rw [hk'] at hat <;> exact hat
  · intro j pc' hj hholds
    have hj : (w.closer i pc).closers j = some pc' := hj
    rw [closer_closers] at hj
    split at hj
    · obtain rfl := Option.some.inj hj
      rw [hpc] at hholds
      cases hholds
    · next hji =>
      have := (h.lock j pc' hj hholds).symm.trans hheld
      exact absurd (Option.some.inj this) hji
  · intro j pc' hj
    obtain ⟨hat', hsets'⟩ := hmoved.closers j pc' hj
    refine ⟨?_, hsets'⟩
    cases pc' <;> exact hat'
  · exact hmoved.result
  · exact hmoved.idle
  · exact hmoved.died

/-- The final result is published by the `close()` call that holds the lock. -/
theorem Shut.published (h : Shut past w) {i : Nat} {result : CleanupResult}
    (hheld : w.closeLock = some i) (hnone : w.closedResult = none) (hclosing : w.closing = true)
    (hworker : ∀ k, w.worker = some k → k.pc = .exited)
    (hsuccess : result.success = true → freshBaseline w.log = true ∧ owing past = false)
    (hdied : Died past → result.success = false) :
    Shut past ((w.publishClosed result).closed i (.returned result)) := by
  obtain ⟨hclosers, hlock, hc, hlog, hunres, hresult⟩ := publishClosed_shut w result
  obtain ⟨-, -, -, -, -, hworker', -⟩ := publishClosed_frame w result
  have hnew : ((w.publishClosed result).closed i (.returned result)).closedResult = some result :=
    hresult
  constructor
  · intro u hu
    exact h.unresolved u (hunres.symm.trans hu)
  · intro k hk
    have hexit := hworker k (hworker'.symm.trans hk)
    refine ⟨?_, fun hne => absurd hexit hne⟩
    rw [hexit]
    trivial
  · intro j pc hj hholds
    have hj : ((w.publishClosed result).closer i (.returned result)).closers j = some pc := hj
    rw [closer_closers] at hj
    split at hj
    · obtain rfl := Option.some.inj hj
      cases hholds
    · next hji =>
      have := (h.lock j pc (hclosers ▸ hj) hholds).symm.trans hheld
      exact absurd (Option.some.inj this) hji
  · intro j pc hj
    have hj : ((w.publishClosed result).closer i (.returned result)).closers j = some pc := hj
    rw [closer_closers] at hj
    split at hj
    · obtain rfl := Option.some.inj hj
      exact ⟨hnew, fun hpc => by cases hpc⟩
    · next hji =>
      obtain ⟨hat, hsets⟩ := h.closers j pc (hclosers ▸ hj)
      refine ⟨?_, fun hpc => hc.trans (hsets hpc)⟩
      have holder : pc.holds = true → False := fun hholds => by
        have := (h.lock j pc (hclosers ▸ hj) hholds).symm.trans hheld
        exact hji (Option.some.inj this)
      cases pc with
      | returned r => simp [CloserAt, hnone] at hat
      | closeLock => trivial
      | raised => trivial
      | _ => exact (holder rfl).elim
  · intro r hr
    obtain rfl := Option.some.inj (hnew.symm.trans hr)
    exact ⟨hc.trans hclosing, fun hs => by
      show freshBaseline (w.publishClosed result).log = true ∧ _
      rw [hlog]
      exact hsuccess hs⟩
  · intro _ _
    exact Or.inl (by simp [hnew])
  · intro hd
    obtain ⟨k, hk, hdead, -⟩ := h.died hd
    refine ⟨k, hworker'.trans hk, hdead, fun r hr => ?_⟩
    obtain rfl := Option.some.inj (hnew.symm.trans hr)
    exact hdied hd

theorem Beside.refl (w : Supervisor) : Beside w w :=
  ⟨rfl, rfl, rfl, rfl, rfl, rfl, fun _ => id, id, Or.inl, rfl, rfl⟩

/-- A command that begins a new generation. -/
theorem beside_bumped {u : Supervisor} {status : RuntimeStatus} (hlog : u.log = w.log)
    (hworker : u.worker = w.worker) (hunres : u.unresolvedCleanup = w.unresolvedCleanup)
    (hlock : u.closeLock = w.closeLock) (hclosers : u.closers = w.closers)
    (hresult : u.closedResult = w.closedResult)
    (hinterrupt : u.attemptInterrupt = w.attemptInterrupt) (hset : u.isSet = w.isSet)
    (hclosing : w.closing = true → u.closing = true) :
    Beside w { u.bump.interruptAttempt with status } := by
  have hbump : u.bump.attemptInterrupt = w.attemptInterrupt := hinterrupt
  have hcalled : calledFresh (.generationChanged :: u.log) = calledFresh w.log := by
    show calledFresh u.log = calledFresh w.log
    rw [hlog]
  have hfresh : freshBaseline (.generationChanged :: u.log) = freshBaseline w.log := by
    show freshBaseline u.log = freshBaseline w.log
    rw [hlog]
  unfold Supervisor.interruptAttempt
  split
  · next i hi =>
    refine ⟨hworker, hunres, hlock, hclosers, hresult, hinterrupt, fun j hj => ?_, hclosing,
      fun _ => Or.inr fun j hj => ?_, hcalled, hfresh⟩
    · show Function.update u.isSet i true j = true
      rw [Function.update_apply]
      split
      · rfl
      · rw [hset]
        exact hj
    · rw [hbump, hj] at hi
      obtain rfl := Option.some.inj hi
      show Function.update u.isSet j true j = true
      rw [Function.update_self]
  · next hi =>
    refine ⟨hworker, hunres, hlock, hclosers, hresult, hinterrupt, fun j hj => ?_, hclosing,
      fun _ => Or.inr fun j hj => ?_, hcalled, hfresh⟩
    · show u.isSet j = true
      rw [hset]
      exact hj
    · rw [hbump, hj] at hi
      cases hi

/-- A step that writes only the configuration, the store or the status. -/
theorem Beside.quiet (hlog : v.log = w.log) (hworker : v.worker = w.worker)
    (hunres : v.unresolvedCleanup = w.unresolvedCleanup) (hlock : v.closeLock = w.closeLock)
    (hclosers : v.closers = w.closers) (hresult : v.closedResult = w.closedResult)
    (hinterrupt : v.attemptInterrupt = w.attemptInterrupt) (hset : v.isSet = w.isSet)
    (hclosing : v.closing = w.closing) : Beside w v :=
  ⟨hworker, hunres, hlock, hclosers, hresult, hinterrupt, fun i hi => by rw [hset]; exact hi,
    fun hc => hclosing.trans hc, fun hc => Or.inl (hclosing.symm.trans hc),
    congrArg calledFresh hlog, congrArg freshBaseline hlog⟩

theorem beside_selectMode (w : Supervisor) (mode : DesiredMode) (outcome : SaveOutcome) :
    Beside w (w.selectMode mode outcome) := by
  unfold Supervisor.selectMode Supervisor.save
  split
  · exact .refl w
  cases outcome with
  | saved =>
      exact @beside_bumped w { w with
        store := { w.config with mode := mode }, config := { w.config with mode := mode } } _
        rfl rfl rfl rfl rfl rfl rfl rfl id
  | notSaved => exact .refl w
  | replacedNotSaved => exact .quiet rfl rfl rfl rfl rfl rfl rfl rfl rfl

theorem beside_updateConfig (w : Supervisor) (replacement : Option LiveConfig)
    (outcome : SaveOutcome) : Beside w (w.updateConfig replacement outcome) := by
  unfold Supervisor.updateConfig Supervisor.save
  split
  · exact .refl w
  cases replacement with
  | none => exact .refl w
  | some replacement =>
      dsimp only
      split
      · exact .refl w
      cases outcome with
      | saved =>
          dsimp only
          split
          · exact @beside_bumped w { w with store := replacement, config := replacement } _
              rfl rfl rfl rfl rfl rfl rfl rfl id
          · exact .quiet rfl rfl rfl rfl rfl rfl rfl rfl rfl
      | notSaved => exact .refl w
      | replacedNotSaved => exact .quiet rfl rfl rfl rfl rfl rfl rfl rfl rfl

theorem beside_restart (w : Supervisor) : Beside w w.restart := by
  unfold Supervisor.restart
  split
  · exact .refl w
  split
  · exact .refl w
  · exact @beside_bumped w w _ rfl rfl rfl rfl rfl rfl rfl rfl id

theorem beside_publish (w : Supervisor) (k : Worker) (event : AttemptEvent) :
    Beside w (w.publish k event) := by
  unfold Supervisor.publish
  split
  · exact .refl w
  · exact .quiet rfl rfl rfl rfl rfl rfl rfl rfl rfl

theorem beside_announceClose (w : Supervisor) : Beside w w.announceClose :=
  @beside_bumped w { w with closing := true } _ rfl rfl rfl rfl rfl rfl rfl rfl (fun _ => rfl)

end Calls

section Steps

/-- A started worker is the first thing the log hears of. -/
theorem shut_start (h : Shut past w) (hinv : Inv w) (spawned : Bool) :
    Shut past (w.start spawned) := by
  unfold Supervisor.start
  split
  · exact h
  next hfirst =>
  obtain ⟨hopen, hstarted⟩ : w.closing = false ∧ w.started = false := by simpa using hfirst
  have hworker : w.worker = none := (hinv.unbegun hstarted).1.worker
  have hnone : w.closedResult = none := by
    cases hr : w.closedResult with
    | none => rfl
    | some r =>
        have := (h.result r hr).1
        rw [hopen] at this
        cases this
  have hidle : owing past = true → False := fun ho => by
    rcases h.idle hworker ho with hsome | ⟨i, r, hi⟩
    · exact hsome hnone
    · have := (h.closers i _ hi).2 rfl
      rw [hopen] at this
      cases this
  have hdied : ¬ Died past := fun hd => by
    obtain ⟨k, hk, -⟩ := h.died hd
    rw [hworker] at hk
    cases hk
  have hclosers : ∀ {u : Supervisor} {i pc}, u.closedResult = none → w.closers i = some pc →
      CloserAt past u pc ∧ (pc.announced = true → u.closing = true) := by
    intro u i pc hu hi
    obtain ⟨hat, hsets⟩ := h.closers i pc hi
    cases pc with
    | joinReturn r => simp [CloserAt, hnone] at hat
    | returned r => simp [CloserAt, hnone] at hat
    | closeLock => exact ⟨trivial, fun hpc => by cases hpc⟩
    | «section» => exact ⟨trivial, fun hpc => by cases hpc⟩
    | raised => exact ⟨trivial, fun hpc => by cases hpc⟩
    | _ => simp [ClosePc.announced, hopen] at hsets
  split
  all_goals
    constructor
    · exact h.unresolved
    · intro k hk
      obtain rfl := Option.some.inj hk
      refine ⟨?_, fun _ => hnone⟩
      first
        | exact ⟨rfl, fun ho => (hidle ho).elim⟩
        | trivial
    · exact h.lock
    · exact fun i pc hi => hclosers hnone hi
    · intro r hr
      have hr : w.closedResult = some r := hr
      rw [hnone] at hr
      cases hr
    · intro hn
      cases hn
    · exact fun hd => (hdied hd).elim

theorem joined_cases {id : Nat} {next : Supervisor} (hv : w.joined id next = some v) :
    (v = next ∧ ∃ k, w.worker = some k ∧ k.pc = .exited) ∨ v = w.closed id .raised := by
  unfold Supervisor.joined at hv
  split at hv
  · next hexit =>
    cases hv
    obtain ⟨k, hk, hpc⟩ := Option.map_eq_some_iff.mp hexit
    exact Or.inl ⟨rfl, k, hk, hpc⟩
  · cases hv
    exact Or.inr rfl
  · cases hv

/-- Another `close()` call that does not hold the lock is not at work. -/
theorem Shut.otherCall (h : Shut past w) {i j : Nat} {pc : ClosePc} (hheld : w.closeLock = some i)
    (hj : w.closers j = some pc) (hji : j ≠ i) : pc.holds = false := by
  by_contra hholds
  have := (h.lock j pc hj (by simpa using hholds)).symm.trans hheld
  exact hji (Option.some.inj this)

/-- `close` without a worker calls the reconciliation itself. -/
theorem Shut.reconcileCalled (h : Shut past w) {i : Nat} (hheld : w.closeLock = some i)
    (hnone : w.closedResult = none) (hworker : w.worker = none) (hclosing : w.closing = true)
    (hclear : owing past = false) :
    Shut past ((w.note .reconcileCalled).closer i .reconciling) := by
  constructor
  · exact h.unresolved
  · intro k hk
    have hk : w.worker = some k := hk
    rw [hworker] at hk
    cases hk
  · intro j pc hj hholds
    rw [closer_closers] at hj
    split at hj
    · next hji =>
      rw [hji]
      exact hheld
    · exact h.lock j pc hj hholds
  · intro j pc hj
    rw [closer_closers] at hj
    split at hj
    · obtain rfl := Option.some.inj hj
      exact ⟨⟨hworker, hnone, rfl, hclear⟩, fun _ => hclosing⟩
    · next hji =>
      have hfree := h.otherCall hheld hj hji
      obtain ⟨hat, hsets⟩ := h.closers j pc hj
      refine ⟨?_, hsets⟩
      cases pc with
      | closeLock => trivial
      | raised => trivial
      | returned r => exact hat
      | _ => exact absurd hfree (by simp [ClosePc.holds])
  · intro r hr
    have hr : w.closedResult = some r := hr
    rw [hnone] at hr
    cases hr
  · intro _ ho
    rw [hclear] at ho
    cases ho
  · exact h.died

/-- The reconciliation of `close` itself returns or raises. -/
theorem Shut.reconciled (h : Shut past w) {i : Nat} {outcome : Except Raised CleanupResult}
    (hpc : w.closers i = some .reconciling) :
    Shut ((w, .closeStep i outcome) :: past)
      ((w.note (.reconcileReturned (Supervisor.reconciled outcome).success)).closer i
        (.publishing (Supervisor.reconciled outcome))) := by
  have hheld := h.lock i _ hpc rfl
  obtain ⟨⟨hworker, hnone, hcalled, hclear⟩, hclosing⟩ := h.closers i _ hpc
  constructor
  · exact h.unresolved
  · intro k hk
    have hk : w.worker = some k := hk
    rw [hworker] at hk
    cases hk
  · intro j pc hj hholds
    rw [closer_closers] at hj
    split at hj
    · next hji =>
      rw [hji]
      exact hheld
    · exact h.lock j pc hj hholds
  · intro j pc hj
    rw [closer_closers] at hj
    split at hj
    · obtain rfl := Option.some.inj hj
      refine ⟨⟨hworker, hnone, fun hs => ⟨?_, ?_⟩⟩, fun _ => hclosing rfl⟩
      · simp [Supervisor.closer, Supervisor.note, freshBaseline, hs, hcalled]
      · simp [owing, failsCleanup, clearsCleanup, hs, hclear]
    · next hji =>
      have hfree := h.otherCall hheld hj hji
      obtain ⟨hat, hsets⟩ := h.closers j pc hj
      refine ⟨?_, hsets⟩
      cases pc with
      | closeLock => trivial
      | raised => trivial
      | returned r => exact hat
      | _ => exact absurd hfree (by simp [ClosePc.holds])
  · intro r hr
    have hr : w.closedResult = some r := hr
    rw [hnone] at hr
    cases hr
  · intro _ _
    refine Or.inr ⟨i, Supervisor.reconciled outcome, ?_⟩
    rw [closer_closers, if_pos rfl]
  · intro hd
    rcases died_cons hd with hdying | hold
    · rw [hworker] at hdying
      cases hdying
    · exact h.died hold

theorem Shut.acquired (h : Shut past w) (hfree : w.closeLock = none) (i : Nat) :
    Shut past { w with closeLock := some i } where
  unresolved := h.unresolved
  worker k hk := by
    obtain ⟨hat, hlive⟩ := h.worker k hk
    refine ⟨?_, hlive⟩
    cases hpc : k.pc <;> rw [hpc] at hat <;> exact hat
  lock j pc hj hholds := by
    have := h.lock j pc hj hholds
    rw [hfree] at this
    cases this
  closers j pc hj := by
    obtain ⟨hat, hsets⟩ := h.closers j pc hj
    refine ⟨?_, hsets⟩
    cases pc <;> exact hat
  result := h.result
  idle := h.idle
  died := h.died

theorem shut_beginClose (h : Shut past w) {i : Nat} (hpc : w.closers i = some .section) :
    Shut past (w.beginClose i) := by
  have hheld := h.lock i _ hpc rfl
  have hnotpub : ∀ r, w.closers i ≠ some (.publishing r) := fun r hr => by
    rw [hpc] at hr
    cases hr
  unfold Supervisor.beginClose
  split
  · next r hr =>
    split
    · exact h.closer i hr (fun ha => by cases ha) (fun _ => hheld) fun r hr => (hnotpub r hr).elim
    · exact h.closed hheld hr rfl fun r hr => (hnotpub r hr).elim
  · next hnone =>
    have hb := beside_announceClose w
    have hclosing : w.announceClose.closing = true := (announceClose_frame w).1
    have hannounced := h.beside hb
    have hpc' : ∀ r, w.announceClose.closers i = some (.publishing r) →
        w.announceClose.closedResult ≠ none := fun r hr => by
      rw [hb.closers] at hr
      exact (hnotpub r hr).elim
    split
    · exact hannounced.closer i trivial (fun _ => hclosing) (fun _ => hb.lock.trans hheld) hpc'
    · next hworker =>
      have hworker : w.worker = none := by simpa using hworker
      refine hannounced.reconcileCalled (hb.lock.trans hheld) (hb.result.trans hnone)
        (hb.worker.trans hworker) hclosing ?_
      by_contra ho
      rcases h.idle hworker (by simpa using ho) with hsome | ⟨j, r, hj⟩
      · exact hsome hnone
      · have := (h.lock j _ hj rfl).symm.trans hheld
        obtain rfl := Option.some.inj this
        exact hnotpub r hj

/-- A step of `close` other than the end of its own reconciliation. -/
theorem shut_closeStep {i : Nat} {outcome : Except Raised CleanupResult} {pc : ClosePc}
    (h : Shut past w) (hpc : w.closers i = some pc) (hne : pc ≠ .reconciling)
    (hv : w.closeStep i outcome pc = some v) : Shut past v := by
  have hnotpub : (∀ r, pc ≠ .publishing r) → ∀ r, w.closers i = some (.publishing r) →
      w.closedResult ≠ none := fun hnot r hr => by
    rw [hpc] at hr
    exact absurd (Option.some.inj hr) (hnot r)
  obtain ⟨hat, hsets⟩ := h.closers i pc hpc
  have hdied : ∀ {result : CleanupResult}, w.worker = none → Died past → result.success = false :=
    fun hnone hd => by
      obtain ⟨k, hk, -⟩ := h.died hd
      rw [hnone] at hk
      cases hk
  cases pc with
  | closeLock =>
      simp only [Supervisor.closeStep] at hv
      split at hv
      · next hfree =>
        cases hv
        exact (h.acquired hfree i).closer i trivial (fun ha => by cases ha) (fun _ => rfl)
          (hnotpub (by simp))
      · cases hv
  | «section» =>
      cases hv
      exact shut_beginClose h hpc
  | joinReturn result =>
      have hheld := h.lock i _ hpc rfl
      rcases joined_cases hv with ⟨rfl, -⟩ | rfl
      · exact h.closed hheld hat rfl (hnotpub (by simp))
      · exact h.closed hheld trivial rfl (hnotpub (by simp))
  | reconciling => exact absurd rfl hne
  | publishing result =>
      have hheld := h.lock i _ hpc rfl
      obtain ⟨hworker, hnone, hsuccess⟩ := hat
      cases hv
      refine h.published hheld hnone (hsets rfl) (fun k hk => ?_) hsuccess (hdied hworker)
      rw [hworker] at hk
      cases hk
  | join =>
      have hheld := h.lock i _ hpc rfl
      rcases joined_cases hv with ⟨rfl, hexit⟩ | rfl
      · exact h.closer i hexit (fun _ => hsets rfl) (fun _ => hheld) (hnotpub (by simp))
      · exact h.closed hheld trivial rfl (hnotpub (by simp))
  | collect =>
      have hheld := h.lock i _ hpc rfl
      obtain ⟨k, hk, hexit⟩ := hat
      simp only [Supervisor.closeStep] at hv
      split at hv
      · next r hr =>
        cases hv
        exact h.closed hheld hr rfl (hnotpub (by simp))
      · next hnone =>
        cases hv
        refine h.published hheld hnone (hsets rfl) (fun k' hk' => ?_) (fun hs => by cases hs)
          fun _ => rfl
        obtain rfl := Option.some.inj (hk.symm.trans hk')
        exact hexit
  | returned result => cases hv
  | raised => cases hv

/-- Every action keeps what shutdown relies on. -/
theorem step_shut {a : Action} (hinv : Inv w) (h : Shut past w) (hv : w.step a = some v) :
    Shut ((w, a) :: past) v := by
  cases a with
  | start spawned =>
      cases hv
      exact shut_start (h.grow rfl rfl) hinv spawned
  | selectMode mode outcome =>
      cases hv
      exact (h.grow rfl rfl).beside (beside_selectMode w mode outcome)
  | updateConfig replacement outcome =>
      simp only [Supervisor.step] at hv
      split at hv
      · cases hv
        exact (h.grow rfl rfl).beside (beside_updateConfig w replacement outcome)
      · cases hv
  | restart =>
      cases hv
      exact (h.grow rfl rfl).beside (beside_restart w)
  | close i =>
      simp only [Supervisor.step] at hv
      split at hv
      · next hfresh =>
        cases hv
        refine (h.grow rfl rfl).closer i trivial (fun ha => by cases ha) (fun hh => by cases hh)
          fun r hr => ?_
        rw [Option.isNone_iff_eq_none.mp hfresh] at hr
        cases hr
      · cases hv
  | closeStep i outcome =>
      obtain ⟨pc, hpc, hv⟩ := Option.bind_eq_some_iff.mp hv
      by_cases hre : pc = .reconciling
      · subst hre
        cases hv
        exact h.reconciled hpc
      · refine shut_closeStep (h.grow ?_ rfl) hpc hre hv
        simp [failsCleanup, hpc, hre]
  | publish attempt event =>
      simp only [Supervisor.step] at hv
      split at hv
      · obtain ⟨k, -, rfl⟩ := Option.map_eq_some_iff.mp hv
        exact (h.grow rfl rfl).beside (beside_publish w k event)
      · cases hv
  | work reply =>
      obtain ⟨k, hk, hv⟩ := Option.bind_eq_some_iff.mp hv
      exact shut_work h hk rfl hv

theorem path_shut {config : LiveConfig}
    (run : supervisorSystem.Path System.Any (Supervisor.create config) past w) :
    Inv w ∧ Shut past w := by
  refine run.invariant (P := fun past w => Inv w ∧ Shut past w) ⟨reaches_inv .refl, ?_⟩ ?_
  · constructor
    · exact fun u hu => by cases hu
    · exact fun k hk => by cases hk
    · exact fun i pc hi => by cases hi
    · exact fun i pc hi => by cases hi
    · exact fun r hr => by cases hr
    · exact fun _ ho => by cases ho
    · rintro ⟨p, hp, -⟩
      cases hp
  · rintro past w a v - ⟨hinv, hshut⟩ - hv
    exact ⟨step_inv hinv hv, step_shut hinv hshut hv⟩

end Steps

section Result

/-- The worker's steps once closing is set: an attempt may still be launched
if it was installed before, but none is installed. -/
theorem work_closing {reply : Reply} {n i : Nat} {pc : Pc} (hclosing : w.closing = true)
    (hpc : k.pc = pc) (hv : w.work k pc reply = some v) (hk' : v.worker = some k') :
    k'.pc ≠ .launching n i ∧ (k'.pc = .running n i → k.pc = .launching n i) := by
  have hout : w.outdated k = true := outdated_iff.mpr (Or.inl hclosing)
  have other : ∀ {u : Supervisor} {k'' : Worker}, u.worker = some k'' → u = v →
      k''.pc.isLaunched = false →
      k'.pc ≠ .launching n i ∧ (k'.pc = .running n i → k.pc = .launching n i) := by
    intro u k'' hu huv hnot
    subst huv
    obtain rfl := Option.some.inj (hu.symm.trans hk')
    constructor
    · intro hl
      simp [hl, Pc.isLaunched] at hnot
    · intro hr
      simp [hr, Pc.isLaunched] at hnot
  unfold Supervisor.work at hv
  split at hv
  all_goals try cases hv
  case h_2 baseline _ =>
    unfold Supervisor.settle at hk' other
    rw [if_pos hclosing] at hk' other
    exact other rfl rfl rfl
  case h_3 =>
    rw [if_pos hout] at hv
    exact other rfl (Option.some.inj hv) rfl
  case h_4 =>
    unfold Supervisor.reportCompleted at hk' other
    rw [if_pos hout] at hk' other
    exact other rfl rfl rfl
  case h_5 =>
    unfold Supervisor.reportRetry at hk' other
    rw [if_pos hout] at hk' other
    exact other rfl rfl rfl
  case h_8 =>
    rw [if_pos hout] at hk' other
    exact other rfl rfl rfl
  case h_9 =>
    rw [if_pos hout] at hk' other
    exact other rfl rfl rfl
  case h_12 =>
    unfold Supervisor.install at hk' other
    rw [if_pos hout] at hk' other
    exact other rfl rfl rfl
  case h_13 attempt interrupt =>
    obtain rfl := Option.some.inj hk'
    constructor
    · intro hl
      cases hl
    · intro hr
      cases hr
      exact hpc
  all_goals exact other rfl rfl rfl

theorem worker_beginClose (w : Supervisor) (i : Nat) : (w.beginClose i).worker = w.worker := by
  unfold Supervisor.beginClose
  split
  · split <;> rfl
  · split
    · exact (beside_announceClose w).worker
    · exact (beside_announceClose w).worker

/-- A `close()` call leaves the worker to itself. -/
theorem worker_closeStep {i : Nat} {outcome : Except Raised CleanupResult} {pc : ClosePc}
    (hv : w.closeStep i outcome pc = some v) : v.worker = w.worker := by
  cases pc with
  | closeLock =>
      simp only [Supervisor.closeStep] at hv
      split at hv <;> cases hv
      rfl
  | «section» =>
      cases hv
      exact worker_beginClose w i
  | joinReturn result =>
      rcases joined_cases hv with ⟨rfl, -⟩ | rfl <;> rfl
  | reconciling =>
      cases hv
      rfl
  | publishing result =>
      cases hv
      exact (publishClosed_frame w result).2.2.2.2.2.1
  | join =>
      rcases joined_cases hv with ⟨rfl, -⟩ | rfl <;> rfl
  | collect =>
      simp only [Supervisor.closeStep] at hv
      split at hv
      · cases hv
        rfl
      · cases hv
        exact (publishClosed_frame w _).2.2.2.2.2.1
  | returned result => cases hv
  | raised => cases hv

/-- A step of another thread leaves the worker to itself once closing is set. -/
theorem worker_of_closing {a : Action} (hclosing : w.closing = true)
    (hnot : ∀ reply, a ≠ .work reply) (hv : w.step a = some v) : v.worker = w.worker := by
  cases a with
  | start spawned =>
      cases hv
      simp [Supervisor.start, hclosing]
  | selectMode mode outcome =>
      cases hv
      exact (beside_selectMode w mode outcome).worker
  | updateConfig replacement outcome =>
      simp only [Supervisor.step] at hv
      split at hv <;> cases hv
      exact (beside_updateConfig w replacement outcome).worker
  | restart =>
      cases hv
      exact (beside_restart w).worker
  | close i =>
      simp only [Supervisor.step] at hv
      split at hv <;> cases hv
      rfl
  | closeStep i outcome =>
      obtain ⟨pc, -, hv⟩ := Option.bind_eq_some_iff.mp hv
      exact worker_closeStep hv
  | publish attempt event =>
      simp only [Supervisor.step] at hv
      split at hv
      · obtain ⟨k, -, rfl⟩ := Option.map_eq_some_iff.mp hv
        exact (beside_publish w k event).worker
      · cases hv
  | work reply => exact absurd rfl (hnot reply)

/-- Once closing is set, no attempt becomes the current one, and only the one
that was about to run is run, with its interrupt set. -/
theorem step_closing {a : Action} {n i : Nat} (h : Shut past w) (hclosing : w.closing = true)
    (hv : w.step a = some v) (hk' : v.worker = some k') :
    (k'.pc = .launching n i → w.worker = some k') ∧
    (k'.pc = .running n i → w.worker = some k' ∨
      ∃ k, w.worker = some k ∧ k.pc = .launching n i ∧ w.isSet i = true) := by
  by_cases hwork : ∃ reply, a = .work reply
  · obtain ⟨reply, rfl⟩ := hwork
    obtain ⟨k, hk, hv⟩ := Option.bind_eq_some_iff.mp hv
    obtain ⟨hnone, honly⟩ := @work_closing w v k k' reply n i k.pc hclosing rfl hv hk'
    constructor
    · intro hl
      exact absurd hl hnone
    · intro hr
      have hat := (h.worker k hk).1
      rw [honly hr] at hat
      exact Or.inr ⟨k, hk, honly hr, hat.2.2 hclosing⟩
  · have hsame := worker_of_closing hclosing (fun reply hr => hwork ⟨reply, hr⟩) hv
    constructor
    · intro _
      exact hsame ▸ hk'
    · intro _
      exact Or.inl (hsame ▸ hk')

/-- The first attempt is about to run when `close` sets closing. -/
def closedBeforeRun : List Action :=
  [.start true, .work (.cleanup (.ok .empty)), .work (.locked (.ok 0)),
    .work (.locked (.ok 0)), .work (.created (.ok 0)), .work (.locked (.ok 0)),
    .close 0, .closeStep 0 (.ok .empty), .closeStep 0 (.ok .empty)]

/-- An attempt that was installed before is still run after closing was set. -/
theorem attempt_run_while_closing :
    ∃ w v, supervisorSystem.exec
        (Supervisor.create ⟨.desktop, "", 30, 4000, "user", false⟩) closedBeforeRun = some w ∧
      w.closing = true ∧ w.step (.work .launch) = some v ∧ v.log = .runStarted 0 :: w.log := by
  have hexec : (supervisorSystem.exec (Supervisor.create ⟨.desktop, "", 30, 4000, "user", false⟩)
      closedBeforeRun).any (fun w => w.closing = true ∧
        (w.step (.work .launch)).any (fun v => v.log = .runStarted 0 :: w.log)) = true := by
    decide +kernel
  obtain ⟨w, hw, hall⟩ := (Option.any_eq_true ..).mp hexec
  obtain ⟨hclosing, hnext⟩ := of_decide_eq_true hall
  obtain ⟨v, hv, hlog⟩ := (Option.any_eq_true ..).mp hnext
  exact ⟨w, v, hw, hclosing, hv, of_decide_eq_true hlog⟩

/-- Every `close()` returns one result; no attempt is installed after closing
was set, and one that is run then has its interrupt set; the result is
successful only on a device whose last cleanup is known to be whole; a worker
that died yields an unsuccessful one. -/
theorem shutdown {config : LiveConfig}
    (run : supervisorSystem.Path System.Any (Supervisor.create config) past w) :
    (∀ i j r r', w.closers i = some (.returned r) → w.closers j = some (.returned r') → r = r') ∧
    (∀ a v k' n i, w.closing = true → supervisorSystem.step w a = some v → v.worker = some k' →
      (k'.pc = .launching n i → w.worker = some k') ∧
      (k'.pc = .running n i → w.worker = some k' ∨
        ∃ k, w.worker = some k ∧ k.pc = .launching n i ∧ w.isSet i = true)) ∧
    (∀ i r, w.closers i = some (.returned r) → r.success = true →
      freshBaseline w.log = true ∧ owing past = false) ∧
    (Died past → ∀ i r, w.closers i = some (.returned r) → r.success = false) := by
  obtain ⟨-, h⟩ := path_shut run
  have returned : ∀ {i r}, w.closers i = some (.returned r) → w.closedResult = some r :=
    fun hi => (h.closers _ _ hi).1
  refine ⟨?_, ?_, ?_, ?_⟩
  · intro i j r r' hi hj
    exact Option.some.inj ((returned hi).symm.trans (returned hj))
  · intro a v k' n i hclosing hv hk'
    exact step_closing h hclosing hv hk'
  · intro i r hi
    exact (h.result r (returned hi)).2
  · intro hdied i r hi
    obtain ⟨k, -, -, hfailed⟩ := h.died hdied
    exact hfailed r (returned hi)

/-- The attempt's own cleanup fails, a restart clears it, and two calls close. -/
def closedTwice : List Action :=
  let raised : Raised := ⟨"gadget busy", gadget_busy⟩
  [.start true, .work (.cleanup (.ok .empty)), .work (.locked (.ok 0)),
    .work (.locked (.ok 0)), .work (.created (.ok 0)), .work (.locked (.ok 0)), .work .launch,
    .work (.ran (.error raised)), .work (.cleanup (.error raised)), .work (.locked (.ok 0)),
    .work (.cleanup (.ok .empty)), .work (.locked (.ok 0)), .restart, .work (.locked (.ok 0)),
    .work (.cleanup (.ok .empty)), .work (.locked (.ok 0)), .close 0, .close 1,
    .closeStep 0 (.ok .empty), .closeStep 0 (.ok .empty), .work (.locked (.ok 0)),
    .work (.cleanup (.ok .empty)), .work (.locked (.ok 0)), .closeStep 0 (.ok .empty),
    .closeStep 0 (.ok .empty), .closeStep 1 (.ok .empty), .closeStep 1 (.ok .empty),
    .closeStep 1 (.ok .empty)]

theorem shutdown_closedTwice :
    ∃ w past, supervisorSystem.Path System.Any
        (Supervisor.create ⟨.desktop, "", 30, 4000, "user", false⟩) past w ∧
      (∃ r r', w.closers 0 = some (.returned r) ∧ w.closers 1 = some (.returned r') ∧
        r = r' ∧ r.success = true) ∧
      freshBaseline w.log = true ∧ owing past = false := by
  have hexec : (supervisorSystem.exec (Supervisor.create ⟨.desktop, "", 30, 4000, "user", false⟩)
      closedTwice).any (fun w => w.closers 0 = some (.returned .empty) ∧
        w.closers 1 = some (.returned .empty)) = true := by decide +kernel
  obtain ⟨w, hw, hall⟩ := (Option.any_eq_true ..).mp hexec
  obtain ⟨hfirst, hsecond⟩ := of_decide_eq_true hall
  obtain ⟨past, hpath⟩ := System.path_of_exec (fun _ _ _ => trivial) hw
  obtain ⟨hsame, -, hsuccess, -⟩ := shutdown hpath
  obtain ⟨hfresh, hclear⟩ := hsuccess 0 _ hfirst rfl
  exact ⟨w, past, hpath, ⟨_, _, hfirst, hsecond, hsame 0 1 _ _ hfirst hsecond, rfl⟩, hfresh, hclear⟩

end Result

end HccastWired.Live
