import HccastWired.Network.Exclusivity

/-!
# The retry guard

Three failed connections must be followed by an explicit release. The history
says how many attempts have failed since the last success or explicit release;
the helper's counter agrees with it as long as the service's own cleanup and a
failing save after activation find nothing to clear.
-/

namespace HccastWired.Network

open Foundation World

variable {w v : World} {id : Nat} {s : Sender}

/-- Failed attempts since the last successful connection or client's release. -/
def streak : List LogEvent → Nat
  | [] => 0
  | .connectFailed :: rest => streak rest + 1
  | .connectSucceeded :: _ => 0
  | .released .client true :: _ => 0
  | _ :: rest => streak rest

theorem streak_released (origin : Origin) (restored : Bool) (rest : List LogEvent) :
    streak (.released origin restored :: rest) =
      if origin = .client ∧ restored = true then 0 else streak rest := by
  cases origin <;> cases restored <;> simp [streak]

/-- The release, if any, whose restoration this action completes without errors. -/
def completesRelease (w : World) : Action → Option Origin
  | .resume id reply =>
      match w.calls id, reply with
      | some (.releaseCheck s origin), .go =>
          if w.owner.any (· ≠ s) = false ∧ w.unrestored = none then some origin else none
      | some (.saveRestored [] (.release _ origin)), .saved => some origin
      | _, _ => none
  | _ => none

/-- The action lets the save after a successful activation fail. -/
def failsConnected (w : World) : Action → Bool
  | .resume id reply =>
      match w.calls id, reply with
      | some (.saveConnected _ _ _), .notSaved _ => true
      | some (.saveConnected _ _ _), .replacedNotSaved _ => true
      | _, _ => false
  | _ => false

/-- The service's own cleanup completes only while no failure is counted, and
the save after an activation fails only while none is on record. -/
def explicit (w : World) (a : Action) : Bool :=
  (completesRelease w a).all (fun origin => origin = .client ∨ w.failures = 0) &&
    (!failsConnected w a || streak w.log = 0)

abbrev Explicit (w : World) (a : Action) : Prop := explicit w a = true

theorem explicit_iff {a : Action} : Explicit w a ↔
    (∀ origin, completesRelease w a = some origin → origin ≠ .client → w.failures = 0) ∧
      (failsConnected w a = true → streak w.log = 0) := by
  have hrelease : (completesRelease w a).all (fun origin => origin = .client ∨ w.failures = 0) =
      true ↔ ∀ origin, completesRelease w a = some origin → origin ≠ .client → w.failures = 0 := by
    cases completesRelease w a <;> simp [or_iff_not_imp_left]
  have hsave : (!failsConnected w a || decide (streak w.log = 0)) = true ↔
      (failsConnected w a = true → streak w.log = 0) := by
    cases failsConnected w a <;> simp
  rw [Explicit, explicit, Bool.and_eq_true, hrelease, hsave]

/-- The counter agrees with the history, and an owner may still try. -/
def Steady (w : World) : Prop :=
  w.failures = streak w.log ∧ (w.owner.isSome = true → w.failures < 3)

/-- The counter at each program counter of the lock's holder. -/
def GuardAt (w : World) : Pc → Prop
  | .saveConnected _ _ _ => w.failures = 0 ∧ streak w.log < 3
  | .restore _ => w.failures = streak w.log
  | .saveRestored _ _ => w.failures = streak w.log
  | _ => Steady w

structure Guard (w : World) : Prop where
  free : w.operation = none → Steady w
  held : ∀ i pc, w.calls i = some pc → pc.holds = true → GuardAt w pc

theorem GuardAt.congr (hf : v.failures = w.failures) (hl : streak v.log = streak w.log)
    (ho : v.owner = w.owner) {pc : Pc} (h : GuardAt w pc) : GuardAt v pc := by
  cases pc <;> simpa only [GuardAt, Steady, hf, hl, ho] using h

theorem guard_goto {pc : Pc} (hl : Locked w id) (hat : GuardAt w pc) : Guard (w.goto id pc) where
  free hfree := by
    rw [goto_operation, hl.lock] at hfree
    cases hfree
  held i pc' hcall hholds := by
    by_cases hi : i = id
    · subst i
      rw [goto_calls_self] at hcall
      obtain rfl := Option.some.inj hcall
      exact GuardAt.congr (w := w) rfl rfl rfl hat
    · rw [goto_calls_ne _ _ hi] at hcall
      exact absurd (hl.unique i pc' hcall hholds) hi

theorem guard_leave {outcome : Except HelperError Result} (hl : Locked w id) (h : Steady w) :
    Guard (w.leave id outcome) where
  free _ := h
  held i pc' hcall hholds := by
    simp only [World.leave] at hcall
    by_cases hi : i = id
    · subst i
      rw [goto_calls_self] at hcall
      obtain rfl := Option.some.inj hcall
      cases hholds
    · rw [goto_calls_ne _ _ hi] at hcall
      exact absurd (hl.unique i pc' hcall hholds) hi

/-- A restoration clears the counter for a release only. -/
theorem guard_finishRestore {errors : List String} {k : After} (hl : Locked w id)
    (hcount : w.failures = streak w.log)
    (hexplicit : ∀ s origin, k = .release s origin → errors = [] → origin ≠ .client →
      w.failures = 0) : Guard (w.finishRestore id errors k) := by
  have unowned : ∀ u : World, u.owner = none → u.failures = streak u.log → Steady u := by
    intro u ho hu
    exact ⟨hu, fun hsome => by rw [ho] at hsome; cases hsome⟩
  unfold World.finishRestore
  cases k with
  | expired s => exact guard_leave ⟨hl.lock, hl.unique⟩ (unowned _ rfl hcount)
  | failure s e =>
      cases e <;> exact guard_leave ⟨hl.lock, hl.unique⟩ (unowned _ rfl hcount)
  | release s origin =>
      refine guard_leave ⟨hl.lock, hl.unique⟩ (unowned _ rfl ?_)
      simp only [World.note, streak_released]
      by_cases herr : errors = []
      · by_cases horigin : origin = .client
        · simp [herr, horigin]
        · have hzero := hexplicit s origin rfl herr horigin
          simp [herr, horigin, ← hcount, hzero]
      · simp [herr, hcount]
  | recover => exact guard_goto ⟨hl.lock, hl.unique⟩ (unowned _ rfl hcount)

theorem guard_beginRestore {k : After} (hl : Locked w id) (hcount : w.failures = streak w.log)
    (hexplicit : ∀ s origin, k = .release s origin → w.unrestored = none → origin ≠ .client →
      w.failures = 0) : Guard (w.beginRestore id k) := by
  simp only [World.beginRestore]
  split
  · exact guard_goto ⟨hl.lock, hl.unique⟩ hcount
  · next hnone =>
    exact guard_finishRestore ⟨hl.lock, hl.unique⟩ hcount
      fun s origin hk _ horigin => hexplicit s origin hk hnone horigin

theorem guard_fail (hl : Locked w id) (hcount : w.failures = streak w.log) (e : Failure) :
    Guard (w.fail id s e) :=
  guard_beginRestore ⟨hl.lock, hl.unique⟩ hcount fun _ _ hk => by cases hk

theorem guard_failConnect (hl : Locked w id) (hcount : w.failures = streak w.log) (e : Failure) :
    Guard (w.failConnect id s e) :=
  guard_beginRestore ⟨hl.lock, hl.unique⟩ (congrArg Nat.succ hcount) fun _ _ hk => by cases hk

theorem guard_discoverBody (hl : Locked w id) (h : Steady w) : Guard (w.discoverBody id s) := by
  unfold World.discoverBody
  split
  · exact guard_leave hl h
  · dsimp only
    split
    · exact guard_goto hl h
    · exact guard_goto ⟨hl.lock, hl.unique⟩ h

theorem guard_connectBody {candidateId : String} (hl : Locked w id) (h : Steady w) :
    Guard (w.connectBody id s candidateId) := by
  unfold World.connectBody
  split
  · split
    · split
      · exact guard_goto hl h
      · exact guard_failConnect hl h.1 _
    · exact guard_leave hl h
  · exact guard_leave hl h

theorem guard_keepAliveBody (hl : Locked w id) (h : Steady w) : Guard (w.keepAliveBody id s) := by
  unfold World.keepAliveBody
  split
  · exact guard_goto ⟨hl.lock, hl.unique⟩ h
  · exact guard_fail hl h.1 _

/-- Only an attempt that the counter allows becomes an owner. -/
theorem guard_enterLocked {acquire : Bool} {requestCancel : Option Event} {body : World → World}
    (hl : Locked w id) (h : Steady w)
    (hbody : ∀ u, Locked u id → Steady u → Guard (body u)) :
    Guard (w.enterLocked id s acquire requestCancel body) := by
  unfold World.enterLocked
  split
  · exact guard_leave hl h
  split
  · exact guard_leave hl h
  split
  · exact guard_leave hl h
  split
  · split
    · exact guard_beginRestore ⟨hl.lock, hl.unique⟩ h.1 fun _ _ hk => by cases hk
    · exact hbody w hl h
  split
  · exact guard_leave hl h
  split
  · exact guard_leave hl h
  · next hfew => exact hbody _ ⟨hl.lock, hl.unique⟩ ⟨h.1, fun _ => Nat.lt_of_not_ge hfew⟩

theorem guard_enterRequest {r : Request} (hl : Locked w id) (h : Steady w)
    (hv : w.enterRequest id r = some v) : Guard v := by
  cases r with
  | discover s requestCancel =>
      obtain rfl := Option.some.inj hv
      exact guard_enterLocked hl h fun u => guard_discoverBody
  | connect s candidateId =>
      obtain rfl := Option.some.inj hv
      exact guard_enterLocked hl h fun u => guard_connectBody
  | keepAlive s =>
      obtain rfl := Option.some.inj hv
      exact guard_enterLocked hl h fun u => guard_keepAliveBody
  | _ => cases hv

theorem streak_replaceJournal (w : World) : streak w.replaceJournal.log = streak w.log := by
  unfold World.replaceJournal
  split <;> rfl

theorem failures_replaceJournal (w : World) : w.replaceJournal.failures = w.failures :=
  congrArg NetworkHelper.failures (replaceJournal_frame w).1

theorem counted_replaceJournal (h : w.failures = streak w.log) :
    w.replaceJournal.failures = streak w.replaceJournal.log := by
  rw [failures_replaceJournal, streak_replaceJournal, h]

theorem Steady.replaceJournal (h : Steady w) : Steady w.replaceJournal :=
  ⟨counted_replaceJournal h.1, fun ho => by
    rw [failures_replaceJournal]
    exact h.2 (by rwa [replaceJournal_owner] at ho)⟩

theorem guard_journaled {reply : Reply} {saved : World → World}
    {failed : World → Failure → World} (h : w.journaled reply saved failed = some v)
    (hsaved : reply = .saved → Guard (saved w.replaceJournal))
    (hfailed : ∀ e, reply = .notSaved e → Guard (failed w e))
    (hreplaced : ∀ e, reply = .replacedNotSaved e → Guard (failed w.replaceJournal e)) :
    Guard v := by
  unfold World.journaled at h
  split at h
  · obtain rfl := Option.some.inj h
    exact hsaved rfl
  · obtain rfl := Option.some.inj h
    exact hfailed _ rfl
  · obtain rfl := Option.some.inj h
    exact hreplaced _ rfl
  · cases h

/-- A save inside an attempt that the counter allows. -/
theorem guard_saving {reply : Reply} {saved : World → World} {failed : World → Failure → World}
    (hl : Locked w id) (h : Steady w) (hv : w.journaled reply saved failed = some v)
    (hsaved : ∀ u, Locked u id → Steady u → Guard (saved u))
    (hfailed : ∀ u e, Locked u id → u.failures = streak u.log → Guard (failed u e)) : Guard v :=
  guard_journaled hv (fun _ => hsaved _ hl.replaceJournal h.replaceJournal)
    (fun e _ => hfailed _ e hl h.1)
    (fun e _ => hfailed _ e hl.replaceJournal h.replaceJournal.1)

theorem guard_linkActivated {peer : Peer} {b : Budget} {link : Activation} (hl : Locked w id)
    (h : Steady w) (ho : w.owner = some s) : Guard (w.linkActivated id s peer b link) := by
  unfold World.linkActivated
  split
  · exact guard_failConnect hl h.1 _
  split
  · exact guard_failConnect hl h.1 _
  · refine guard_goto ⟨hl.lock, hl.unique⟩ ⟨rfl, ?_⟩
    exact h.1 ▸ h.2 (by simp [ho])

/-- The save after an activation: success clears the history too. -/
theorem guard_connected {peer : Peer} {link : Activation} {reply : Reply} (hl : Locked w id)
    (h : w.failures = 0 ∧ streak w.log < 3)
    (hexplicit : (∃ e, reply = .notSaved e ∨ reply = .replacedNotSaved e) → streak w.log = 0)
    (hv : w.journaled reply (connectedSaved · id peer link) (failConnect · id s ·) = some v) :
    Guard v := by
  refine guard_journaled hv (fun _ => ?_) (fun e he => ?_) (fun e he => ?_)
  · have hzero : w.replaceJournal.failures = 0 := (failures_replaceJournal w).trans h.1
    exact guard_leave ⟨hl.replaceJournal.lock, hl.replaceJournal.unique⟩
      ⟨hzero, fun _ => show w.replaceJournal.failures < 3 by omega⟩
  · exact guard_failConnect hl (h.1.trans (hexplicit ⟨e, Or.inl he⟩).symm) _
  · refine guard_failConnect hl.replaceJournal (counted_replaceJournal ?_) _
    exact h.1.trans (hexplicit ⟨e, Or.inr he⟩).symm

/-- Outside the lock nothing that the guard looks at changes. -/
theorem Guard.outside {pc : Pc} (h : Guard w) (hpc : pc.holds = false)
    (hf : v.failures = w.failures) (ho : v.owner = w.owner) (hop : v.operation = w.operation)
    (hl : v.log = w.log) (hcalls : v.calls = w.calls) : Guard (v.goto id pc) where
  free hfree := by
    have hs := h.free (hop.symm.trans hfree)
    exact ⟨by rw [goto_log, hl]; exact hf.trans hs.1, fun hsome => by
      rw [show (v.goto id pc).failures = w.failures from hf]
      exact hs.2 (by rwa [show (v.goto id pc).owner = w.owner from ho] at hsome)⟩
  held i pc' hcall hholds := by
    by_cases hi : i = id
    · subst i
      rw [goto_calls_self] at hcall
      obtain rfl := Option.some.inj hcall
      rw [hpc] at hholds
      cases hholds
    · rw [goto_calls_ne _ _ hi, hcalls] at hcall
      exact GuardAt.congr (w := w) hf (congrArg streak hl) ho (h.held i pc' hcall hholds)

/-- Returning from any external call keeps the guard, if the cleanup is explicit. -/
theorem resume_guard {pc : Pc} {reply : Reply} (h : Guard w) (hinv : Inv w)
    (ok : Explicit w (.resume id reply)) (hcall : w.calls id = some pc)
    (hv : w.resume id pc reply = some v) : Guard v := by
  have locked : pc.holds = true → Locked w id := hinv.locked hcall
  have hat : pc.holds = true → GuardAt w pc := h.held id pc hcall
  obtain ⟨hrelease, hsave⟩ := explicit_iff.mp ok
  simp only [completesRelease, failsConnected, hcall] at hrelease hsave
  unfold World.resume at hv
  split at hv
  case h_1 =>
    obtain rfl := Option.some.inj hv
    split
    · next hfree =>
      exact guard_goto ⟨rfl, (hinv.acquired id hfree).1.unique⟩ (h.free hfree)
    · exact h.outside rfl rfl rfl rfl rfl rfl
  case h_2 => exact guard_enterRequest (locked rfl) (hat rfl) hv
  case h_5 =>
    refine guard_saving (locked rfl) (hat rfl) hv (fun u hl hu => ?_)
      (fun _ e hl hu => guard_fail hl hu e)
    unfold World.baselineSaved
    split
    · exact guard_goto ⟨hl.lock, hl.unique⟩ hu
    · exact guard_fail hl hu.1 _
  case h_8 =>
    refine guard_saving (locked rfl) (hat rfl) hv (fun u hl hu => ?_)
      (fun _ e hl hu => guard_fail hl hu e)
    unfold World.checkpointSaved
    split
    · exact guard_goto ⟨hl.lock, hl.unique⟩ hu
    · exact guard_fail hl hu.1 _
  case h_13 =>
    exact guard_saving (locked rfl) (hat rfl) hv (fun u hl hu => guard_leave hl hu)
      (fun _ e hl hu => guard_fail hl hu e)
  case h_20 =>
    refine guard_saving (locked rfl) (hat rfl) hv (fun u hl hu => ?_)
      (fun _ e hl hu => guard_failConnect hl hu e)
    unfold World.connectingSaved
    split
    · exact guard_goto ⟨hl.lock, hl.unique⟩ hu
    · exact guard_failConnect hl hu.1 _
  case h_23 =>
    refine guard_connected (locked rfl) (hat rfl) (fun hfails => ?_) hv
    obtain ⟨e, rfl | rfl⟩ := hfails <;> exact hsave rfl
  case h_28 errors k _ =>
    refine guard_journaled hv (fun hreply => ?_) (fun e _ => ?_) (fun e _ => ?_)
    · refine guard_finishRestore (locked rfl).replaceJournal (counted_replaceJournal (hat rfl))
        fun s origin hk herr horigin => ?_
      subst hk herr hreply
      exact (failures_replaceJournal w).trans (hrelease origin rfl horigin)
    · exact guard_finishRestore ⟨(locked rfl).lock, (locked rfl).unique⟩ (hat rfl)
        fun _ _ _ herr => by simp at herr
    · exact guard_finishRestore ⟨(locked rfl).replaceJournal.lock, (locked rfl).replaceJournal.unique⟩
        (counted_replaceJournal (hat rfl)) fun _ _ _ herr => by simp at herr
  case h_32 =>
    simp only [World.acquire] at hv
    split at hv
    · next hfree =>
      obtain rfl := Option.some.inj hv
      exact guard_goto ⟨rfl, (hinv.acquired id hfree).1.unique⟩ (h.free hfree)
    · cases hv
  case h_34 =>
    simp only [World.acquire] at hv
    split at hv
    · next hfree =>
      obtain rfl := Option.some.inj hv
      exact guard_beginRestore ⟨rfl, (hinv.acquired id hfree).1.unique⟩ (h.free hfree).1
        fun _ _ hk => by cases hk
    · cases hv
  case h_37 => cases hv
  all_goals obtain rfl := Option.some.inj hv
  case h_3 => exact guard_goto ⟨(locked rfl).lock, (locked rfl).unique⟩ (hat rfl)
  case h_4 => exact guard_fail (locked rfl) (hat rfl).1 _
  case h_6 => exact guard_goto ⟨(locked rfl).lock, (locked rfl).unique⟩ (hat rfl)
  case h_7 => exact guard_fail (locked rfl) (hat rfl).1 _
  case h_9 => exact guard_goto ⟨(locked rfl).lock, (locked rfl).unique⟩ (hat rfl)
  case h_10 => exact guard_fail (locked rfl) (hat rfl).1 _
  case h_11 =>
    unfold World.peersFound
    split
    · exact guard_fail (locked rfl) (hat rfl).1 _
    · exact guard_goto ⟨(locked rfl).lock, (locked rfl).unique⟩ (hat rfl)
  case h_12 => exact guard_fail (locked rfl) (hat rfl).1 _
  case h_14 =>
    unfold World.peerResolved
    split
    · exact guard_failConnect (locked rfl) (hat rfl).1 _
    · exact guard_goto (locked rfl) (hat rfl)
  case h_15 => exact guard_failConnect (locked rfl) (hat rfl).1 _
  case h_16 =>
    split
    · exact guard_goto ⟨(locked rfl).lock, (locked rfl).unique⟩ (hat rfl)
    · exact guard_failConnect (locked rfl) (hat rfl).1 _
  case h_17 => exact guard_failConnect (locked rfl) (hat rfl).1 _
  case h_18 => exact guard_goto ⟨(locked rfl).lock, (locked rfl).unique⟩ (hat rfl)
  case h_19 => exact guard_failConnect (locked rfl) (hat rfl).1 _
  case h_21 =>
    exact guard_linkActivated (locked rfl) (hat rfl) (hinv.held id _ hcall rfl).2.1
  case h_22 => exact guard_failConnect (locked rfl) (hat rfl).1 _
  case h_24 =>
    unfold World.leaseExtended
    split
    · exact guard_fail (locked rfl) (hat rfl).1 _
    · exact guard_leave ⟨(locked rfl).lock, (locked rfl).unique⟩ (hat rfl)
  case h_25 => exact guard_fail (locked rfl) (hat rfl).1 _
  case h_26 =>
    simp only [World.markRestored]
    split <;> exact guard_goto ⟨(locked rfl).lock, (locked rfl).unique⟩ (hat rfl)
  case h_27 =>
    exact guard_goto ⟨(locked rfl).lock, (locked rfl).unique⟩ (hat rfl)
  case h_29 =>
    unfold World.cancelOwner
    split <;> exact h.outside rfl rfl rfl rfl rfl rfl
  case h_30 =>
    unfold World.expireStart
    split
    · exact h.outside rfl rfl rfl rfl rfl rfl
    · split <;> exact h.outside rfl rfl rfl rfl rfl rfl
  case h_31 =>
    unfold World.releaseStart
    split <;> exact h.outside rfl rfl rfl rfl rfl rfl
  case h_33 =>
    unfold World.releaseCheck
    split
    · exact guard_leave (locked rfl) (hat rfl)
    · next hforeign =>
      refine guard_beginRestore (locked rfl) (hat rfl).1 fun s origin hk hnone horigin => ?_
      cases hk
      exact hrelease _ (if_pos ⟨by simpa using hforeign, hnone⟩) horigin
  case h_35 => exact guard_leave ⟨(locked rfl).lock, (locked rfl).unique⟩ (hat rfl)
  case h_36 => exact guard_leave ⟨(locked rfl).lock, (locked rfl).unique⟩ (hat rfl)

/-- Every action that meets the condition keeps the guard. -/
theorem step_guard {a : Action} (h : Guard w) (hinv : Inv w) (ok : Explicit w a)
    (hv : w.step a = some v) : Guard v := by
  cases a with
  | call id r =>
      simp only [World.step] at hv
      split at hv
      · obtain rfl := Option.some.inj hv
        exact h.outside (start_holds r) rfl rfl rfl rfl rfl
      · cases hv
  | resume id reply =>
      obtain ⟨pc, hcall, hv⟩ := Option.bind_eq_some_iff.mp hv
      exact resume_guard h hinv ok hcall hv
  | cancelRequest n =>
      obtain rfl := Option.some.inj hv
      exact ⟨h.free, fun i pc hcall hholds => GuardAt.congr (w := w) rfl rfl rfl
        (h.held i pc hcall hholds)⟩
  | wait t =>
      simp only [World.step] at hv
      split at hv
      · obtain rfl := Option.some.inj hv
        exact ⟨h.free, fun i pc hcall hholds => GuardAt.congr (w := w) rfl rfl rfl
          (h.held i pc hcall hholds)⟩
      · cases hv

theorem streak_finishRestore {errors : List String} {k : After}
    (hk : ∀ s, k = .release s .client → errors ≠ []) :
    streak (w.finishRestore id errors k).log = streak w.log := by
  unfold World.finishRestore
  cases k with
  | release s origin =>
      refine (streak_released origin _ w.log).trans (if_neg ?_)
      rintro ⟨rfl, herr⟩
      exact hk s rfl (by simpa using herr)
  | failure s e => cases e <;> rfl
  | _ => rfl

theorem streak_beginRestore {k : After}
    (hk : ∀ s, k = .release s .client → w.unrestored ≠ none) :
    streak (w.beginRestore id k).log = streak w.log := by
  simp only [World.beginRestore]
  split
  · rfl
  · next hnone => exact streak_finishRestore fun s hs _ => hk s hs hnone

/-- Once three attempts have failed, no transaction is under way. -/
theorem Guard.shut (h : Guard w) (hinv : Inv w) (hshut : 3 ≤ streak w.log) {pc : Pc}
    (hcall : w.calls id = some pc) : pc.inTransaction = false := by
  by_contra hin
  have hin : pc.inTransaction = true := by simpa using hin
  have hholds := Pc.holds_of_inTransaction hin
  have ho := ((hinv.held id pc hcall hholds).transaction hin).1
  have hat := h.held id pc hcall hholds
  have steady : Steady w → pc.sender.isSome = true → False := fun hs hsome => by
    have hfew := hs.2 (ho ▸ hsome)
    have hcount := hs.1
    omega
  cases pc with
  | saveConnected s peer link => exact absurd hat.2 (by omega)
  | restore k => cases hin
  | saveRestored errors k => cases hin
  | _ => first | exact steady hat rfl | cases hin

/-- Once three attempts have failed, every admission is refused. -/
theorem Guard.refuses (h : Guard w) (hshut : 3 ≤ streak w.log) {r : Request}
    (hcall : w.calls id = some (.entering r)) {acquire : Bool} {requestCancel : Option Event}
    {body : World → World} : ∃ e : HelperError,
      w.enterLocked id s acquire requestCancel body = w.leave id (.error e) ∧
        (acquire = true → requestCancel.any w.isSet = false → w.state ≠ .restoreRequired →
          e.code = "RetryRequired") := by
  have hsteady : Steady w := h.held id _ hcall rfl
  have hmany : 3 ≤ w.failures := hsteady.1 ▸ hshut
  have ho : w.owner = none := by
    by_contra hsome
    exact absurd (hsteady.2 (Option.isSome_iff_ne_none.mpr hsome)) (by omega)
  have hforeign : ¬ w.owner.any (· ≠ s) = true := by simp [ho]
  unfold World.enterLocked
  split
  · next hcancel => exact ⟨_, rfl, fun _ hclear => by rw [hclear] at hcancel; cases hcancel⟩
  split
  · next hstate => exact ⟨_, rfl, fun _ _ hs => absurd hstate hs⟩
  rw [if_neg (by simp [ho])]
  split
  · next hacquire => exact ⟨_, rfl, fun hyes => by rw [hyes] at hacquire; cases hacquire⟩
  · exact ⟨_, rfl, fun _ _ _ => rfl⟩

/-- Once three attempts have failed, only a client's release brings the count down. -/
theorem Guard.stays (h : Guard w) (hinv : Inv w) (hshut : 3 ≤ streak w.log) {a : Action}
    (hclient : completesRelease w a ≠ some .client) (hv : w.step a = some v) :
    3 ≤ streak v.log := by
  cases a with
  | call id r =>
      simp only [World.step] at hv
      split at hv
      · obtain rfl := Option.some.inj hv
        exact hshut
      · cases hv
  | resume id reply =>
      obtain ⟨pc, hcall, hv⟩ := Option.bind_eq_some_iff.mp hv
      have outside := h.shut hinv hshut hcall
      simp only [completesRelease, hcall] at hclient
      cases pc with
      | enter r =>
          cases reply <;> try cases hv
          split <;> exact hshut
      | entering r =>
          cases reply <;> try cases hv
          have refused : ∀ acquire s requestCancel (body : World → World),
              3 ≤ streak (w.enterLocked id s acquire requestCancel body).log := by
            intro acquire s requestCancel body
            obtain ⟨e, he, -⟩ := @Guard.refuses w id s h hshut r hcall acquire requestCancel body
            rw [he]
            exact hshut
          cases r <;> first
            | (obtain rfl := Option.some.inj hv; exact refused _ _ _ _)
            | cases hv
      | restore k =>
          have marked : ∀ errors group, 3 ≤ streak (w.markRestored id errors group k).log := by
            intro errors group
            simp only [World.markRestored]
            split <;> exact hshut
          cases reply <;> try cases hv
          · exact marked _ _
          · exact marked _ _
      | saveRestored errors k =>
          have failed : ∀ u : World, streak u.log = streak w.log →
              3 ≤ streak (u.restoreNotSaved id errors k).log := by
            intro u hu
            have hkept := @streak_finishRestore (u.setRecord fun r =>
              { r with state := .restoreFailed, errors := errors ++ ["journal-write-failed"] }) id
              (errors ++ ["journal-write-failed"]) k fun _ _ h => by simp at h
            exact hshut.trans (hkept.trans hu).ge
          cases reply <;> try cases hv
          · have hkept : streak (w.replaceJournal.finishRestore id errors k).log = streak w.log := by
              refine (streak_finishRestore fun s hk herr => ?_).trans (streak_replaceJournal w)
              subst hk herr
              exact hclient rfl
            exact hshut.trans hkept.ge
          · exact failed w rfl
          · exact failed _ (streak_replaceJournal w)
      | cancelOwner s =>
          cases reply <;> try cases hv
          simp only [World.cancelOwner]
          split <;> exact hshut
      | expireStart =>
          cases reply <;> try cases hv
          simp only [World.expireStart]
          split
          · exact hshut
          · split <;> exact hshut
      | releaseStart s origin =>
          cases reply <;> try cases hv
          simp only [World.releaseStart]
          split <;> exact hshut
      | releaseLock s origin =>
          cases reply <;> try cases hv
          simp only [World.resume, World.acquire] at hv
          split at hv
          · obtain rfl := Option.some.inj hv
            exact hshut
          · cases hv
      | releaseCheck s origin =>
          cases reply <;> try cases hv
          simp only [World.releaseCheck]
          split
          · exact hshut
          · next hforeign =>
            have hkept : streak (w.beginRestore id (.release s origin)).log = streak w.log := by
              refine streak_beginRestore fun s' hk hnone => ?_
              cases hk
              exact hclient (if_pos ⟨by simpa using hforeign, hnone⟩)
            exact hshut.trans hkept.ge
      | recoverLock =>
          cases reply <;> try cases hv
          simp only [World.resume, World.acquire] at hv
          split at hv
          · obtain rfl := Option.some.inj hv
            have hkept := @streak_beginRestore { w with operation := some id } id .recover
              fun _ hk => by cases hk
            exact hshut.trans hkept.ge
          · cases hv
      | recoverProbe result =>
          cases reply <;> try cases hv
          · exact hshut
          · exact hshut
      | finished outcome => cases hv
      | _ => cases outside
  | cancelRequest n =>
      obtain rfl := Option.some.inj hv
      exact hshut
  | wait t =>
      simp only [World.step] at hv
      split at hv
      · obtain rfl := Option.some.inj hv
        exact hshut
      · cases hv

theorem create_guard (journal : Option Record) (now : Time) :
    Guard (World.create journal now []) where
  free _ := ⟨rfl, fun ho => by cases ho⟩
  held _ _ hcall := by cases hcall

/-- The guard holds in every state of every run that meets the condition. -/
theorem reaches_guard {journal : Option Record} {now : Time}
    (run : helperSystem.Reaches Explicit (World.create journal now []) v) : Inv v ∧ Guard v :=
  run.invariant (P := fun v => Inv v ∧ Guard v)
    (fun _ _ _ h ok hv => ⟨step_inv h.1 hv, step_guard h.2 h.1 ok hv⟩)
    ⟨reaches_inv .refl, create_guard journal now⟩

/-- Between activation and save apart, the counter is the number of failures on record. -/
theorem Guard.counts (h : Guard w) (hinv : Inv w)
    (hsaving : ∀ i s peer link, w.calls i ≠ some (.saveConnected s peer link)) :
    w.failures = streak w.log := by
  cases hop : w.operation with
  | none => exact (h.free hop).1
  | some i =>
      obtain ⟨pc, hcall, hholds⟩ := (hinv.lock i).mpr hop
      have hat := h.held i pc hcall hholds
      cases pc with
      | saveConnected s peer link => exact absurd hcall (hsaving i s peer link)
      | restore k => exact hat
      | saveRestored errors k => exact hat
      | _ => exact hat.1

/-- **The retry guard**, in every run whose cleanups and saves clear nothing:
the counter counts the failures on record; once there are three, no client's
operation reaches the backend and `discover` asks for a release, until a
client's release has restored the network. -/
theorem retry_guard {journal : Option Record} {now : Time}
    (run : helperSystem.Reaches Explicit (World.create journal now []) v) :
    ((∀ i s peer link, v.calls i ≠ some (.saveConnected s peer link)) →
      v.failures = streak v.log) ∧
    (3 ≤ streak v.log →
      (∀ i pc, v.calls i = some pc → pc.inTransaction = false) ∧
      (∀ i s requestCancel t, v.calls i = some (.entering (.discover s requestCancel)) →
        v.step (.resume i .go) = some t → t.log = v.log ∧
          ∃ e : HelperError, t.calls i = some (.finished (.error e)) ∧
            (requestCancel.any v.isSet = false → v.state ≠ .restoreRequired →
              e.code = "RetryRequired")) ∧
      ∀ u, helperSystem.Reaches
          (fun w a => Explicit w a ∧ completesRelease w a ≠ some .client) v u →
        3 ≤ streak u.log) := by
  obtain ⟨hinv, h⟩ := reaches_guard run
  refine ⟨h.counts hinv, fun hshut => ⟨fun i pc hcall => h.shut hinv hshut hcall, ?_, ?_⟩⟩
  · intro i s requestCancel t hcall hv
    obtain ⟨e, he, hcode⟩ :=
      @Guard.refuses v i s h hshut _ hcall true requestCancel (discoverBody · i s)
    simp only [World.step, hcall, Option.bind_some, World.resume, World.enterRequest, he,
      Option.some.injEq] at hv
    subst hv
    exact ⟨rfl, e, by simp [World.leave], hcode rfl⟩
  · intro u hu
    refine (hu.invariant (P := fun u => Inv u ∧ Guard u ∧ 3 ≤ streak u.log) ?_
      ⟨hinv, h, hshut⟩).2.2
    rintro w a w' ⟨hinv, h, hshut⟩ ok hv
    exact ⟨step_inv hinv hv, step_guard h hinv ok.1 hv, h.stays hinv hshut ok.2 hv⟩

/-- One client's connection attempt, up to the backend call that will fail. -/
def beginAttempt (i : Nat) : List Action :=
  let s : Sender := ⟨":1.7", bus_seven⟩
  let peer : Peer :=
    { path := "/peer", name := "EBPSI-A1", address := "02:00:00:00:00:01", manufacturer := ""
      wfd := [0, 0, 6, 0, 17, 28, 68, 0, 50] }
  [.call i (.discover s none), .resume i .go, .resume i .go,
    .resume i (.snapshot
      { wifi := "/wifi", p2p := "/p2p", wifiInterface := "wlan0", p2pInterface := "p2p-dev-wlan0"
        wifiUuid := none, wifiState := 30, wifiAutoconnect := true, defaultRoutes := [] }),
    .resume i .saved, .resume i (.checkpoint "/checkpoint/1"), .resume i .saved, .resume i .done,
    .resume i (.peers [peer] fun _ => "c"), .resume i .saved,
    .call (i + 1) (.connect s "c"), .resume (i + 1) .go, .resume (i + 1) .go]

/-- The attempt fails and the network is restored. -/
def failAttempt (i : Nat) : List Action :=
  [.resume (i + 1) (.raised .other), .resume (i + 1) (.restored [] none), .resume (i + 1) .saved]

theorem retry_guard_threeFailures :
    ∃ v, (helperSystem.guard explicit).exec (World.create none 0 [])
        (beginAttempt 0 ++ failAttempt 0 ++ beginAttempt 2 ++ failAttempt 2 ++ beginAttempt 4 ++
          failAttempt 4) = some v ∧
      3 ≤ streak v.log ∧ ∀ i pc, v.calls i = some pc → pc.inTransaction = false := by
  have hexec : ((helperSystem.guard explicit).exec (World.create none 0 [])
      (beginAttempt 0 ++ failAttempt 0 ++ beginAttempt 2 ++ failAttempt 2 ++ beginAttempt 4 ++
        failAttempt 4)).any (fun v => 3 ≤ streak v.log) = true := by decide +kernel
  obtain ⟨v, hv, hshut⟩ := (Option.any_eq_true ..).mp hexec
  have hshut : 3 ≤ streak v.log := by simpa using hshut
  exact ⟨v, hv, hshut, ((retry_guard (System.reaches_of_guard hv)).2 hshut).1⟩

/-- The client disappears during its third attempt: the service's own cleanup
waits for the failing attempt and then clears the counter, and the next
`discover` (call 9) is at work in the backend. -/
def cleanupAfterThree : List Action :=
  let s : Sender := ⟨":1.7", bus_seven⟩
  beginAttempt 0 ++ failAttempt 0 ++ beginAttempt 2 ++ failAttempt 2 ++ beginAttempt 4 ++
    [.call 7 (.cancelOwner s), .resume 7 .go, .call 8 (.release s .disconnect), .resume 8 .go] ++
    failAttempt 4 ++ [.resume 8 .go, .resume 8 .go,
      .call 9 (.discover ⟨":1.9", bus_nine⟩ none), .resume 9 .go, .resume 9 .go]

theorem cleanup_clears_failures :
    ∃ v, helperSystem.exec (World.create none 0 []) cleanupAfterThree = some v ∧
      3 ≤ streak v.log ∧ v.failures = 0 ∧
      ∃ pc, v.calls 9 = some pc ∧ pc.inTransaction = true := by
  have hexec : (helperSystem.exec (World.create none 0 []) cleanupAfterThree).any (fun v =>
      3 ≤ streak v.log ∧ v.failures = 0 ∧ (v.calls 9).any Pc.inTransaction = true) = true := by
    decide +kernel
  obtain ⟨v, hv, hall⟩ := (Option.any_eq_true ..).mp hexec
  obtain ⟨hshut, hzero, hcall⟩ := of_decide_eq_true hall
  exact ⟨v, hv, hshut, hzero, (Option.any_eq_true ..).mp hcall⟩

end HccastWired.Network
