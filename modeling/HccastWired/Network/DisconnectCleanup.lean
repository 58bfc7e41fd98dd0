import HccastWired.Network.ServiceInvariant

/-!
# Cleanup after a disconnect

When the bus reports that the lease's owner has vanished, a restoration of its
lease is running or scheduled, unless the cleanup was taken for one that was
still marked pending.
-/

namespace HccastWired.Network

open Foundation

variable {v u : Service} {w h : World} {id : Nat} {s : Sender}

/-- A call that restores the sender's lease, or has to once its turn comes. -/
def Pc.restores (w : World) (s : Sender) : Pc → Bool
  | .expireStart => w.deadline ≤ w.now
  | .releaseStart t _ => t = s
  | .releaseLock t _ => t = s
  | .releaseCheck t _ => t = s
  | .restore _ => true
  | .saveRestored _ _ => true
  | .recoverLock => true
  | _ => false

/-- A restoration of the sender's lease is running or scheduled. -/
def Restoring (w : World) (s : Sender) : Prop :=
  ∃ i pc, w.calls i = some pc ∧ pc.restores w s = true

/-- The callback for the sender's disconnect has run. -/
def Reported (v : Service) (s : Sender) : Prop :=
  v.vanished s = true ∧ v.main ≠ .vanished s ∧ v.main ≠ .cleaning (some s)

/-- A disconnect of the lease's owner does not find another cleanup pending,
unless its lease is being restored already. -/
def Uncoalesced (v : Service) : ServiceAction → Prop
  | .main => ∀ s, v.main = .cleaning (some s) → v.cleanupPending.isSome = true →
      v.helper.owner = some s → Restoring v.helper s
  | _ => True

/-- A vanished sender acquires nothing any more, and its lease is on its way out. -/
structure Cleanups (v : Service) : Prop where
  silenced : ∀ s c, v.vanished s = true → v.contexts.lookup s = some c →
    v.helper.isSet (.request c) = true
  covered : ∀ s, v.vanished s = true → v.helper.owner = some s →
    v.main = .vanished s ∨ v.main = .cleaning (some s) ∨ Restoring v.helper s

section Restoring

theorem Restoring.later (hr : Restoring w s) (hcalls : ∀ i pc, w.calls i = some pc → h.calls i = some pc)
    (hdeadline : h.deadline = w.deadline) (hnow : w.now ≤ h.now) : Restoring h s := by
  obtain ⟨i, pc, hi, hpc⟩ := hr
  refine ⟨i, pc, hcalls i pc hi, ?_⟩
  cases pc with
  | expireStart =>
      have hexpired : w.deadline ≤ w.now := of_decide_eq_true hpc
      exact decide_eq_true (hdeadline ▸ le_trans hexpired hnow)
  | _ => exact hpc

/-- A call that restores a lease goes on until the lease has ended. -/
theorem restores_resume {pc : Pc} {reply : Reply} (hpc : pc.restores w s = true)
    (howner : w.owner = some s) (hv : w.resume id pc reply = some h) :
    h.owner = none ∨ ∃ pc', h.calls id = some pc' ∧ pc'.restores h s = true := by
  cases pc with
  | expireStart =>
      have hexpired : w.deadline ≤ w.now := of_decide_eq_true hpc
      cases reply with
      | go =>
          cases hv
          unfold World.expireStart
          rw [howner]
          dsimp only
          rw [if_neg (not_lt.mpr hexpired)]
          exact Or.inr ⟨.releaseStart s .expiry, by simp [World.goto], by simp [Pc.restores]⟩
      | _ => cases hv
  | releaseStart t origin =>
      have ht : t = s := by simpa [Pc.restores] using hpc
      cases reply with
      | go =>
          cases hv
          unfold World.releaseStart
          rw [if_neg (by simp [howner, ht])]
          exact Or.inr ⟨.releaseLock t origin, by simp [World.goto], hpc⟩
      | _ => cases hv
  | releaseLock t origin =>
      cases reply with
      | go =>
          simp only [World.resume, World.acquire] at hv
          split at hv <;> cases hv
          exact Or.inr ⟨.releaseCheck t origin, by simp [World.goto], hpc⟩
      | _ => cases hv
  | releaseCheck t origin =>
      have ht : t = s := by simpa [Pc.restores] using hpc
      cases reply with
      | go =>
          cases hv
          unfold World.releaseCheck
          rw [if_neg (by simp [howner, ht])]
          rcases @beginRestore_cases w id (.release t origin) with hnone | hcalls
          · exact Or.inl hnone
          · exact Or.inr ⟨_, hcalls, rfl⟩
      | _ => cases hv
  | restore k =>
      obtain ⟨errors, hcalls⟩ := restore_calls hv
      exact Or.inr ⟨_, hcalls, rfl⟩
  | saveRestored errors k => exact Or.inl (saveRestored_owner hv)
  | recoverLock =>
      cases reply with
      | go =>
          simp only [World.resume, World.acquire] at hv
          split at hv <;> cases hv
          rcases @beginRestore_cases { w with operation := some id } id .recover with hnone | hcalls
          · exact Or.inl hnone
          · exact Or.inr ⟨_, hcalls, rfl⟩
      | _ => cases hv
  | _ => cases hpc

/-- A cancelled lease that is being restored stays so until it has ended. -/
theorem restoring_resume {pc : Pc} {reply : Reply} (hr : Restoring w s)
    (hcall : w.calls id = some pc) (howner : w.owner = some s)
    (hset : w.isSet w.cancel = true) (howner' : h.owner = some s)
    (hv : w.resume id pc reply = some h) : Restoring h s := by
  have hstep := resume_lease hv
  have htime : h.deadline = w.deadline ∧ w.now ≤ h.now := by
    cases hstep.effect with
    | ends hcancel hset hnow hlease =>
        rcases hlease with ⟨-, hdeadline⟩ | hnone
        · exact ⟨hdeadline, le_of_eq hnow.symm⟩
        · rw [hnone] at howner'
          cases howner'
    | renewed hunset howner hcancel hset' hnow =>
        rw [hset] at hunset
        cases hunset
    | cancelled hset hcancel hnow hlease =>
        rcases hlease with ⟨-, hdeadline⟩ | hnone
        · exact ⟨hdeadline, le_of_eq hnow.symm⟩
        · rw [hnone] at howner'
          cases howner'
    | acquired hunset hfree howner' hcancel hset hnow =>
        rw [hfree] at howner
        cases howner
  obtain ⟨i, pc', hi, hpc'⟩ := hr
  by_cases hid : i = id
  · subst hid
    obtain rfl := Option.some.inj (hcall.symm.trans hi)
    rcases restores_resume hpc' howner hv with hnone | ⟨pc'', hgoes⟩
    · rw [hnone] at howner'
      cases howner'
    · exact ⟨i, pc'', hgoes⟩
  · refine ⟨i, pc', (hstep.other hid).trans hi, ?_⟩
    cases pc' with
    | expireStart =>
        have hexpired : w.deadline ≤ w.now := of_decide_eq_true hpc'
        exact decide_eq_true (htime.1 ▸ le_trans hexpired htime.2)
    | _ => exact hpc'

end Restoring

section Steps

theorem cleanups_resumed {pc : Pc} {reply : Reply} (hinv : ServiceInv v) (hc : Cleanups v)
    (hcall : v.helper.calls id = some pc) (hv : v.helper.resume id pc reply = some h) :
    Cleanups (v.resumed id h) := by
  have hstep := resume_lease hv
  have hrc : ∀ s rc, pc = .entering (.discover s rc) →
      ∃ t ∈ v.tickets, t.id = id ∧ t.sender = s ∧ rc = some (.request t.context) :=
    fun s rc hpc => hinv.discovers id s rc (Or.inr (hpc ▸ hcall))
  have hevents := hstep.effect.events fun s rc hpc => by
    obtain ⟨t, -, -, -, rfl⟩ := hrc s rc hpc
    rfl
  constructor
  · intro s c hvanished hlookup
    have hold := hc.silenced s c hvanished hlookup
    rcases hevents (.request c) with hsame | ⟨-, hset⟩
    · exact hsame.trans hold
    · exact hset
  · intro s hvanished howner
    have howner : h.owner = some s := howner
    have hkept : v.helper.owner = some s := by
      cases hstep.effect with
      | ends hcancel hset hnow hlease =>
          rcases hlease with ⟨hsame, -⟩ | hnone
          · exact hsame.symm.trans howner
          · rw [hnone] at howner
            cases howner
      | renewed hunset hsame hcancel hset hnow => exact hsame.symm.trans howner
      | cancelled hset hcancel hnow hlease =>
          rcases hlease with ⟨hsame, -⟩ | hnone
          · exact hsame.symm.trans howner
          · rw [hnone] at howner
            cases howner
      | acquired hunset hfree hnew hcancel hset hnow =>
          -- a vanished sender's event is set, so its discovery is not admitted
          obtain ⟨t, ht, -, hsender, rfl⟩ := hrc _ _ rfl
          rw [howner] at hnew
          have hts : t.sender = s := hsender.trans (Option.some.inj hnew).symm
          have hheld := hinv.held t ht
          rw [hts] at hheld
          simp [hc.silenced s _ hvanished hheld] at hunset
    obtain ⟨c, hlookup, hcancel⟩ := hinv.lease s hkept
    have hset : v.helper.isSet v.helper.cancel = true := by
      rw [hcancel]
      exact hc.silenced s c hvanished hlookup
    rcases hc.covered s hvanished hkept with hmain | hmain | hr
    · exact Or.inl hmain
    · exact Or.inr (Or.inl hmain)
    · exact Or.inr (Or.inr (restoring_resume hr hcall hkept hset howner hv))

/-- A step that starts calls at most, and cancels events at most. -/
theorem Cleanups.quiet (hc : Cleanups v) (hvanished : u.vanished = v.vanished)
    (hcontexts : ∀ s c, u.vanished s = true → u.contexts.lookup s = some c →
      v.contexts.lookup s = some c)
    (hset : ∀ s c, v.vanished s = true → v.contexts.lookup s = some c →
      v.helper.isSet (.request c) = true → u.helper.isSet (.request c) = true)
    (howner : u.helper.owner = v.helper.owner)
    (hcalls : ∀ i pc, v.helper.calls i = some pc → u.helper.calls i = some pc)
    (hdeadline : u.helper.deadline = v.helper.deadline) (hnow : v.helper.now ≤ u.helper.now)
    (hmain : ∀ s, v.main = .vanished s ∨ v.main = .cleaning (some s) → v.helper.owner = some s →
      u.main = .vanished s ∨ u.main = .cleaning (some s) ∨ Restoring u.helper s) : Cleanups u := by
  constructor
  · intro s c hs hlookup
    have hold := hcontexts s c hs hlookup
    rw [hvanished] at hs
    exact hset s c hs hold (hc.silenced s c hs hold)
  · intro s hs ho
    rw [hvanished] at hs
    rw [howner] at ho
    rcases hc.covered s hs ho with hv | hv | hr
    · exact hmain s (Or.inl hv) ho
    · exact hmain s (Or.inr hv) ho
    · exact Or.inr (Or.inr (hr.later hcalls hdeadline hnow))

theorem methodCall_cleanups (hinv : ServiceInv v) (hc : Cleanups v) (method : Method)
    (hloop : v.main = .loop) (hopen : v.vanished s = false) : Cleanups (v.methodCall s method) := by
  have hmain : ∀ s', v.main = .vanished s' ∨ v.main = .cleaning (some s') → False := by
    rintro s' (h | h) <;> rw [hloop] at h <;> cases h
  unfold Service.methodCall
  split
  · exact hc
  split
  · exact hc.quiet rfl (fun _ _ _ => id) (fun _ _ _ _ => id) rfl (fun _ _ => id) rfl (le_refl _)
      fun s' h _ => (hmain s' h).elim
  · refine hc.quiet rfl (fun s' c hs hlookup => ?_) (fun s' c _ hlookup hset => ?_) rfl
      (fun _ _ => id) rfl (le_refl _) fun s' h _ => (hmain s' h).elim
    · have hne : s' ≠ s := by
        rintro rfl
        have hs : v.vanished s' = true := hs
        rw [hopen] at hs
        cases hs
      exact (AList.lookup_insert_ne hne).symm.trans hlookup
    · show Function.update v.helper.isSet (.request v.nextContext) false (.request c) = true
      rw [Function.update_apply, if_neg]
      · exact hset
      · intro hsame
        obtain rfl := Event.request.inj hsame
        exact Nat.lt_irrefl _ (hinv.older s' _ hlookup)

theorem dispatch_cleanups (hinv : ServiceInv v) (hc : Cleanups v) {t : Ticket}
    (ht : t ∈ v.tickets) (hstage : t.stage = .queued) (authorized : Bool) :
    Cleanups (v.dispatch t authorized) := by
  have hfree : v.helper.calls t.id = none := hinv.idle t ht (by simp [Ticket.entered, hstage])
  have staged : ∀ stage, Cleanups (v.setStage t.id stage) := fun stage =>
    hc.quiet rfl (fun _ _ _ => id) (fun _ _ _ _ => id) rfl (fun _ _ => id) rfl (le_refl _)
      fun s' h _ => h.elim Or.inl fun h => Or.inr (Or.inl h)
  have entered : ∀ r, Cleanups (v.enter t.id r) := fun r =>
    hc.quiet rfl (fun _ _ _ => id) (fun _ _ _ _ => id) rfl (fun i pc hi => by
      have hne : i ≠ t.id := by
        rintro rfl
        rw [hfree] at hi
        cases hi
      exact (World.goto_calls_ne v.helper _ hne).trans hi) rfl (le_refl _)
      fun s' h _ => h.elim Or.inl fun h => Or.inr (Or.inl h)
  unfold Service.dispatch
  split
  · exact staged _
  split
  · exact staged _
  · exact entered _
  · exact entered _
  · exact entered _
  · exact entered _

theorem answer_cleanups (hc : Cleanups v) (t : Ticket) : Cleanups (v.answer t) := by
  refine hc.quiet rfl (fun s c _ hlookup => ?_) (fun _ _ _ _ => id) rfl (fun _ _ => id) rfl (le_refl _)
    fun s' h _ => h.elim Or.inl fun h => Or.inr (Or.inl h)
  unfold Service.answer at hlookup
  dsimp only at hlookup
  split at hlookup
  · by_cases hs : s = t.sender
    · rw [hs, AList.lookup_erase] at hlookup
      cases hlookup
    · exact (AList.lookup_erase_ne hs).symm.trans hlookup
  · exact hlookup

theorem ownerVanished_cleanups (hc : Cleanups v) (s : Sender) (hloop : v.main = .loop) :
    Cleanups (v.ownerVanished s) := by
  have hcovered : ∀ {u : Service}, u.main = .vanished s → u.helper.owner = v.helper.owner →
      u.vanished = Function.update v.vanished s true → u.helper.calls = v.helper.calls →
      u.helper.deadline = v.helper.deadline → u.helper.now = v.helper.now →
      ∀ s', u.vanished s' = true → u.helper.owner = some s' →
        u.main = .vanished s' ∨ u.main = .cleaning (some s') ∨ Restoring u.helper s' := by
    intro u hmain howner hvanished hcalls hdeadline hnow s' hs' ho
    by_cases hss : s' = s
    · rw [hss]
      exact Or.inl hmain
    · rw [hvanished, Function.update_of_ne hss] at hs'
      rcases hc.covered s' hs' (howner.symm.trans ho) with h | h | hr
      · rw [hloop] at h
        cases h
      · rw [hloop] at h
        cases h
      · exact Or.inr (Or.inr (hr.later (fun i pc hi => hcalls ▸ hi) hdeadline (le_of_eq hnow.symm)))
  unfold Service.ownerVanished
  dsimp only
  split
  · next c hc' =>
    constructor
    · intro s' c' hs' hlookup
      show Function.update v.helper.isSet (.request c) true (.request c') = true
      rw [Function.update_apply]
      split
      · rfl
      · next hne =>
        have hss : s' ≠ s := by
          rintro rfl
          rw [Option.some.inj (hlookup.symm.trans hc')] at hne
          exact hne rfl
        have hs' : Function.update v.vanished s true s' = true := hs'
        rw [Function.update_of_ne hss] at hs'
        exact hc.silenced s' c' hs' hlookup
    · exact hcovered rfl rfl rfl rfl rfl rfl
  · next hnone =>
    constructor
    · intro s' c' hs' hlookup
      have hlookup : v.contexts.lookup s' = some c' := hlookup
      have hss : s' ≠ s := by
        rintro rfl
        have hnone : v.contexts.lookup s' = none := hnone
        rw [hnone] at hlookup
        cases hlookup
      have hs' : Function.update v.vanished s true s' = true := hs'
      rw [Function.update_of_ne hss] at hs'
      exact hc.silenced s' c' hs' hlookup
    · exact hcovered rfl rfl rfl rfl rfl rfl

theorem stop_cleanups (hc : Cleanups v) (hloop : v.main = .loop) : Cleanups v.stop := by
  unfold Service.stop
  split
  · exact hc
  · refine hc.quiet rfl (fun _ _ _ => id) (fun _ _ _ _ hset => ?_) rfl (fun _ _ => id) rfl (le_refl _)
      fun s' h _ => ?_
    · show (_ || _) = true
      rw [hset, Bool.or_true]
    · rcases h with h | h
      · rw [hloop] at h
        cases h
      · rw [hloop] at h
        cases h

/-- `cancel_owner` leaves the lease to its owner and starts no restoration. -/
theorem cancelOwner_helper (hinv : ServiceInv v) (s : Sender) (cause : Cause) :
    (v.cancelOwner s cause).helper.owner = v.helper.owner ∧
      (v.cancelOwner s cause).helper.deadline = v.helper.deadline ∧
      (v.cancelOwner s cause).helper.now = v.helper.now ∧
      (∀ e, v.helper.isSet e = true → (v.cancelOwner s cause).helper.isSet e = true) ∧
      ∀ i pc, v.helper.calls i = some pc → (v.cancelOwner s cause).helper.calls i = some pc := by
  have hold : ∀ i pc, v.helper.calls i = some pc → i ≠ v.nextCall := fun i pc hi =>
    Nat.ne_of_lt (hinv.calls i pc hi)
  unfold Service.cancelOwner World.cancelOwner
  dsimp only
  split
  · refine ⟨rfl, rfl, rfl, fun e he => ?_, fun i pc hi => ?_⟩
    · show Function.update v.helper.isSet v.helper.cancel true e = true
      rw [Function.update_apply]
      split
      · rfl
      · exact he
    · exact (World.goto_calls_ne _ _ (hold i pc hi)).trans hi
  · exact ⟨rfl, rfl, rfl, fun _ => id, fun i pc hi =>
      (World.goto_calls_ne _ _ (hold i pc hi)).trans hi⟩

theorem cancelOwner_cleanups (hinv : ServiceInv v) (hc : Cleanups v) (s : Sender) (cause : Cause)
    {pc : MainPc} (hmain : ∀ s', v.main = .vanished s' ∨ v.main = .cleaning (some s') →
      v.helper.owner = some s' → pc = .cleaning (some s')) :
    Cleanups { v.cancelOwner s cause with main := pc } := by
  obtain ⟨howner, hdeadline, hnow, hset, hcalls⟩ := cancelOwner_helper hinv s cause
  exact hc.quiet rfl (fun _ _ _ => id) (fun _ c _ _ => hset (.request c)) howner hcalls hdeadline
    (le_of_eq hnow.symm) fun s' h ho => Or.inr (Or.inl (hmain s' h ho))

/-- `_cleanup` for a vanished owner. -/
theorem cleanup_cleanups (hinv : ServiceInv v) (hc : Cleanups v) {target : Option Sender}
    (hmain : v.main = .cleaning target)
    (hpending : ∀ s, target = some s → v.cleanupPending.isSome = true → v.helper.owner = some s →
      Restoring v.helper s) : Cleanups { v.cleanup target with main := .loop } := by
  unfold Service.cleanup
  split
  · next hp =>
    refine hc.quiet rfl (fun _ _ _ => id) (fun _ _ _ _ => id) rfl (fun _ _ => id) rfl (le_refl _)
      fun s' h ho => ?_
    rw [hmain] at h
    rcases h with h | h
    · cases h
    · exact Or.inr (Or.inr (hpending s' (MainPc.cleaning.inj h) hp ho))
  · refine hc.quiet rfl (fun _ _ _ => id) (fun _ _ _ _ => id) rfl (fun i pc hi => ?_) rfl (le_refl _)
      fun s' h _ => ?_
    · exact (World.goto_calls_ne v.helper _ (Nat.ne_of_lt (hinv.calls i pc hi))).trans hi
    · rw [hmain] at h
      rcases h with h | h
      · cases h
      · obtain rfl := MainPc.cleaning.inj h
        refine Or.inr (Or.inr ⟨v.nextCall, .releaseStart s' .disconnect, ?_, by simp [Pc.restores]⟩)
        exact World.goto_calls_self v.helper v.nextCall _

theorem mainStep_cleanups (hinv : ServiceInv v) (hc : Cleanups v) (hok : Uncoalesced v .main)
    (hv : v.mainStep v.main = some u) : Cleanups u := by
  have elsewhere : ∀ {u : Service}, u.helper = v.helper → u.vanished = v.vanished →
      u.contexts = v.contexts → (∀ s, v.main ≠ .vanished s ∧ v.main ≠ .cleaning (some s)) →
      Cleanups u := by
    intro u hhelper hvanished hcontexts hmain
    refine hc.quiet hvanished (fun _ _ _ h => hcontexts ▸ h) (fun _ _ _ _ h => ?_) ?_ (fun _ _ h => ?_)
      ?_ ?_ fun s' h _ => ?_
    · rw [hhelper]
      exact h
    · rw [hhelper]
    · rw [hhelper]
      exact h
    · rw [hhelper]
    · rw [hhelper]
    · rcases h with h | h
      · exact absurd h (hmain s').1
      · exact absurd h (hmain s').2
  cases hpc : v.main with
  | starting =>
      rw [hpc] at hv
      simp only [Service.mainStep] at hv
      split at hv <;> cases hv
      exact elsewhere rfl rfl rfl (by simp [hpc])
  | loop =>
      rw [hpc] at hv
      cases hv
  | vanished s =>
      rw [hpc] at hv
      cases hv
      refine cancelOwner_cleanups hinv hc s _ fun s' h ho => ?_
      rw [hpc] at h
      rcases h with h | h
      · cases h
        rw [if_pos ho]
      · cases h
  | cleaning target =>
      rw [hpc] at hv
      cases hv
      exact cleanup_cleanups hinv hc hpc fun s hs hp ho => hok s (hpc.trans (by rw [hs])) hp ho
  | tickOwner =>
      rw [hpc] at hv
      cases hv
      exact elsewhere rfl rfl rfl (by simp [hpc])
  | tickCancel owner =>
      rw [hpc] at hv
      cases owner with
      | none =>
          cases hv
          exact elsewhere rfl rfl rfl (by simp [hpc])
      | some s =>
          cases hv
          exact cancelOwner_cleanups hinv hc s _ fun s' h _ => by simp [hpc] at h
  | stopOwner =>
      rw [hpc] at hv
      cases hv
      exact elsewhere rfl rfl rfl (by simp [hpc])
  | stopCancel s =>
      rw [hpc] at hv
      cases hv
      exact cancelOwner_cleanups hinv hc s _ fun s' h _ => by simp [hpc] at h
  | shutdown =>
      rw [hpc] at hv
      cases hv
      refine hc.quiet rfl (fun _ _ _ => id) (fun _ _ _ _ => id) rfl (fun i pc hi => ?_) rfl
        (le_refl _) fun s' h _ => by simp [hpc] at h
      exact (World.goto_calls_ne v.helper _ (Nat.ne_of_lt (hinv.calls i pc hi))).trans hi

/-- Every action that meets the condition keeps vanished owners covered. -/
theorem service_step_cleanups {a : ServiceAction} (hinv : ServiceInv v) (hc : Cleanups v)
    (hok : Uncoalesced v a) (hv : v.step a = some u) : Cleanups u := by
  have beside : ∀ {u : Service}, u.helper.calls = v.helper.calls →
      u.helper.owner = v.helper.owner → u.helper.isSet = v.helper.isSet →
      u.helper.deadline = v.helper.deadline → v.helper.now ≤ u.helper.now →
      u.vanished = v.vanished → u.contexts = v.contexts → u.main = v.main → Cleanups u := by
    intro u hcalls howner hset hdeadline hnow hvanished hcontexts hmain
    refine hc.quiet hvanished (fun _ _ _ h => hcontexts ▸ h) (fun _ _ _ _ h => hset ▸ h) howner
      (fun _ _ h => hcalls ▸ h) hdeadline hnow fun s' h _ => ?_
    rw [hmain]
    exact h.elim Or.inl fun h => Or.inr (Or.inl h)
  cases a with
  | methodCall s method =>
      simp only [Service.step] at hv
      split at hv
      · next hready =>
        cases hv
        obtain ⟨hloop, hopen⟩ : v.main = .loop ∧ v.vanished s = false := by simpa using hready
        exact methodCall_cleanups hinv hc method hloop hopen
      · cases hv
  | dispatch id authorized =>
      obtain ⟨t, ht, hv⟩ := Option.bind_eq_some_iff.mp hv
      split at hv
      · next hstage =>
        cases hv
        exact dispatch_cleanups hinv hc (mem_of_find ht).1 hstage authorized
      · cases hv
  | refreshed id recovery =>
      obtain ⟨t, ht, hv⟩ := Option.bind_eq_some_iff.mp hv
      split at hv <;> cases hv
      exact beside rfl rfl rfl rfl (le_refl _) rfl rfl rfl
  | resume id reply =>
      obtain ⟨h, hh, rfl⟩ := Option.map_eq_some_iff.mp hv
      obtain ⟨pc, hcall, hh⟩ := Option.bind_eq_some_iff.mp hh
      exact cleanups_resumed hinv hc hcall hh
  | reply id =>
      obtain ⟨t, ht, hv⟩ := Option.bind_eq_some_iff.mp hv
      split at hv <;> cases hv
      exact answer_cleanups hc t
  | ownerVanished s =>
      simp only [Service.step] at hv
      split at hv
      · next hready =>
        cases hv
        obtain ⟨hloop, -⟩ : v.main = .loop ∧ v.vanished s = false := by simpa using hready
        exact ownerVanished_cleanups hc s hloop
      · cases hv
  | tick =>
      simp only [Service.step] at hv
      split at hv
      · next hready =>
        cases hv
        obtain ⟨hloop, -⟩ : v.main = .loop ∧ v.ticking = true := by simpa using hready
        refine hc.quiet rfl (fun _ _ _ => id) (fun _ _ _ _ => id) rfl (fun _ _ => id) rfl (le_refl _)
          fun s' h _ => by simp [hloop] at h
      · cases hv
  | stop =>
      simp only [Service.step] at hv
      split at hv
      · next hloop =>
        cases hv
        exact stop_cleanups hc hloop
      · cases hv
  | main => exact mainStep_cleanups hinv hc hok hv
  | cleaned =>
      obtain ⟨id, -, hv⟩ := Option.bind_eq_some_iff.mp hv
      split at hv <;> cases hv
      exact beside rfl rfl rfl rfl (le_refl _) rfl rfl rfl
  | wait t =>
      obtain ⟨h, hh, rfl⟩ := Option.map_eq_some_iff.mp hv
      simp only [World.step] at hh
      split at hh
      · next hle =>
        cases hh
        exact beside rfl rfl rfl rfl hle rfl rfl rfl
      · cases hh

theorem service_reaches_cleanups {journal : Option Record} {now : Time} {log : List LogEvent}
    (run : serviceSystem.Reaches Uncoalesced (Service.create journal now log) v) : Cleanups v := by
  have hboth := System.Reaches.invariant (P := fun v => ServiceInv v ∧ Cleanups v)
    (fun _ _ _ hboth hok hv => ⟨service_step_inv hboth.1 hv,
      service_step_cleanups hboth.1 hboth.2 hok hv⟩) run
    ⟨service_create_inv _ _ _, ⟨fun s c hs => (by cases hs), fun s hs => (by cases hs)⟩⟩
  exact hboth.2

end Steps

section Disconnect

/-- The bus reports that the first owner has vanished; its cleanup waits behind
a renewal that fails. Before the cleanup's turn a second client acquires the
lease and vanishes too, and its cleanup is taken for the pending one. -/
def vanishedBehindCleanup : List ServiceAction :=
  let first : Sender := ⟨":1.7", bus_seven⟩
  let second : Sender := ⟨":1.8", bus_eight⟩
  let snapshot : Snapshot := ⟨"wlan0", "p2p0", "wlan0", "p2p0", none, 30, true, []⟩
  let discover (i : Nat) (client : Sender) : List ServiceAction :=
    [.methodCall client .discover, .dispatch i true, .resume i .go, .resume i .go,
      .resume i (.snapshot snapshot), .resume i .saved, .resume i (.checkpoint "checkpoint"),
      .resume i .saved, .resume i .done, .resume i (.peers [] fun _ => ""), .resume i .saved,
      .reply i]
  [.resume 0 .go, .resume 0 (.available true), .main] ++ discover 1 first ++
    [.methodCall first .keepAlive, .dispatch 2 true, .resume 2 .go, .resume 2 .go,
      .ownerVanished first, .main, .main, .resume 4 .go, .resume 2 .done,
      .resume 2 (.restored [] none), .resume 2 .saved] ++ discover 5 second ++
    [.ownerVanished second, .main, .main, .resume 4 .go, .resume 4 .go, .cleaned]

/-- The only client acquires the lease and vanishes. -/
def vanishedOwner : List ServiceAction :=
  let client : Sender := ⟨":1.7", bus_seven⟩
  let snapshot : Snapshot := ⟨"wlan0", "p2p0", "wlan0", "p2p0", none, 30, true, []⟩
  [.resume 0 .go, .resume 0 (.available true), .main, .methodCall client .discover,
    .dispatch 1 true, .resume 1 .go, .resume 1 .go, .resume 1 (.snapshot snapshot),
    .resume 1 .saved, .resume 1 (.checkpoint "checkpoint"), .resume 1 .saved, .resume 1 .done,
    .resume 1 (.peers [] fun _ => ""), .resume 1 .saved, .reply 1, .ownerVanished client, .main,
    .main]

/-- No call at all restores the sender's lease. -/
def Service.stranded (v : Service) (s : Sender) : Bool :=
  (List.range v.nextCall).all fun i => (v.helper.calls i).all fun pc => !pc.restores v.helper s

theorem stranded_iff (hinv : ServiceInv v) : v.stranded s = true ↔ ¬ Restoring v.helper s := by
  unfold Service.stranded
  rw [List.all_eq_true]
  constructor
  · rintro hall ⟨i, pc, hi, hpc⟩
    have hnot := hall i (List.mem_range.mpr (hinv.calls i pc hi))
    rw [hi] at hnot
    simp [hpc] at hnot
  · intro hnot i _
    cases hi : v.helper.calls i with
    | none => rfl
    | some pc =>
        cases hpc : pc.restores v.helper s with
        | true => exact absurd ⟨i, pc, hi, hpc⟩ hnot
        | false => simp [hpc]

end Disconnect

end HccastWired.Network
