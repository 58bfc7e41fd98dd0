import HccastWired.Network.Activation

/-!
# What one step does to the lease

A step of a call keeps the lease or ends it, renews it, sets its cancel event,
or acquires it for the sender of a discovery whose own event is not set.
-/

namespace HccastWired.Network

open Foundation World

variable {w v : World} {id : Nat} {s : Sender}

/-- The call waits for its admission. -/
def Pc.isEntry : Pc → Bool
  | .enter _ => true
  | .entering _ => true
  | _ => false

/-- Only this call moved, if any, and it is past its admission. -/
def Left (w v : World) (id : Nat) : Prop :=
  v.calls = w.calls ∨ Moved w v id fun pc => pc.isEntry = false

theorem Left.trans {u : World} (h : Left w u id) (h' : Left u v id) : Left w v id := by
  rcases h' with hsame | ⟨pc, hpc, hcalls⟩
  · rcases h with hsame' | ⟨pc, hpc, hcalls⟩
    · exact Or.inl (hsame.trans hsame')
    · exact Or.inr ⟨pc, hpc, hsame.trans hcalls⟩
  · right
    rcases h with hsame' | ⟨pc', -, hcalls'⟩
    · exact ⟨pc, hpc, by rw [hcalls, hsame']⟩
    · exact ⟨pc, hpc, by rw [hcalls, hcalls', Function.update_idem]⟩

/-- The lease is kept as it is, or it ends. -/
structure Ends (w v : World) (id : Nat) : Prop where
  cancel : v.cancel = w.cancel
  isSet : v.isSet = w.isSet
  now : v.now = w.now
  lease : (v.owner = w.owner ∧ v.deadline = w.deadline) ∨ v.owner = none
  left : Left w v id

theorem Ends.trans {u : World} (h : Ends w u id) (h' : Ends u v id) : Ends w v id := by
  refine ⟨h'.cancel.trans h.cancel, h'.isSet.trans h.isSet, h'.now.trans h.now, ?_,
    h.left.trans h'.left⟩
  rcases h'.lease with ⟨howner, hdeadline⟩ | hnone
  · rcases h.lease with ⟨howner', hdeadline'⟩ | hnone
    · exact Or.inl ⟨howner.trans howner', hdeadline.trans hdeadline'⟩
    · exact Or.inr (howner.trans hnone)
  · exact Or.inr hnone

/-- The call moves on and leaves the lease alone. -/
theorem ends_moved {pc : Pc} (hcancel : v.cancel = w.cancel) (hset : v.isSet = w.isSet)
    (hnow : v.now = w.now) (howner : v.owner = w.owner) (hdeadline : v.deadline = w.deadline)
    (hcalls : v.calls = Function.update w.calls id (some pc)) (hpc : pc.isEntry = false) :
    Ends w v id :=
  ⟨hcancel, hset, hnow, Or.inl ⟨howner, hdeadline⟩, Or.inr ⟨pc, hpc, hcalls⟩⟩

theorem ends_same (hcancel : v.cancel = w.cancel) (hset : v.isSet = w.isSet)
    (hnow : v.now = w.now) (howner : v.owner = w.owner) (hdeadline : v.deadline = w.deadline)
    (hcalls : v.calls = w.calls) : Ends w v id :=
  ⟨hcancel, hset, hnow, Or.inl ⟨howner, hdeadline⟩, Or.inl hcalls⟩

/-- The effect of a step on owner, deadline, cancel event and events. -/
inductive LeaseEffect (w v : World) : Pc → Prop where
  | ends {pc : Pc} (hcancel : v.cancel = w.cancel) (hset : v.isSet = w.isSet)
      (hnow : v.now = w.now)
      (hlease : (v.owner = w.owner ∧ v.deadline = w.deadline) ∨ v.owner = none) :
      LeaseEffect w v pc
  | renewed {pc : Pc} (hunset : w.isSet w.cancel = false) (howner : v.owner = w.owner)
      (hcancel : v.cancel = w.cancel) (hset : v.isSet = w.isSet) (hnow : v.now = w.now) :
      LeaseEffect w v pc
  | cancelled {pc : Pc} (hset : v.isSet = Function.update w.isSet w.cancel true)
      (hcancel : v.cancel = w.cancel) (hnow : v.now = w.now)
      (hlease : (v.owner = w.owner ∧ v.deadline = w.deadline) ∨ v.owner = none) :
      LeaseEffect w v pc
  | acquired {sender : Sender} {requestCancel : Option Event}
      (hunset : requestCancel.any w.isSet = false)
      (hfree : w.owner = none) (howner : v.owner = some sender)
      (hcancel : v.cancel = requestCancel.getD (.owned w.nextEvent))
      (hset : requestCancel.isSome = true → v.isSet = w.isSet) (hnow : v.now = w.now) :
      LeaseEffect w v (.entering (.discover sender requestCancel))

/-- What a step does to the lease, and where it takes its call. -/
structure LeaseStep (w v : World) (id : Nat) (pc : Pc) : Prop where
  effect : LeaseEffect w v pc
  moved : Left w v id ∨ ∃ r, pc = .enter r ∧ v.calls = Function.update w.calls id (some (.entering r))

theorem Ends.step {pc : Pc} (h : Ends w v id) : LeaseStep w v id pc :=
  ⟨.ends h.cancel h.isSet h.now h.lease, Or.inl h.left⟩

theorem ends_finishRestore (errors : List String) (k : After) :
    Ends w (w.finishRestore id errors k) id := by
  unfold World.finishRestore
  cases k with
  | expired s => exact ⟨rfl, rfl, rfl, Or.inr rfl, Or.inr ⟨_, rfl, rfl⟩⟩
  | failure s e => cases e <;> exact ⟨rfl, rfl, rfl, Or.inr rfl, Or.inr ⟨_, rfl, rfl⟩⟩
  | release s origin => exact ⟨rfl, rfl, rfl, Or.inr rfl, Or.inr ⟨_, rfl, rfl⟩⟩
  | recover => exact ⟨rfl, rfl, rfl, Or.inr rfl, Or.inr ⟨_, rfl, rfl⟩⟩

theorem ends_beginRestore (k : After) : Ends w (w.beginRestore id k) id := by
  simp only [World.beginRestore]
  split
  · exact ends_moved rfl rfl rfl rfl rfl rfl rfl
  · have h := @ends_finishRestore { w with state := .restoring } id [] k
    exact ⟨h.cancel, h.isSet, h.now, h.lease, h.left⟩

theorem ends_fail (e : Failure) : Ends w (w.fail id s e) id := by
  have hrest : ∀ u : World, Ends w u id → Ends w (u.beginRestore id (.failure s e)) id :=
    fun u hu => hu.trans (ends_beginRestore _)
  exact hrest _ (ends_same rfl rfl rfl rfl rfl rfl)

theorem ends_failConnect (e : Failure) : Ends w (w.failConnect id s e) id := by
  have hrest : ∀ u : World, Ends w u id → Ends w (u.fail id s e) id := fun u hu => hu.trans (ends_fail e)
  exact hrest _ (ends_same rfl rfl rfl rfl rfl rfl)

theorem ends_markRestored (errors : List String) (group : Option String) (k : After) :
    Ends w (w.markRestored id errors group k) id := by
  simp only [World.markRestored]
  split <;> exact ends_moved rfl rfl rfl rfl rfl rfl rfl

theorem ends_restoreNotSaved (errors : List String) (k : After) :
    Ends w (w.restoreNotSaved id errors k) id := by
  have hrest : ∀ u : World, Ends w u id →
      Ends w (u.finishRestore id (errors ++ ["journal-write-failed"]) k) id :=
    fun u hu => hu.trans (ends_finishRestore _ k)
  exact hrest _ (ends_same rfl rfl rfl rfl rfl rfl)

theorem ends_replaceJournal (w : World) : Ends w w.replaceJournal id := by
  unfold World.replaceJournal
  split <;> exact ends_same rfl rfl rfl rfl rfl rfl

theorem ends_journaled {reply : Reply} {saved : World → World} {failed : World → Failure → World}
    (h : w.journaled reply saved failed = some v) (hsaved : ∀ u, Ends u (saved u) id)
    (hfailed : ∀ u e, Ends u (failed u e) id) : Ends w v id := by
  unfold World.journaled at h
  split at h
  · obtain rfl := Option.some.inj h
    exact (ends_replaceJournal w).trans (hsaved _)
  · obtain rfl := Option.some.inj h
    exact hfailed _ _
  · obtain rfl := Option.some.inj h
    exact (ends_replaceJournal w).trans (hfailed _ _)
  · cases h

theorem ends_discoverBody : Ends w (w.discoverBody id s) id := by
  unfold World.discoverBody
  split
  · exact ends_moved rfl rfl rfl rfl rfl rfl rfl
  · dsimp only
    split <;> exact ends_moved rfl rfl rfl rfl rfl rfl rfl

theorem ends_connectBody (candidateId : String) : Ends w (w.connectBody id s candidateId) id := by
  unfold World.connectBody
  split
  · split
    · split
      · exact ends_moved rfl rfl rfl rfl rfl rfl rfl
      · exact ends_failConnect _
    · exact ends_moved rfl rfl rfl rfl rfl rfl rfl
  · exact ends_moved rfl rfl rfl rfl rfl rfl rfl

theorem ends_keepAliveBody : Ends w (w.keepAliveBody id s) id := by
  unfold World.keepAliveBody
  split
  · exact ends_moved rfl rfl rfl rfl rfl rfl rfl
  · exact ends_fail _

/-- A discovery under way keeps the lease it has just acquired. -/
theorem discoverBody_lease (w : World) (id : Nat) (s : Sender) :
    (w.discoverBody id s).owner = w.owner ∧ (w.discoverBody id s).cancel = w.cancel ∧
      (w.discoverBody id s).isSet = w.isSet ∧ (w.discoverBody id s).now = w.now := by
  unfold World.discoverBody
  split
  · exact ⟨rfl, rfl, rfl, rfl⟩
  · dsimp only
    split <;> exact ⟨rfl, rfl, rfl, rfl⟩

/-- The lease has expired: the event is set and the network restored. -/
theorem lease_expired {pc : Pc} : LeaseStep w
    (({ w with isSet := Function.update w.isSet w.cancel true }).beginRestore id (.expired s)) id
      pc := by
  have h := @ends_beginRestore { w with isSet := Function.update w.isSet w.cancel true } id (.expired s)
  exact ⟨.cancelled h.isSet h.cancel h.now h.lease, Or.inl h.left⟩

/-- Admission without acquisition. -/
theorem enterLocked_lease {requestCancel : Option Event} {body : World → World} {pc : Pc}
    (hbody : ∀ u, Ends u (body u) id) :
    LeaseStep w (w.enterLocked id s false requestCancel body) id pc := by
  have left : ∀ outcome, LeaseStep w (w.leave id outcome) id pc := fun outcome =>
    Ends.step (ends_moved rfl rfl rfl rfl rfl rfl rfl)
  unfold World.enterLocked
  split
  · exact left _
  split
  · exact left _
  split
  · exact left _
  split
  · split
    · exact lease_expired
    · exact (hbody w).step
  · exact left _

theorem enterDiscover_lease {requestCancel : Option Event} :
    LeaseStep w (w.enterLocked id s true requestCancel (discoverBody · id s)) id
      (.entering (.discover s requestCancel)) := by
  have left : ∀ outcome, LeaseStep w (w.leave id outcome) id
      (.entering (.discover s requestCancel)) := fun outcome =>
    Ends.step (ends_moved rfl rfl rfl rfl rfl rfl rfl)
  unfold World.enterLocked
  split
  · exact left _
  next hunset =>
  split
  · exact left _
  split
  · exact left _
  split
  · split
    · exact lease_expired
    · exact ends_discoverBody.step
  next hfree =>
  split
  · exact left _
  split
  · exact left _
  · have hbody : ∀ u : World, u.owner = some s →
        u.cancel = requestCancel.getD (.owned w.nextEvent) →
        (requestCancel.isSome = true → u.isSet = w.isSet) → u.now = w.now → u.calls = w.calls →
        LeaseStep w (u.discoverBody id s) id (.entering (.discover s requestCancel)) := by
      intro u howner hcancel hset hnow hcalls
      obtain ⟨howner', hcancel', hset', hnow'⟩ := discoverBody_lease u id s
      refine ⟨.acquired (by simpa using hunset) (by simpa using hfree) (howner'.trans howner)
        (hcancel'.trans hcancel) (fun hrc => hset'.trans (hset hrc)) (hnow'.trans hnow), Or.inl ?_⟩
      have hleft := (@ends_discoverBody u id s).left
      unfold Left Moved at hleft ⊢
      rw [← hcalls]
      exact hleft
    refine hbody _ rfl rfl (fun hrc => if_neg ?_) rfl rfl
    cases requestCancel with
    | none => cases hrc
    | some e => simp

/-- Every step of a call. -/
theorem resume_lease {pc : Pc} {reply : Reply} (hv : w.resume id pc reply = some v) :
    LeaseStep w v id pc := by
  have kept : ∀ {u : World} {pc' : Pc}, u.owner = w.owner → u.deadline = w.deadline →
      u.cancel = w.cancel → u.isSet = w.isSet → u.now = w.now →
      u.calls = Function.update w.calls id (some pc') → pc'.isEntry = false → LeaseStep w u id pc :=
    fun howner hdeadline hcancel hset hnow hcalls hpc' =>
      (ends_moved hcancel hset hnow howner hdeadline hcalls hpc').step
  unfold World.resume at hv
  split at hv
  case h_2 r =>
    cases r with
    | discover s requestCancel =>
        obtain rfl := Option.some.inj hv
        exact enterDiscover_lease
    | connect s candidateId =>
        obtain rfl := Option.some.inj hv
        exact enterLocked_lease fun _ => ends_connectBody candidateId
    | keepAlive s =>
        obtain rfl := Option.some.inj hv
        exact enterLocked_lease fun _ => ends_keepAliveBody
    | _ => cases hv
  case h_5 =>
    refine (ends_journaled hv (fun u => ?_) (fun _ e => ends_fail e)).step
    unfold World.baselineSaved
    split
    · exact ends_moved rfl rfl rfl rfl rfl rfl rfl
    · exact ends_fail _
  case h_8 =>
    refine (ends_journaled hv (fun u => ?_) (fun _ e => ends_fail e)).step
    unfold World.checkpointSaved
    split
    · exact ends_moved rfl rfl rfl rfl rfl rfl rfl
    · exact ends_fail _
  case h_13 =>
    exact (ends_journaled hv (fun _ => ends_moved rfl rfl rfl rfl rfl rfl rfl)
      (fun _ e => ends_fail e)).step
  case h_20 =>
    refine (ends_journaled hv (fun u => ?_) (fun _ e => ends_failConnect e)).step
    unfold World.connectingSaved
    split
    · exact ends_moved rfl rfl rfl rfl rfl rfl rfl
    · exact ends_failConnect _
  case h_23 =>
    exact (ends_journaled hv (fun _ => ends_moved rfl rfl rfl rfl rfl rfl rfl)
      (fun _ e => ends_failConnect e)).step
  case h_28 =>
    exact (ends_journaled hv (fun _ => ends_finishRestore _ _)
      (fun _ _ => ends_restoreNotSaved _ _)).step
  case h_32 =>
    unfold World.acquire at hv
    split at hv
    · obtain rfl := Option.some.inj hv
      exact kept rfl rfl rfl rfl rfl rfl rfl
    · cases hv
  case h_34 =>
    unfold World.acquire at hv
    split at hv
    · obtain rfl := Option.some.inj hv
      have h := @ends_beginRestore { w with operation := some id } id .recover
      exact ⟨.ends h.cancel h.isSet h.now h.lease, Or.inl h.left⟩
    · cases hv
  case h_37 => cases hv
  all_goals obtain rfl := Option.some.inj hv
  case h_1 r =>
    split
    · exact ⟨.ends rfl rfl rfl (Or.inl ⟨rfl, rfl⟩), Or.inr ⟨r, rfl, rfl⟩⟩
    · exact kept rfl rfl rfl rfl rfl rfl rfl
  case h_3 => exact kept rfl rfl rfl rfl rfl rfl rfl
  case h_4 => exact (ends_fail _).step
  case h_6 => exact kept rfl rfl rfl rfl rfl rfl rfl
  case h_7 => exact (ends_fail _).step
  case h_9 => exact kept rfl rfl rfl rfl rfl rfl rfl
  case h_10 => exact (ends_fail _).step
  case h_11 =>
    unfold World.peersFound
    split
    · exact (ends_fail _).step
    · exact kept rfl rfl rfl rfl rfl rfl rfl
  case h_12 => exact (ends_fail _).step
  case h_14 =>
    unfold World.peerResolved
    split
    · exact (ends_failConnect _).step
    · exact kept rfl rfl rfl rfl rfl rfl rfl
  case h_15 => exact (ends_failConnect _).step
  case h_16 =>
    split
    · exact kept rfl rfl rfl rfl rfl rfl rfl
    · exact (ends_failConnect _).step
  case h_17 => exact (ends_failConnect _).step
  case h_18 => exact kept rfl rfl rfl rfl rfl rfl rfl
  case h_19 => exact (ends_failConnect _).step
  case h_21 =>
    unfold World.linkActivated
    split
    · exact (ends_failConnect _).step
    · split
      · exact (ends_failConnect _).step
      · exact kept rfl rfl rfl rfl rfl rfl rfl
  case h_22 => exact (ends_failConnect _).step
  case h_24 =>
    unfold World.leaseExtended
    split
    · exact (ends_fail _).step
    · next hcheck =>
      refine ⟨.renewed ?_ rfl rfl rfl rfl, Or.inl (Or.inr ⟨_, rfl, rfl⟩)⟩
      by_contra hset
      have hset : w.isSet w.cancel = true := by simpa using hset
      simp [World.check, World.budget, hset] at hcheck
  case h_25 => exact (ends_fail _).step
  case h_26 => exact (ends_markRestored _ _ _).step
  case h_27 => exact (ends_markRestored _ _ _).step
  case h_29 =>
    unfold World.cancelOwner
    split
    · exact ⟨.cancelled rfl rfl rfl (Or.inl ⟨rfl, rfl⟩), Or.inl (Or.inr ⟨_, rfl, rfl⟩)⟩
    · exact kept rfl rfl rfl rfl rfl rfl rfl
  case h_30 =>
    unfold World.expireStart
    split
    · exact kept rfl rfl rfl rfl rfl rfl rfl
    · split
      · exact kept rfl rfl rfl rfl rfl rfl rfl
      · exact ⟨.cancelled rfl rfl rfl (Or.inl ⟨rfl, rfl⟩), Or.inl (Or.inr ⟨_, rfl, rfl⟩)⟩
  case h_31 =>
    unfold World.releaseStart
    split
    · exact kept rfl rfl rfl rfl rfl rfl rfl
    · exact ⟨.cancelled rfl rfl rfl (Or.inl ⟨rfl, rfl⟩), Or.inl (Or.inr ⟨_, rfl, rfl⟩)⟩
  case h_33 =>
    unfold World.releaseCheck
    split
    · exact kept rfl rfl rfl rfl rfl rfl rfl
    · exact (ends_beginRestore _).step
  case h_35 => exact kept rfl rfl rfl rfl rfl rfl rfl
  case h_36 => exact kept rfl rfl rfl rfl rfl rfl rfl

end HccastWired.Network
