import HccastWired.Network.Preservation

/-!
# Where a successful connection comes from

Each step moves one call, and only `activate` hands out a link. A call that
reports a connection therefore got it from an activation that came back within
the lease.
-/

namespace HccastWired.Network

open Foundation World

variable {w v : World} {id : Nat} {s : Sender}

/-- The link a call is about to report or has reported. -/
def Pc.link : Pc → Option Activation
  | .saveConnected _ _ link => some link
  | .recoverProbe (.connected _ _ _ _ _ link) => some link
  | .finished (.ok (.connected _ _ _ _ _ link)) => some link
  | _ => none

/-- Only this call moved, to a program counter with the property. -/
def Moved (w v : World) (id : Nat) (P : Pc → Prop) : Prop :=
  ∃ pc, P pc ∧ v.calls = Function.update w.calls id (some pc)

/-- The call moved to a program counter without a link. -/
abbrev MovedOff (w v : World) (id : Nat) : Prop :=
  Moved w v id fun pc => pc.link = none

theorem moved_finishRestore (errors : List String) (k : After) :
    MovedOff w (w.finishRestore id errors k) id := by
  unfold World.finishRestore
  cases k with
  | expired s => exact ⟨_, rfl, rfl⟩
  | failure s e => cases e <;> exact ⟨_, rfl, rfl⟩
  | release s origin => cases origin <;> exact ⟨_, rfl, rfl⟩
  | recover => exact ⟨_, rfl, rfl⟩

theorem moved_beginRestore (k : After) : MovedOff w (w.beginRestore id k) id := by
  simp only [World.beginRestore]
  split
  · exact ⟨_, rfl, rfl⟩
  · exact moved_finishRestore (w := { w with state := .restoring }) [] k

theorem moved_fail (e : Failure) : MovedOff w (w.fail id s e) id :=
  moved_beginRestore (.failure s e)

theorem moved_failConnect (e : Failure) : MovedOff w (w.failConnect id s e) id :=
  moved_beginRestore (.failure s e)

theorem moved_markRestored (errors : List String) (group : Option String) (k : After) :
    MovedOff w (w.markRestored id errors group k) id := by
  simp only [World.markRestored]
  split <;> exact ⟨_, rfl, rfl⟩

theorem moved_restoreNotSaved (errors : List String) (k : After) :
    MovedOff w (w.restoreNotSaved id errors k) id :=
  moved_finishRestore _ k

theorem moved_enterLocked {acquire : Bool} {requestCancel : Option Event} {body : World → World}
    (hbody : ∀ u : World, u.calls = w.calls → MovedOff u (body u) id) :
    MovedOff w (w.enterLocked id s acquire requestCancel body) id := by
  unfold World.enterLocked
  split
  · exact ⟨_, rfl, rfl⟩
  split
  · exact ⟨_, rfl, rfl⟩
  split
  · exact ⟨_, rfl, rfl⟩
  split
  · split
    · exact moved_beginRestore (.expired s)
    · exact hbody w rfl
  split
  · exact ⟨_, rfl, rfl⟩
  split
  · exact ⟨_, rfl, rfl⟩
  · exact hbody _ rfl

theorem moved_discoverBody : MovedOff w (w.discoverBody id s) id := by
  unfold World.discoverBody
  split
  · exact ⟨_, rfl, rfl⟩
  · dsimp only
    split <;> exact ⟨_, rfl, rfl⟩

theorem moved_connectBody (candidateId : String) :
    MovedOff w (w.connectBody id s candidateId) id := by
  unfold World.connectBody
  split
  · split
    · split
      · exact ⟨_, rfl, rfl⟩
      · exact moved_failConnect _
    · exact ⟨_, rfl, rfl⟩
  · exact ⟨_, rfl, rfl⟩

theorem moved_keepAliveBody : MovedOff w (w.keepAliveBody id s) id := by
  unfold World.keepAliveBody
  split
  · exact ⟨_, rfl, rfl⟩
  · exact moved_fail _

theorem replaceJournal_calls (w : World) : w.replaceJournal.calls = w.calls := by
  unfold World.replaceJournal
  split <;> rfl

/-- A journal write moves the call where its handlers move it. -/
theorem moved_journaled {reply : Reply} {saved : World → World}
    {failed : World → Failure → World} {P : Pc → Prop}
    (h : w.journaled reply saved failed = some v) (hsaved : ∀ u, Moved u (saved u) id P)
    (hfailed : ∀ u e, Moved u (failed u e) id P) : Moved w v id P := by
  have onReplaced : ∀ u, Moved w.replaceJournal u id P → Moved w u id P := by
    rintro u ⟨pc, hpc, hcalls⟩
    exact ⟨pc, hpc, by rw [hcalls, replaceJournal_calls]⟩
  unfold World.journaled at h
  split at h
  · obtain rfl := Option.some.inj h
    exact onReplaced _ (hsaved _)
  · obtain rfl := Option.some.inj h
    exact hfailed _ _
  · obtain rfl := Option.some.inj h
    exact onReplaced _ (hfailed _ _)
  · cases h

/-- How a call comes by a link: `activate` returned it within budget and lease,
or the call already had it. -/
def LinkFrom (w : World) (pc : Pc) (reply : Reply) (pc' : Pc) : Prop :=
  pc'.link = none ∨ pc'.link = pc.link ∨
    ∃ s peer b link, pc = .activate s peer b ∧ reply = .activated link ∧ pc'.link = some link ∧
      w.check b = .ok () ∧ w.now < w.deadline

theorem MovedOff.linkFrom {pc : Pc} {reply : Reply} (h : MovedOff w v id) :
    Moved w v id (LinkFrom w pc reply) := by
  obtain ⟨pc', hpc', hcalls⟩ := h
  exact ⟨pc', Or.inl hpc', hcalls⟩

theorem moved_linkActivated {peer : Peer} {b : Budget} {link : Activation} :
    Moved w (w.linkActivated id s peer b link) id
      (LinkFrom w (.activate s peer b) (.activated link)) := by
  unfold World.linkActivated
  split
  · exact (moved_failConnect _).linkFrom
  · next hcheck =>
    split
    · exact MovedOff.linkFrom (moved_failConnect _)
    · next hdeadline =>
      exact ⟨_, Or.inr (Or.inr ⟨s, peer, b, link, rfl, rfl, rfl, hcheck, lt_of_not_ge hdeadline⟩),
        rfl⟩

theorem moved_acquire {next : World → World}
    (hnext : ∀ u : World, u.calls = w.calls → MovedOff u (next u) id)
    (hv : w.acquire id next = some v) : MovedOff w v id := by
  unfold World.acquire at hv
  split at hv
  · obtain rfl := Option.some.inj hv
    exact hnext { w with operation := some id } rfl
  · cases hv

theorem moved_enterRequest {r : Request} (hv : w.enterRequest id r = some v) :
    MovedOff w v id := by
  cases r with
  | discover s requestCancel =>
      obtain rfl := Option.some.inj hv
      exact moved_enterLocked fun _ _ => moved_discoverBody
  | connect s candidateId =>
      obtain rfl := Option.some.inj hv
      exact moved_enterLocked fun _ _ => moved_connectBody candidateId
  | keepAlive s =>
      obtain rfl := Option.some.inj hv
      exact moved_enterLocked fun _ _ => moved_keepAliveBody
  | _ => cases hv

/-- Every other program counter leads to one without a link. -/
theorem moved_resume {pc : Pc} {reply : Reply} (hv : w.resume id pc reply = some v)
    (hactivate : ∀ s peer b, pc ≠ .activate s peer b)
    (hconnected : ∀ s peer link, pc ≠ .saveConnected s peer link)
    (hprobe : ∀ result, pc ≠ .recoverProbe result) : MovedOff w v id := by
  unfold World.resume at hv
  split at hv
  case h_2 => exact moved_enterRequest hv
  case h_5 =>
    refine moved_journaled hv (fun u => ?_) (fun _ e => moved_fail e)
    unfold World.baselineSaved
    split
    · exact ⟨_, rfl, rfl⟩
    · exact moved_fail _
  case h_8 =>
    refine moved_journaled hv (fun u => ?_) (fun _ e => moved_fail e)
    unfold World.checkpointSaved
    split
    · exact ⟨_, rfl, rfl⟩
    · exact moved_fail _
  case h_13 => exact moved_journaled hv (fun u => ⟨_, rfl, rfl⟩) (fun _ e => moved_fail e)
  case h_20 =>
    refine moved_journaled hv (fun u => ?_) (fun _ e => moved_failConnect e)
    unfold World.connectingSaved
    split
    · exact ⟨_, rfl, rfl⟩
    · exact moved_failConnect _
  case h_21 => exact absurd rfl (hactivate _ _ _)
  case h_22 => exact absurd rfl (hactivate _ _ _)
  case h_23 => exact absurd rfl (hconnected _ _ _)
  case h_28 =>
    exact moved_journaled hv (fun _ => moved_finishRestore _ _)
      (fun _ _ => moved_restoreNotSaved _ _)
  case h_32 => exact moved_acquire (fun _ _ => ⟨_, rfl, rfl⟩) hv
  case h_34 => exact moved_acquire (fun _ _ => moved_beginRestore _) hv
  case h_35 => exact absurd rfl (hprobe _)
  case h_36 => exact absurd rfl (hprobe _)
  case h_37 => cases hv
  all_goals obtain rfl := Option.some.inj hv
  case h_1 => split <;> exact ⟨_, rfl, rfl⟩
  case h_3 => exact ⟨_, rfl, rfl⟩
  case h_4 => exact moved_fail _
  case h_6 => exact ⟨_, rfl, rfl⟩
  case h_7 => exact moved_fail _
  case h_9 => exact ⟨_, rfl, rfl⟩
  case h_10 => exact moved_fail _
  case h_11 =>
    unfold World.peersFound
    split
    · exact moved_fail _
    · exact ⟨_, rfl, rfl⟩
  case h_12 => exact moved_fail _
  case h_14 =>
    unfold World.peerResolved
    split
    · exact moved_failConnect _
    · exact ⟨_, rfl, rfl⟩
  case h_15 => exact moved_failConnect _
  case h_16 =>
    split
    · exact ⟨_, rfl, rfl⟩
    · exact moved_failConnect _
  case h_17 => exact moved_failConnect _
  case h_18 => exact ⟨_, rfl, rfl⟩
  case h_19 => exact moved_failConnect _
  case h_24 =>
    unfold World.leaseExtended
    split
    · exact moved_fail _
    · exact ⟨_, rfl, rfl⟩
  case h_25 => exact moved_fail _
  case h_26 => exact moved_markRestored _ _ _
  case h_27 => exact moved_markRestored _ _ _
  case h_29 =>
    unfold World.cancelOwner
    split <;> exact ⟨_, rfl, rfl⟩
  case h_30 =>
    unfold World.expireStart
    split
    · exact ⟨_, rfl, rfl⟩
    · split <;> exact ⟨_, rfl, rfl⟩
  case h_31 =>
    unfold World.releaseStart
    split <;> exact ⟨_, rfl, rfl⟩
  case h_33 =>
    unfold World.releaseCheck
    split
    · exact ⟨_, rfl, rfl⟩
    · exact moved_beginRestore _

/-- Where each step takes the call, as far as links go. -/
theorem linkFrom_resume {pc : Pc} {reply : Reply} (hv : w.resume id pc reply = some v) :
    Moved w v id (LinkFrom w pc reply) := by
  cases pc with
  | activate s peer b =>
      cases reply with
      | activated link =>
          obtain rfl := Option.some.inj hv
          exact moved_linkActivated
      | raised e =>
          obtain rfl := Option.some.inj hv
          exact (moved_failConnect e).linkFrom
      | _ => cases hv
  | saveConnected s peer link =>
      simp only [World.resume] at hv
      refine moved_journaled hv (fun u => ?_) (fun u e => ?_)
      · refine ⟨_, ?_, rfl⟩
        exact Or.inr (Or.inl rfl)
      · exact (moved_failConnect e).imp fun _ h => ⟨Or.inl h.1, h.2⟩
  | recoverProbe result =>
      cases reply with
      | available yes =>
          obtain rfl := Option.some.inj hv
          exact ⟨_, Or.inr (Or.inl (by cases result <;> rfl)), rfl⟩
      | raised e =>
          obtain rfl := Option.some.inj hv
          exact ⟨_, Or.inr (Or.inl (by cases result <;> rfl)), rfl⟩
      | _ => cases hv
  | _ =>
      exact (moved_resume hv (fun _ _ _ h => by cases h) (fun _ _ _ h => by cases h)
        (fun _ h => by cases h)).linkFrom

/-- The link came back from `activate` in an earlier state of the run: there the
call owned the lease, its cancel event was not set and the lease had not expired. -/
def Activated (initial w : World) (id : Nat) (link : Activation) : Prop :=
  ∃ u t s peer b, helperSystem.Reaches System.Any initial u ∧
    u.calls id = some (.activate s peer b) ∧ b.cancel = some u.cancel ∧ u.owner = some s ∧
    u.isSet u.cancel = false ∧ u.now < u.deadline ∧ u.now < b.deadline ∧
    u.step (.resume id (.activated link)) = some t ∧ helperSystem.Reaches System.Any t w

theorem Activated.later {initial : World} {a : Action} {link : Activation}
    (h : Activated initial w id link) (hv : w.step a = some v) : Activated initial v id link := by
  obtain ⟨u, t, s, peer, b, hu, hcall, hb, ho, hset, hlease, hbudget, hstep, hrun⟩ := h
  exact ⟨u, t, s, peer, b, hu, hcall, hb, ho, hset, hlease, hbudget, hstep,
    hrun.tail ⟨a, trivial, hv⟩⟩

theorem check_ok {b : Budget} (h : w.check b = .ok ()) :
    b.cancel.any w.isSet = false ∧ w.now < b.deadline := by
  unfold World.check at h
  split at h
  · cases h
  split at h
  · cases h
  · next hset hdeadline => exact ⟨by simpa using hset, lt_of_not_ge hdeadline⟩

/-- Every link a call holds came back from `activate` within its lease. -/
theorem reaches_activated {journal : Option Record} {now : Time}
    (run : helperSystem.Reaches System.Any (World.create journal now []) v) {pc : Pc}
    (hcall : v.calls id = some pc) {link : Activation} (hlink : pc.link = some link) :
    Activated (World.create journal now []) v id link := by
  induction run generalizing id pc link with
  | refl => cases hcall
  | @tail w v run last ih =>
      obtain ⟨a, -, hv⟩ := last
      have hv : w.step a = some v := hv
      have stayed : w.calls id = some pc → Activated (World.create journal now []) v id link :=
        fun h => (ih h hlink).later hv
      cases a with
      | call i r =>
          simp only [World.step] at hv
          split at hv
          · obtain rfl := Option.some.inj hv
            by_cases hi : id = i
            · subst id
              rw [goto_calls_self] at hcall
              obtain rfl := Option.some.inj hcall
              cases r <;> cases hlink
            · rw [goto_calls_ne _ _ hi] at hcall
              exact stayed hcall
          · cases hv
      | resume i reply =>
          obtain ⟨old, hold, hresume⟩ := Option.bind_eq_some_iff.mp hv
          obtain ⟨pc', hfrom, hcalls⟩ := linkFrom_resume hresume
          rw [hcalls] at hcall
          by_cases hi : id = i
          · subst id
            rw [Function.update_self] at hcall
            obtain rfl := Option.some.inj hcall
            rcases hfrom with hnone | hsame | ⟨s, peer, b, l, rfl, rfl, hl, hcheck, hlease⟩
            · rw [hlink] at hnone
              cases hnone
            · exact (ih hold (hsame.symm.trans hlink)).later hv
            · obtain rfl := Option.some.inj (hl.symm.trans hlink)
              obtain ⟨hb, ho, -⟩ := (reaches_inv run).held i _ hold rfl
              obtain ⟨hset, hbudget⟩ := check_ok hcheck
              exact ⟨w, v, s, peer, b, run, hold, hb, ho, by simpa [hb] using hset, hlease,
                hbudget, hv, .refl⟩
          · rw [Function.update_of_ne hi] at hcall
            exact stayed hcall
      | cancelRequest n =>
          obtain rfl := Option.some.inj hv
          exact stayed hcall
      | wait t =>
          simp only [World.step] at hv
          split at hv
          · obtain rfl := Option.some.inj hv
            exact stayed hcall
          · cases hv

end HccastWired.Network

