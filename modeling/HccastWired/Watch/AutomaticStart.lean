import HccastWired.Watch.Supervision

/-!
# Automatic starts

A start that nobody asked for is issued only with the gate open, for the startup or for an
interrupted stream that no command has taken back, on a sample of the network taken since
the last one.
-/

namespace HccastWired.Watch

open Foundation

section History

/-- Since the startup, the last command, start or interruption, a start is still due. -/
def mayStart (startup : Bool) : List Event → Bool
  | .interrupted :: _ => true
  | .commanded :: _ => false
  | .issued .start :: _ => false
  | _ :: log => mayStart startup log
  | [] => startup

/-- The sample of the network that was consumed last, if no start was issued since. -/
def networkSample : List Event → Option Sample
  | .consumed .network deadline arrived result :: _ => some ⟨deadline, arrived, result⟩
  | .issued .start :: _ => none
  | _ :: log => networkSample log
  | [] => none

def Event.isStart : Event → Bool
  | .issued .start => true
  | _ => false

def Event.isInterruption : Event → Bool
  | .interrupted => true
  | _ => false

/-- What permits an automatic start. -/
structure StartPermitted (startup : Bool) (log : List Event) : Prop where
  due : mayStart startup log = true
  ready : ∃ sample, networkSample log = some sample ∧ sample.Counts .network
  opened : ∃ now rest, log = .opened now :: rest

/-- Every start of the log was permitted. -/
def StartsPermitted (startup : Bool) (log : List Event) : Prop :=
  ∀ newer older, log = newer ++ .issued .start :: older → StartPermitted startup older

variable {startup : Bool} {log : List Event} {e : Event}

theorem startsPermitted_cons (h : StartsPermitted startup log)
    (he : e = .issued .start → StartPermitted startup log) : StartsPermitted startup (e :: log) := by
  intro newer older heq
  cases newer with
  | nil =>
    obtain ⟨rfl, rfl⟩ := List.cons.inj heq
    exact he rfl
  | cons first newer =>
    obtain ⟨-, htail⟩ := List.cons.inj heq
    exact h newer older htail

/-- There are no more starts than interruptions, but for the one of the startup. -/
theorem starts_le (h : StartsPermitted startup log) :
    log.countP Event.isStart + (mayStart startup log).toNat ≤
      startup.toNat + log.countP Event.isInterruption := by
  induction log with
  | nil => exact le_of_eq (Nat.add_comm _ _)
  | cons e log ih =>
    have hlog : StartsPermitted startup log := fun newer older heq =>
      h (e :: newer) older (congrArg (List.cons e) heq)
    have hle := ih hlog
    cases e with
    | issued verb =>
      cases verb with
      | start =>
        have hdue := (h [] log rfl).due
        rw [hdue] at hle
        rw [List.countP_cons_of_pos rfl, List.countP_cons_of_neg (by decide)]
        exact hle
      | stop => exact hle
    | interrupted =>
      rw [List.countP_cons_of_neg (by decide), List.countP_cons_of_pos rfl]
      change _ + 1 ≤ _
      omega
    | commanded =>
      rw [List.countP_cons_of_neg (by decide), List.countP_cons_of_neg (by decide)]
      exact (Nat.le_add_right _ _).trans hle
    | _ => exact hle

/-- An event that changes neither what is due nor the sample of the network. -/
def Event.plain : Event → Bool
  | .consumed .network _ _ _ => false
  | .interrupted => false
  | .commanded => false
  | .issued .start => false
  | _ => true

theorem mayStart_plain (he : e.plain = true) : mayStart startup (e :: log) = mayStart startup log := by
  cases e with
  | interrupted => cases he
  | commanded => cases he
  | issued verb =>
    cases verb with
    | start => cases he
    | stop => rfl
  | _ => rfl

theorem networkSample_plain (he : e.plain = true) : networkSample (e :: log) = networkSample log ∧
    lastConsumed .network (e :: log) = lastConsumed .network log := by
  cases e with
  | consumed kind deadline arrived result =>
    cases kind with
    | network => cases he
    | _ => exact ⟨rfl, rfl⟩
  | issued verb =>
    cases verb with
    | start => cases he
    | stop => exact ⟨rfl, rfl⟩
  | _ => exact ⟨rfl, rfl⟩

end History

namespace Service

variable {s t : Service} {kind : Kind} {a : Rat} {r : Result} {startup : Bool} {e : Event} {log : List Event}

/-- A start is pending. -/
def pending (s : Service) : Bool :=
  s.autostartPending || s.resumeAfterSession

/-- What holds of automatic starts between two actions. -/
structure Auto (startup : Bool) (s : Service) : Prop where
  due : s.pending = true → mayStart startup s.log = true
  network : s.networkReady = true → networkSample s.log = lastConsumed .network s.log
  starts : StartsPermitted startup s.log

/-- A step after which no more is pending or ready. -/
theorem Auto.extend (h : s.Auto startup) (hpending : t.pending = true → s.pending = true)
    (hready : t.networkReady = true → s.networkReady = true)
    (hlog : t.log = s.log ∨ ∃ e, e.plain = true ∧ t.log = e :: s.log) : t.Auto startup := by
  obtain hlog | ⟨e, he, hlog⟩ := hlog
  · constructor
    · rw [hlog]
      exact fun hdue => h.due (hpending hdue)
    · rw [hlog]
      exact fun hnetwork => h.network (hready hnetwork)
    · rw [hlog]
      exact h.starts
  · constructor
    · rw [hlog, mayStart_plain he]
      exact fun hdue => h.due (hpending hdue)
    · rw [hlog, (networkSample_plain he).1, (networkSample_plain he).2]
      exact fun hnetwork => h.network (hready hnetwork)
    · rw [hlog]
      refine startsPermitted_cons h.starts ?_
      rintro rfl
      cases he

theorem accept_pending {value : Option PyValue} : (s.accept kind value).pending = s.pending := by
  cases kind <;> rfl

theorem Auto.consume (h : s.Auto startup) : (s.consume kind a r).Auto startup := by
  have hpending : (s.consume kind a r).pending = s.pending := accept_pending
  have hlog : (s.consume kind a r).log = .consumed kind (s.polls kind).deadline a r :: s.log := accept_log
  cases kind with
  | network =>
    constructor
    · rw [hpending, hlog]
      exact h.due
    · rw [hlog]
      exact fun _ => rfl
    · rw [hlog]
      exact startsPermitted_cons h.starts fun he => by cases he
  | session => exact h.extend (by rw [hpending]; exact id) id (.inr ⟨_, rfl, hlog⟩)
  | health => exact h.extend (by rw [hpending]; exact id) id (.inr ⟨_, rfl, hlog⟩)

theorem Auto.expire (h : s.Auto startup) : (s.expire kind).Auto startup := by
  refine h.extend ?_ ?_ (.inl accept_log)
  · rw [show (s.expire kind).pending = s.pending from accept_pending]
    exact id
  · cases kind with
    | network =>
      intro hready
      cases hready
    | session => exact id
    | health => exact id

theorem Auto.ask (h : s.Auto startup) : (s.ask kind).Auto startup := by
  obtain heq | ⟨-, heq⟩ := @ask_cases s kind
  · rw [heq]
    exact h
  · rw [heq]
    exact h.extend id id (.inr ⟨_, rfl, rfl⟩)

theorem Auto.poll (h : s.Auto startup) : (s.poll kind).Auto startup := by
  rw [Service.poll]
  split
  · exact h.consume.ask
  · split
    · exact h.expire.ask
    · exact h.ask
  · exact h.ask

theorem Auto.observed (h : s.Auto startup) : s.observed.Auto startup := by
  have hpolled : s.pollAll.Auto startup := h.poll.poll.poll
  rw [Service.observed, collect]
  split
  · exact hpolled.extend id id (.inr ⟨_, rfl, rfl⟩)
  · exact hpolled.extend id id (.inr ⟨_, rfl, rfl⟩)
  · exact hpolled

theorem Auto.unlock (h : s.Auto startup) : s.unlock.Auto startup := by
  refine h.extend ?_ id (.inr ⟨_, rfl, rfl⟩)
  intro hpending
  have hsplit := Bool.or_eq_true_iff.mp hpending
  rw [pending, Bool.or_eq_true]
  exact hsplit.imp (fun hauto => (Bool.and_eq_true_iff.mp hauto).1) fun hresume =>
    (Bool.and_eq_true_iff.mp hresume).1

/-- The gate has just been opened. -/
theorem Auto.autostart {now : Rat} (h : s.Auto startup) (hinv : s.Inv)
    (hopened : s.log = .opened now :: log) : s.autostart.Auto startup := by
  rw [Service.autostart]
  split
  · next hstart =>
    split
    · next hready =>
      have hpermitted : StartPermitted startup s.log := by
        refine ⟨h.due (Bool.or_eq_true_iff.mpr hstart.1), ?_, now, log, hopened⟩
        rw [h.network hready]
        exact hinv.sample .network hready
      constructor
      · intro hpending
        cases hpending
      · intro hnetwork
        cases hnetwork
      · exact startsPermitted_cons h.starts fun _ => hpermitted
    · dsimp only
      split
      · refine h.extend ?_ id (.inl rfl)
        intro hpending
        cases hpending
      · exact h.extend id id (.inl rfl)
  · exact h

/-- A tick without permission, up to its last event. -/
theorem Auto.noted (h : s.Auto startup) {c : Controller} {stop : Bool} :
    Auto startup (Service.record { s with
      resumeAfterSession := s.healthValid, stopPending := stop, controller := c } .interrupted) where
  due _ := rfl
  network := h.network
  starts := startsPermitted_cons h.starts fun he => by cases he

theorem Auto.close (h : s.Auto startup) : s.close.Auto startup := by
  have hkept : ∀ (b stop : Bool) (c : Controller), (b = true → s.resumeAfterSession = true) →
      Auto startup { s with resumeAfterSession := b, stopPending := stop, controller := c } := by
    intro b stop c hb
    refine h.extend ?_ id (.inl rfl)
    intro hpending
    rw [pending, Bool.or_eq_true]
    exact (Bool.or_eq_true_iff.mp hpending).imp id hb
  have hwithdrawn : ∀ u : Service, u.Auto startup → (u.record .withdrawn).Auto startup := fun u hu =>
    hu.extend id id (.inr ⟨_, rfl, rfl⟩)
  rw [Service.close]
  dsimp only
  cases hinterrupts : s.interrupts with
  | false =>
    have hclosed := hkept (s.resumeAfterSession && s.healthValid)
      (s.stopPending || s.wasPermitted || s.controller.desired)
      { s.controller with
        sessionUnlocked := false, desired := false, resumeAfterUnlock := false, message := s.lockedMessage }
      fun hb => (Bool.and_eq_true_iff.mp hb).1
    split
    · exact hwithdrawn _ hclosed
    · exact hclosed
  | true =>
    cases hdesired : s.controller.desired with
    | false =>
      have hclosed := hkept false (s.stopPending || s.wasPermitted || false)
        { s.controller with
          sessionUnlocked := false, desired := false, resumeAfterUnlock := false, message := s.lockedMessage }
        fun hb => by cases hb
      split
      · exact hwithdrawn _ hclosed
      · exact hclosed
    | true =>
      split
      · exact hwithdrawn _ h.noted
      · exact h.noted

theorem Auto.decide (h : s.Auto startup) (hinv : s.Inv) (hsession : s.InTime .session)
    (hhealth : s.InTime .health) : s.decide.Auto startup := by
  rw [Service.decide]
  split
  · next hpermitted =>
    split
    · next hfree =>
      have hidle := Option.isNone_iff_eq_none.mp hfree.1
      exact h.unlock.autostart (hinv.unlock (hinv.safe hsession hhealth hpermitted hidle hfree.2)) rfl
    · exact h
  · exact h.close

theorem Auto.settle (h : s.Auto startup) (permitted : Bool) : (s.settle permitted).Auto startup := by
  rw [Service.settle]
  dsimp only
  split
  · exact h.extend id (fun hready => (Bool.and_eq_true_iff.mp hready).2) (.inr ⟨_, rfl, rfl⟩)
  · exact h.extend id (fun hready => (Bool.and_eq_true_iff.mp hready).2) (.inl rfl)

theorem Auto.tick (h : s.Auto startup) (hinv : s.Inv) : s.tick.Auto startup := by
  obtain ⟨hobserved, hsession, hhealth⟩ := hinv.observed
  exact (h.observed.decide hobserved hsession hhealth).settle _

theorem Auto.takenBack (h : s.Auto startup) (plain : Bool) : (s.takesBack plain).Auto startup := by
  rw [takesBack]
  split
  · constructor
    · intro hpending
      cases hpending
    · exact h.network
    · exact startsPermitted_cons h.starts fun he => by cases he
  · exact h

theorem Auto.invalidated (h : s.Auto startup) (plain : Bool) : (s.invalidates plain).Auto startup := by
  rw [invalidates]
  split
  · exact h.extend id id (.inl rfl)
  · exact h

theorem Auto.step (h : s.Auto startup) (hinv : s.Inv) {action : Action}
    (hstep : Watch.step s action = some t) : t.Auto startup := by
  cases action with
  | tick =>
    rw [Watch.step] at hstep
    split at hstep
    · cases hstep
    · cases hstep
      exact h.tick hinv
  | dispatch verb plain =>
    cases verb with
    | start =>
      rw [Watch.step] at hstep
      split at hstep
      · cases hstep
        exact h
      · cases hstep
        exact h.takenBack plain
    | stop =>
      cases hstep
      exact (h.takenBack plain).invalidated plain
  | restoreDefaults plain =>
    cases hstep
    exact (h.takenBack plain).invalidated plain
  | nameLost =>
    cases hstep
    exact h.extend id id (.inr ⟨_, rfl, rfl⟩)
  | nameAcquired =>
    rw [Watch.step] at hstep
    split at hstep
    · cases hstep
    · cases hstep
      exact h.extend id id (.inr ⟨_, rfl, rfl⟩)
  | stop =>
    rw [Watch.step] at hstep
    split at hstep
    · cases hstep
    · cases hstep
      exact h.extend id id (.inr ⟨_, rfl, rfl⟩)
  | _ =>
    rw [Watch.step] at hstep
    split at hstep
    · cases hstep
      try exact h.extend id id (.inl rfl)
    · cases hstep

end Service

section Runs

variable {s s' : Service}

end Runs

end HccastWired.Watch
