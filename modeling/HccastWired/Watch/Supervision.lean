import HccastWired.Watch.Supervisor

/-!
# Supervision fails closed

What the log says of requests, commands and the bus name, and that the gate is opened only
when all of it permits, over every run of the service.
-/

namespace HccastWired.Watch

open Foundation

section History

/-- The name is owned. -/
def owned : List Event → Bool
  | .named b :: _ => b
  | _ :: log => owned log
  | [] => false

/-- The deadline of a request without a result. -/
def outstanding (kind : Kind) : List Event → Option Rat
  | .asked k deadline :: log => if k = kind then some deadline else outstanding kind log
  | .consumed k _ _ _ :: log => if k = kind then none else outstanding kind log
  | _ :: log => outstanding kind log
  | [] => none

/-- A result with the deadline of its request and its arrival. -/
structure Sample where
  deadline : Rat
  arrived : Rat
  result : Result

/-- The result that was consumed last. -/
def lastConsumed (kind : Kind) : List Event → Option Sample
  | .consumed k deadline arrived result :: log =>
      if k = kind then some ⟨deadline, arrived, result⟩ else lastConsumed kind log
  | _ :: log => lastConsumed kind log
  | [] => none

/-- A command of the supervisor has not ended. -/
def unfinished : List Event → Bool
  | .issued _ :: _ => true
  | .collected _ :: _ => false
  | _ :: log => unfinished log
  | [] => false

/-- The permission was withdrawn, and no stop has been issued since. -/
def owesStop : List Event → Bool
  | .withdrawn :: _ => true
  | .issued .stop :: _ => false
  | _ :: log => owesStop log
  | [] => false

/-- What a request has to return. -/
def Kind.good : Kind → PyValue → Bool
  | session, value => value = .bool true
  | health, value => safetyAction value = .ok
  | network, value => recoveryReady value

/-- A good result that arrived in time. -/
def Sample.Counts (sample : Sample) (kind : Kind) : Prop :=
  sample.arrived < sample.deadline ∧ ∃ value, sample.result = .ok value ∧ kind.good value = true

/-- The history permits that the gate is opened. -/
structure Safe (now : Rat) (log : List Event) : Prop where
  owned : owned log = true
  sample : ∀ kind, kind ≠ .network → ∃ sample, lastConsumed kind log = some sample ∧ sample.Counts kind
  fresh : ∀ kind, kind ≠ .network → ∀ deadline, outstanding kind log = some deadline → now < deadline
  idle : unfinished log = false
  stopped : owesStop log = false

end History

variable {s s' : Service} {kind other : Kind} {e : Event} {log newer older : List Event}

/-- An event of a request. -/
inductive Event.About (kind : Kind) : Event → Prop
  | asked (deadline : Rat) : About kind (.asked kind deadline)
  | consumed (deadline arrived : Rat) (result : Result) :
      About kind (.consumed kind deadline arrived result)

namespace Service

/-- The flag that a kind of request sets. -/
def valid (s : Service) : Kind → Bool
  | .session => s.sessionValid
  | .health => s.healthValid
  | .network => s.networkReady

/-- The request of a kind is in time, or has not been made. -/
def InTime (s : Service) (kind : Kind) : Prop :=
  s.valid kind = true → (s.polls kind).task.isSome → s.clock < (s.polls kind).deadline

/-- What holds between two actions. -/
structure Inv (s : Service) : Prop where
  name : s.nameOwned = owned s.log
  asked : ∀ kind, outstanding kind s.log = (s.polls kind).task.map fun _ => (s.polls kind).deadline
  arrived : ∀ kind a r, (s.polls kind).task = some (.done a r) → a ≤ s.clock
  live : ∀ kind, s.valid kind = true → (s.polls kind).task.isSome → (s.polls kind).expired = false
  sample : ∀ kind, s.valid kind = true →
    ∃ sample, lastConsumed kind s.log = some sample ∧ sample.Counts kind
  safety : unfinished s.log = s.safetyTask.isSome
  owed : owesStop s.log = true → s.stopPending = true
  opened : ∀ newer older now, s.log = newer ++ .opened now :: older → Safe now older

/-- The controller is not open without the permission of the last tick. -/
structure Gated (s : Service) : Prop where
  unlocked : s.wasPermitted = false → s.controller.sessionUnlocked = false
  desired : s.wasPermitted = false → s.controller.desired = false
  resume : s.wasPermitted = false → s.controller.resumeAfterUnlock = false

end Service

/-- The openings of a log with one more event. -/
theorem opened_cons (h : ∀ newer older now, log = newer ++ .opened now :: older → Safe now older)
    (he : ∀ now, e = .opened now → Safe now log) :
    ∀ newer older now, e :: log = newer ++ .opened now :: older → Safe now older := by
  intro newer older now heq
  cases newer with
  | nil =>
    obtain ⟨rfl, rfl⟩ := List.cons.inj heq
    exact he now rfl
  | cons first newer =>
    obtain ⟨-, htail⟩ := List.cons.inj heq
    exact h newer older now htail

namespace Service

section Requests

variable {t : Service} {value : Option PyValue} {a : Rat} {r : Result}

theorem accept_polls : (s.accept kind value).polls = s.polls := by
  cases kind <;> rfl

theorem accept_log : (s.accept kind value).log = s.log := by
  cases kind <;> rfl

theorem safetyAction_unknownHealth : safetyAction unknownHealth = .unknown := by
  decide

theorem accept_valid : (s.accept kind value).valid kind = value.any kind.good := by
  cases value with
  | none =>
    cases kind with
    | session => rfl
    | health => simp [accept, valid, safetyAction_unknownHealth]
    | network => rfl
  | some v =>
    cases kind with
    | session => simp [accept, valid, Kind.good]
    | health => rfl
    | network => rfl

theorem accept_valid_ne (h : other ≠ kind) : (s.accept kind value).valid other = s.valid other := by
  cases kind <;> cases other <;> first | rfl | exact absurd rfl h

/-- A step of a request of one kind. -/
structure Touches (kind : Kind) (s t : Service) : Prop where
  name : t.nameOwned = s.nameOwned
  clock : t.clock = s.clock
  safety : t.safetyTask = s.safetyTask
  stop : t.stopPending = s.stopPending
  polls : ∀ other, other ≠ kind → t.polls other = s.polls other
  valid : ∀ other, other ≠ kind → t.valid other = s.valid other
  log : t.log = s.log ∨ ∃ e, e.About kind ∧ t.log = e :: s.log

theorem Touches.outstanding (h : Touches kind s t) (hne : other ≠ kind) :
    outstanding other t.log = outstanding other s.log := by
  obtain hlog | ⟨e, he, hlog⟩ := h.log
  · rw [hlog]
  · rw [hlog]
    cases he <;> exact if_neg (Ne.symm hne)

theorem Touches.lastConsumed (h : Touches kind s t) (hne : other ≠ kind) :
    lastConsumed other t.log = lastConsumed other s.log := by
  obtain hlog | ⟨e, he, hlog⟩ := h.log
  · rw [hlog]
  · rw [hlog]
    cases he with
    | asked deadline => rfl
    | consumed deadline arrived result => exact if_neg (Ne.symm hne)

/-- What holds of the other kinds and of the commands is kept by a step of a request. -/
theorem Inv.touch (h : s.Inv) (ht : Touches kind s t)
    (asked : Watch.outstanding kind t.log = (t.polls kind).task.map fun _ => (t.polls kind).deadline)
    (arrived : ∀ a r, (t.polls kind).task = some (.done a r) → a ≤ t.clock)
    (live : t.valid kind = true → (t.polls kind).task.isSome → (t.polls kind).expired = false)
    (sample : t.valid kind = true →
      ∃ sample, Watch.lastConsumed kind t.log = some sample ∧ sample.Counts kind) : t.Inv where
  name := by
    rw [ht.name, h.name]
    obtain hlog | ⟨e, he, hlog⟩ := ht.log
    · rw [hlog]
    · rw [hlog]
      cases he <;> rfl
  asked := by
    intro other
    by_cases hother : other = kind
    · exact hother ▸ asked
    · rw [ht.outstanding hother, ht.polls other hother, h.asked other]
  arrived := by
    intro other
    by_cases hother : other = kind
    · exact hother ▸ arrived
    · rw [ht.polls other hother, ht.clock]
      exact h.arrived other
  live := by
    intro other
    by_cases hother : other = kind
    · exact hother ▸ live
    · rw [ht.polls other hother, ht.valid other hother]
      exact h.live other
  sample := by
    intro other
    by_cases hother : other = kind
    · exact hother ▸ sample
    · rw [ht.valid other hother, ht.lastConsumed hother]
      exact h.sample other
  safety := by
    rw [ht.safety, ← h.safety]
    obtain hlog | ⟨e, he, hlog⟩ := ht.log
    · rw [hlog]
    · rw [hlog]
      cases he <;> rfl
  owed := by
    rw [ht.stop]
    obtain hlog | ⟨e, he, hlog⟩ := ht.log
    · rw [hlog]
      exact h.owed
    · rw [hlog]
      cases he <;> exact h.owed
  opened := by
    obtain hlog | ⟨e, he, hlog⟩ := ht.log
    · rw [hlog]
      exact h.opened
    · rw [hlog]
      exact opened_cons h.opened fun now hnow => by cases he <;> cases hnow

theorem Touches.accept (h : Touches kind s t) : Touches kind s (t.accept kind value) where
  name := by cases kind <;> exact h.name
  clock := by cases kind <;> exact h.clock
  safety := by cases kind <;> exact h.safety
  stop := by cases kind <;> exact h.stop
  polls := by
    rw [accept_polls]
    exact h.polls
  valid := by
    intro other hne
    rw [accept_valid_ne hne]
    exact h.valid other hne
  log := by
    rw [accept_log]
    exact h.log

theorem touches_withPoll (p : Poll) : Touches kind s (s.withPoll kind p) :=
  ⟨rfl, rfl, rfl, rfl, fun _ hne => Function.update_of_ne hne _ _, fun other _ => by cases other <;> rfl,
    .inl rfl⟩

theorem touches_record (p : Poll) (he : e.About kind) : Touches kind s ((s.record e).withPoll kind p) :=
  ⟨rfl, rfl, rfl, rfl, fun _ hne => Function.update_of_ne hne _ _, fun other _ => by cases other <;> rfl,
    .inr ⟨e, he, rfl⟩⟩

theorem withPoll_self (p : Poll) : (s.withPoll kind p).polls kind = p :=
  Function.update_self _ _ _

theorem Inv.consume (h : s.Inv) (htask : (s.polls kind).task = some (.done a r)) :
    (s.consume kind a r).Inv := by
  have hpoll : ((s.consume kind a r).polls kind).task = none := by
    rw [Service.consume, accept_polls, withPoll_self]
  have hlog : (s.consume kind a r).log = .consumed kind (s.polls kind).deadline a r :: s.log :=
    accept_log
  refine h.touch (touches_record _ (.consumed _ _ _)).accept ?_ ?_ ?_ ?_
  · rw [hpoll, hlog]
    exact if_pos rfl
  · intro b result hdone
    rw [hpoll] at hdone
    cases hdone
  · intro _ hsome
    rw [hpoll] at hsome
    cases hsome
  · intro hvalid
    refine ⟨⟨(s.polls kind).deadline, a, r⟩, ?_, ?_⟩
    · rw [hlog]
      exact if_pos rfl
    · rw [Service.consume, accept_valid, Option.any_eq_true] at hvalid
      obtain ⟨v, hv, hgood⟩ := hvalid
      split at hv
      · cases hv
      · next hlate =>
        rw [not_or, not_le] at hlate
        cases r with
        | error message => cases hv
        | ok value =>
          obtain rfl := Option.some.inj hv
          exact ⟨lt_of_le_of_lt (h.arrived kind a _ htask) hlate.2, value, rfl, hgood⟩

theorem expire_valid : (s.expire kind).valid kind = false :=
  accept_valid

theorem Inv.expire (h : s.Inv) : (s.expire kind).Inv := by
  have hpoll : (s.expire kind).polls kind = { s.polls kind with expired := true } := by
    rw [Service.expire, accept_polls, withPoll_self]
  have hlog : (s.expire kind).log = s.log := accept_log
  refine h.touch (touches_withPoll _).accept ?_ ?_ ?_ ?_
  · rw [hpoll, hlog]
    exact h.asked kind
  · rw [hpoll]
    intro b result hdone
    exact (h.arrived kind b result hdone).trans_eq (touches_withPoll _).accept.clock.symm
  · intro hvalid
    rw [expire_valid] at hvalid
    cases hvalid
  · intro hvalid
    rw [expire_valid] at hvalid
    cases hvalid

/-- A request is made, or nothing changes. -/
theorem ask_cases : s.ask kind = s ∨ (s.polls kind).task = none ∧
    s.ask kind = (s.record (.asked kind (s.clock + kind.timeout))).withPoll kind
      ⟨some .running, (s.polls kind).next, s.clock + kind.timeout, false⟩ := by
  rw [ask]
  split
  · next hask => exact .inr ⟨Option.isNone_iff_eq_none.mp hask.2.1, rfl⟩
  · exact .inl rfl

theorem Inv.ask (h : s.Inv) : (s.ask kind).Inv := by
  obtain heq | ⟨hnone, heq⟩ := @ask_cases s kind
  · rw [heq]
    exact h
  · have hpoll : (s.ask kind).polls kind =
        ⟨some .running, (s.polls kind).next, s.clock + kind.timeout, false⟩ := by
      rw [heq, withPoll_self]
    have hvalid : (s.ask kind).valid kind = s.valid kind := by
      rw [heq]
      cases kind <;> rfl
    have hlog : (s.ask kind).log = .asked kind (s.clock + kind.timeout) :: s.log :=
      congrArg Service.log heq
    refine h.touch (heq ▸ touches_record _ (.asked _)) ?_ ?_ ?_ ?_
    · rw [hpoll, hlog]
      exact if_pos rfl
    · intro b result hdone
      rw [hpoll] at hdone
      cases hdone
    · intro _ _
      rw [hpoll]
    · rw [hvalid, hlog]
      exact h.sample kind

theorem timeout_pos (kind : Kind) : 0 < kind.timeout := by
  cases kind <;> norm_num [Kind.timeout]

theorem InTime.ask (h : s.InTime kind) : (s.ask kind).InTime kind := by
  obtain heq | ⟨hnone, heq⟩ := @ask_cases s kind
  · rw [heq]
    exact h
  · rw [heq]
    intro _ _
    rw [withPoll_self]
    exact lt_add_of_pos_right s.clock (timeout_pos kind)

theorem InTime.touch (h : s.InTime other) (ht : Touches kind s t) (hne : other ≠ kind) : t.InTime other := by
  intro hvalid hsome
  rw [ht.polls other hne] at hsome ⊢
  rw [ht.valid other hne] at hvalid
  rw [ht.clock]
  exact h hvalid hsome

theorem touches_ask : Touches kind s (s.ask kind) := by
  obtain heq | ⟨-, heq⟩ := @ask_cases s kind
  · rw [heq]
    exact ⟨rfl, rfl, rfl, rfl, fun _ _ => rfl, fun _ _ => rfl, .inl rfl⟩
  · exact heq ▸ touches_record _ (.asked _)

/-- After the pass over a poll its request is in time, if its flag is set. -/
theorem Inv.poll (h : s.Inv) : (s.poll kind).Inv ∧ (s.poll kind).InTime kind ∧
    ∀ other, other ≠ kind → s.InTime other → (s.poll kind).InTime other := by
  rw [Service.poll]
  split
  · next a r htask =>
    have hconsume := h.consume htask
    refine ⟨hconsume.ask, InTime.ask ?_, ?_⟩
    · intro _ hsome
      rw [Service.consume, accept_polls, withPoll_self] at hsome
      cases hsome
    · intro other hne hother
      exact (hother.touch (touches_record _ (.consumed _ _ _)).accept hne).touch touches_ask hne
  · next htask =>
    split
    · refine ⟨h.expire.ask, InTime.ask ?_, ?_⟩
      · intro hvalid
        rw [expire_valid] at hvalid
        cases hvalid
      · intro other hne hother
        exact (hother.touch (touches_withPoll _).accept hne).touch touches_ask hne
    · next hdue =>
      refine ⟨h.ask, InTime.ask ?_, fun other hne hother => hother.touch touches_ask hne⟩
      intro hvalid hsome
      have hlive := h.live kind hvalid hsome
      exact lt_of_not_ge fun hle => hdue ⟨hle, hlive⟩
  · next htask =>
    refine ⟨h.ask, InTime.ask ?_, fun other hne hother => hother.touch touches_ask hne⟩
    intro _ hsome
    rw [htask] at hsome
    cases hsome

theorem Inv.pollAll (h : s.Inv) : s.pollAll.Inv ∧ s.pollAll.InTime .session ∧ s.pollAll.InTime .health := by
  obtain ⟨h₁, hsession, -⟩ := @Inv.poll s .session h
  obtain ⟨h₂, hhealth, hkeep₂⟩ := @Inv.poll _ .health h₁
  obtain ⟨h₃, -, hkeep₃⟩ := @Inv.poll _ .network h₂
  refine ⟨h₃, hkeep₃ .session (by decide) (hkeep₂ .session (by decide) hsession), ?_⟩
  exact hkeep₃ .health (by decide) hhealth

end Requests

section Gate

variable {t : Service}

/-- A step that leaves the requests and the name as they are. -/
structure Keeps (s t : Service) : Prop where
  name : t.nameOwned = s.nameOwned
  polls : t.polls = s.polls
  clock : t.clock = s.clock
  valid : ∀ kind, t.valid kind = true → s.valid kind = true
  owned : owned t.log = owned s.log
  outstanding : ∀ kind, outstanding kind t.log = outstanding kind s.log
  lastConsumed : ∀ kind, lastConsumed kind t.log = lastConsumed kind s.log

theorem Keeps.trans {u : Service} (h : Keeps s t) (h' : Keeps t u) : Keeps s u where
  name := h'.name.trans h.name
  polls := h'.polls.trans h.polls
  clock := h'.clock.trans h.clock
  valid kind hvalid := h.valid kind (h'.valid kind hvalid)
  owned := h'.owned.trans h.owned
  outstanding kind := (h'.outstanding kind).trans (h.outstanding kind)
  lastConsumed kind := (h'.lastConsumed kind).trans (h.lastConsumed kind)

theorem Inv.keep (h : s.Inv) (hk : Keeps s t) (safety : unfinished t.log = t.safetyTask.isSome)
    (owed : owesStop t.log = true → t.stopPending = true)
    (opened : ∀ newer older now, t.log = newer ++ .opened now :: older → Safe now older) : t.Inv where
  name := by rw [hk.name, hk.owned, h.name]
  asked kind := by rw [hk.outstanding, hk.polls, h.asked]
  arrived := by
    rw [hk.polls, hk.clock]
    exact h.arrived
  live kind hvalid := by
    rw [hk.polls]
    exact h.live kind (hk.valid kind hvalid)
  sample kind hvalid := by
    rw [hk.lastConsumed]
    exact h.sample kind (hk.valid kind hvalid)
  safety := safety
  owed := owed
  opened := opened

theorem InTime.keep (h : s.InTime kind) (hk : Keeps s t) : t.InTime kind := by
  rw [InTime, hk.polls, hk.clock]
  exact fun hvalid => h (hk.valid kind hvalid)

/-- The gate may be opened in a state that permits it. -/
theorem Inv.safe (h : s.Inv) (hsession : s.InTime .session) (hhealth : s.InTime .health)
    (hpermitted : s.permitted = true) (hidle : s.safetyTask = none) (hstop : s.stopPending = false) :
    Safe s.clock s.log := by
  rw [permitted, Bool.and_eq_true, Bool.and_eq_true] at hpermitted
  obtain ⟨⟨hname, hs⟩, hh⟩ := hpermitted
  have hvalid : ∀ kind, kind ≠ .network → s.valid kind = true ∧ s.InTime kind := by
    intro kind hkind
    cases kind with
    | session => exact ⟨hs, hsession⟩
    | health => exact ⟨hh, hhealth⟩
    | network => exact absurd rfl hkind
  constructor
  · rw [← h.name, hname]
  · intro kind hkind
    exact h.sample kind (hvalid kind hkind).1
  · intro kind hkind deadline hdeadline
    rw [h.asked kind] at hdeadline
    obtain ⟨task, htask, rfl⟩ := Option.map_eq_some_iff.mp hdeadline
    exact (hvalid kind hkind).2 (hvalid kind hkind).1 (by rw [htask]; rfl)
  · rw [h.safety, hidle]
    rfl
  · cases howed : owesStop s.log with
    | false => rfl
    | true => exact absurd (h.owed howed) (by simp [hstop])

theorem collect_keeps : Keeps s s.collect := by
  rw [collect]
  split
  · exact ⟨rfl, rfl, rfl, fun kind => by cases kind <;> exact id, rfl, fun _ => rfl, fun _ => rfl⟩
  · exact ⟨rfl, rfl, rfl, fun kind => by cases kind <;> exact id, rfl, fun _ => rfl, fun _ => rfl⟩
  · exact ⟨rfl, rfl, rfl, fun _ => id, rfl, fun _ => rfl, fun _ => rfl⟩

theorem Inv.collect (h : s.Inv) : s.collect.Inv := by
  refine h.keep collect_keeps ?_ ?_ ?_
  · rw [Service.collect]
    split
    · rfl
    · rfl
    · exact h.safety
  · rw [Service.collect]
    split
    · exact h.owed
    · exact h.owed
    · exact h.owed
  · rw [Service.collect]
    split
    · exact opened_cons h.opened fun now hnow => by cases hnow
    · exact opened_cons h.opened fun now hnow => by cases hnow
    · exact h.opened

theorem Inv.observed (h : s.Inv) : s.observed.Inv ∧ s.observed.InTime .session ∧ s.observed.InTime .health := by
  obtain ⟨hpolled, hsession, hhealth⟩ := h.pollAll
  exact ⟨hpolled.collect, hsession.keep collect_keeps, hhealth.keep collect_keeps⟩

theorem Inv.unlock (h : s.Inv) (hsafe : Safe s.clock s.log) : s.unlock.Inv := by
  refine h.keep ⟨rfl, rfl, rfl, fun kind => by cases kind <;> exact id, rfl, fun _ => rfl, fun _ => rfl⟩
    h.safety h.owed ?_
  exact opened_cons h.opened fun now hnow => by cases hnow; exact hsafe

theorem Inv.autostart (h : s.Inv) : s.autostart.Inv := by
  rw [Service.autostart]
  split
  · split
    · refine h.keep ⟨rfl, rfl, rfl, fun kind hkind => ?_, rfl, fun _ => rfl, fun _ => rfl⟩ rfl h.owed ?_
      · cases kind with
        | session => exact hkind
        | health => exact hkind
        | network => cases hkind
      · exact opened_cons h.opened fun now hnow => by cases hnow
    · dsimp only
      split
      · exact h.keep ⟨rfl, rfl, rfl, fun kind => by cases kind <;> exact id, rfl, fun _ => rfl,
          fun _ => rfl⟩ h.safety h.owed h.opened
      · exact h.keep ⟨rfl, rfl, rfl, fun kind => by cases kind <;> exact id, rfl, fun _ => rfl,
          fun _ => rfl⟩ h.safety h.owed h.opened
  · exact h

theorem Inv.noted (h : s.Inv) : (s.record .interrupted).Inv :=
  h.keep ⟨rfl, rfl, rfl, fun kind => by cases kind <;> exact id, rfl, fun _ => rfl, fun _ => rfl⟩
    h.safety h.owed (opened_cons h.opened fun now hnow => by cases hnow)

theorem Inv.withdrawn (h : s.Inv) (hstop : s.stopPending = true) : (s.record .withdrawn).Inv :=
  h.keep ⟨rfl, rfl, rfl, fun kind => by cases kind <;> exact id, rfl, fun _ => rfl, fun _ => rfl⟩
    h.safety (fun _ => hstop) (opened_cons h.opened fun now hnow => by cases hnow)

theorem Inv.close (h : s.Inv) : s.close.Inv := by
  have hclosed : Inv { s with
      resumeAfterSession := (if s.interrupts then s.controller.desired else s.resumeAfterSession) &&
        s.healthValid
      stopPending := s.stopPending || s.wasPermitted || s.controller.desired
      controller := { s.controller with
        sessionUnlocked := false
        desired := false
        resumeAfterUnlock := false
        message := s.lockedMessage } } := by
    refine h.keep ⟨rfl, rfl, rfl, fun kind => by cases kind <;> exact id, rfl, fun _ => rfl, fun _ => rfl⟩
      h.safety ?_ h.opened
    intro howed
    simp [h.owed howed]
  rw [Service.close]
  dsimp only
  split
  · next hwanted =>
    refine Inv.withdrawn ?_ ?_
    · split
      · exact hclosed.noted
      · exact hclosed
    · have hstop : (s.stopPending || s.wasPermitted || s.controller.desired) = true := by
        rw [Bool.or_assoc, hwanted, Bool.or_true]
      split
      · exact hstop
      · exact hstop
  · split
    · exact hclosed.noted
    · exact hclosed

/-- What a tick decides in a state that permits the gate, or does not. -/
theorem Inv.decide (h : s.Inv) (hsession : s.InTime .session) (hhealth : s.InTime .health) : s.decide.Inv := by
  rw [Service.decide]
  split
  · next hpermitted =>
    split
    · next hfree =>
      have hidle := Option.isNone_iff_eq_none.mp hfree.1
      exact (h.unlock (h.safe hsession hhealth hpermitted hidle hfree.2)).autostart
    · exact h
  · exact h.close

theorem Inv.settle (h : s.Inv) (permitted : Bool) : (s.settle permitted).Inv := by
  have hkeeps : ∀ u : Service, u.nameOwned = s.nameOwned → u.polls = s.polls → u.clock = s.clock →
      u.sessionValid = s.sessionValid → u.healthValid = s.healthValid →
      (u.networkReady = true → s.networkReady = true) → u.log = s.log ∨ u.log = .issued .stop :: s.log →
      Keeps s u := by
    intro u hname hpolls hclock hsession hhealth hnetwork hlog
    refine ⟨hname, hpolls, hclock, ?_, ?_, ?_, ?_⟩
    · intro kind hkind
      cases kind with
      | session => exact hsession.symm.trans hkind
      | health => exact hhealth.symm.trans hkind
      | network => exact hnetwork hkind
    all_goals
      obtain hlog | hlog := hlog
      · simp only [hlog, implies_true]
      · simp only [hlog]
        first | rfl | exact fun _ => rfl
  have hnetwork : ((s.autostartPending || s.resumeAfterSession) && s.networkReady) = true →
      s.networkReady = true := fun hready => (Bool.and_eq_true_iff.mp hready).2
  rw [Service.settle]
  dsimp only
  split
  · refine h.keep (hkeeps _ rfl rfl rfl rfl rfl hnetwork (.inr rfl)) rfl ?_ ?_
    · intro howed
      cases howed
    · exact opened_cons h.opened fun now hnow => by cases hnow
  · exact h.keep (hkeeps _ rfl rfl rfl rfl rfl hnetwork (.inl rfl)) h.safety h.owed h.opened

theorem Inv.tick (h : s.Inv) : s.tick.Inv := by
  obtain ⟨hobserved, hsession, hhealth⟩ := h.observed
  exact (hobserved.decide hsession hhealth).settle _

theorem Gated.tick : s.tick.Gated := by
  have hsettle : ∀ (u : Service) (b : Bool), (u.settle b).controller = u.controller ∧
      (u.settle b).wasPermitted = b := by
    intro u b
    rw [settle]
    dsimp only
    split
    · exact ⟨rfl, rfl⟩
    · exact ⟨rfl, rfl⟩
  obtain ⟨hcontroller, hpermitted⟩ := hsettle s.observed.decide s.observed.permitted
  have hclosed : s.tick.wasPermitted = false → s.tick.controller = s.observed.close.controller := by
    intro hmissing
    have hnot : ¬ s.observed.permitted = true := by
      rw [← hpermitted]
      exact fun htrue => absurd (hmissing.symm.trans htrue) (by decide)
    refine hcontroller.trans ?_
    rw [Service.decide, if_neg hnot]
  have hflags : ∀ u : Service, u.close.controller.sessionUnlocked = false ∧
      u.close.controller.desired = false ∧ u.close.controller.resumeAfterUnlock = false := by
    intro u
    rw [close]
    dsimp only
    split
    · split
      · exact ⟨rfl, rfl, rfl⟩
      · exact ⟨rfl, rfl, rfl⟩
    · split
      · exact ⟨rfl, rfl, rfl⟩
      · exact ⟨rfl, rfl, rfl⟩
  constructor
  · intro hmissing
    rw [hclosed hmissing]
    exact (hflags _).1
  · intro hmissing
    rw [hclosed hmissing]
    exact (hflags _).2.1
  · intro hmissing
    rw [hclosed hmissing]
    exact (hflags _).2.2

end Gate

section Runs

variable {t : Service}

theorem Initial.inv (h : s.Initial) : s.Inv where
  name := by
    rw [h.owned, h.log]
    rfl
  asked kind := by
    rw [h.polls, h.log]
    rfl
  arrived kind a r hdone := by
    rw [h.polls] at hdone
    cases hdone
  live kind _ hsome := by
    rw [h.polls] at hsome
    cases hsome
  sample kind hvalid := by
    cases kind with
    | session => exact absurd (h.session.symm.trans hvalid) (by decide)
    | health => exact absurd (h.health.symm.trans hvalid) (by decide)
    | network => exact absurd (h.network.symm.trans hvalid) (by decide)
  safety := by
    rw [h.safety, h.log]
    rfl
  owed howed := by
    rw [h.log] at howed
    cases howed
  opened := by
    rw [h.log]
    exact opened_cons (fun newer older now heq => by simp at heq) fun now hnow => by cases hnow

theorem Initial.gated (h : s.Initial) : s.Gated :=
  ⟨fun _ => h.locked, fun _ => h.undesired, fun _ => h.unresumed⟩

theorem Inv.advance {clock : Rat} (h : s.Inv) (hclock : s.clock ≤ clock) : Inv { s with clock := clock } where
  name := h.name
  asked := h.asked
  arrived kind a r hdone := (h.arrived kind a r hdone).trans hclock
  live kind hvalid := h.live kind (by cases kind <;> exact hvalid)
  sample kind hvalid := h.sample kind (by cases kind <;> exact hvalid)
  safety := h.safety
  owed := h.owed
  opened := h.opened

theorem Inv.finish {result : Result} (h : s.Inv) (htask : (s.polls kind).task = some .running) :
    (s.withPoll kind { s.polls kind with task := some (.done s.clock result) }).Inv := by
  refine h.touch (touches_withPoll _) ?_ ?_ ?_ ?_
  · rw [withPoll_self]
    refine (h.asked kind).trans ?_
    rw [htask]
    rfl
  · intro a r hdone
    rw [withPoll_self] at hdone
    cases hdone
    exact le_refl s.clock
  · intro hvalid _
    rw [withPoll_self]
    exact h.live kind (by cases kind <;> exact hvalid) (by rw [htask]; rfl)
  · intro hvalid
    exact h.sample kind (by cases kind <;> exact hvalid)

theorem Inv.named {b shutting : Bool} (h : s.Inv) :
    Inv { s with shuttingDown := shutting, nameOwned := b, log := .named b :: s.log } where
  name := rfl
  asked := h.asked
  arrived := h.arrived
  live kind hvalid := h.live kind (by cases kind <;> exact hvalid)
  sample kind hvalid := h.sample kind (by cases kind <;> exact hvalid)
  safety := h.safety
  owed := h.owed
  opened := opened_cons h.opened fun now hnow => by cases hnow

/-- The controller changes, and what is to start by itself. -/
theorem Inv.commanded {autostart resume : Bool} (h : s.Inv) (c : Controller)
    (hlog : log = s.log ∨ log = .commanded :: s.log) :
    Inv { s with autostartPending := autostart, resumeAfterSession := resume, controller := c, log := log } := by
  obtain rfl | rfl := hlog
  · exact h.keep ⟨rfl, rfl, rfl, fun kind => by cases kind <;> exact id, rfl, fun _ => rfl, fun _ => rfl⟩
      h.safety h.owed h.opened
  · exact h.keep ⟨rfl, rfl, rfl, fun kind => by cases kind <;> exact id, rfl, fun _ => rfl, fun _ => rfl⟩
      h.safety h.owed (opened_cons h.opened fun now hnow => by cases hnow)

theorem Inv.takenBack (h : s.Inv) (plain : Bool) : (s.takesBack plain).Inv := by
  rw [takesBack]
  split
  · exact h.commanded s.controller (.inr rfl)
  · exact h

theorem Inv.invalidated (h : s.Inv) (plain : Bool) : (s.invalidates plain).Inv := by
  rw [invalidates]
  split
  · exact h.commanded _ (.inl rfl)
  · exact h

theorem Inv.step (h : s.Inv) {action : Action} (hstep : step s action = some t) : t.Inv := by
  cases action with
  | advance clock =>
    rw [Watch.step] at hstep
    split at hstep
    · next hclock =>
      cases hstep
      exact h.advance hclock
    · cases hstep
  | finish kind result =>
    rw [Watch.step] at hstep
    split at hstep
    · next htask =>
      cases hstep
      exact h.finish htask
    · cases hstep
  | finishSafety result =>
    rw [Watch.step] at hstep
    split at hstep
    · next verb htask =>
      cases hstep
      refine h.keep ⟨rfl, rfl, rfl, fun kind => by cases kind <;> exact id, rfl, fun _ => rfl,
        fun _ => rfl⟩ ?_ h.owed h.opened
      exact h.safety.trans (by rw [htask]; rfl)
    · cases hstep
  | nameAcquired =>
    rw [Watch.step] at hstep
    split at hstep
    · cases hstep
    · cases hstep
      exact h.named
  | nameLost =>
    cases hstep
    exact h.named
  | stop =>
    rw [Watch.step] at hstep
    split at hstep
    · cases hstep
    · cases hstep
      exact h.named
  | dispatch verb plain =>
    cases verb with
    | start =>
      rw [Watch.step] at hstep
      split at hstep
      · cases hstep
        exact h
      · cases hstep
        exact h.takenBack plain
    | stop =>
      cases hstep
      exact (h.takenBack plain).invalidated plain
  | restoreDefaults plain =>
    cases hstep
    exact (h.takenBack plain).invalidated plain
  | started =>
    rw [Watch.step] at hstep
    split at hstep
    · cases hstep
      exact h.commanded _ (.inl rfl)
    · cases hstep
  | controller c =>
    rw [Watch.step] at hstep
    split at hstep
    · cases hstep
      exact h.commanded c (.inl rfl)
    · cases hstep
  | tick =>
    rw [Watch.step] at hstep
    split at hstep
    · cases hstep
    · cases hstep
      exact h.tick

theorem Gated.takenBack (h : s.Gated) (plain : Bool) : (s.takesBack plain).Gated := by
  rw [takesBack]
  split
  · exact ⟨h.unlocked, h.desired, h.resume⟩
  · exact h

theorem Gated.invalidated (h : s.Gated) (plain : Bool) : (s.invalidates plain).Gated := by
  rw [invalidates]
  split
  · exact ⟨h.unlocked, fun _ => rfl, fun _ => rfl⟩
  · exact h

/-- Between two ticks nothing opens the gate or wants a stream behind it. -/
theorem Gated.step (h : s.Gated) {action : Action} (hstep : Watch.step s action = some t) : t.Gated := by
  cases action with
  | tick =>
    rw [Watch.step] at hstep
    split at hstep
    · cases hstep
    · cases hstep
      exact Gated.tick
  | dispatch verb plain =>
    cases verb with
    | start =>
      rw [Watch.step] at hstep
      split at hstep
      · cases hstep
        exact h
      · cases hstep
        exact h.takenBack plain
    | stop =>
      cases hstep
      exact (h.takenBack plain).invalidated plain
  | restoreDefaults plain =>
    cases hstep
    exact (h.takenBack plain).invalidated plain
  | nameLost =>
    cases hstep
    exact ⟨h.unlocked, h.desired, h.resume⟩
  | started =>
    rw [Watch.step] at hstep
    split at hstep
    · next hopen =>
      cases hstep
      exact ⟨h.unlocked, fun hmissing => absurd (hopen.1.symm.trans (h.unlocked hmissing)) (by decide),
        h.resume⟩
    · cases hstep
  | controller c =>
    rw [Watch.step] at hstep
    split at hstep
    · next hallowed =>
      cases hstep
      obtain ⟨hunlocked, -, hdesired, hresume⟩ := hallowed
      refine ⟨fun hmissing => hunlocked.trans (h.unlocked hmissing), fun hmissing => ?_, fun hmissing => ?_⟩
      · exact Bool.eq_false_iff.mpr fun htrue => absurd (h.desired hmissing) (by simp [hdesired htrue])
      · exact Bool.eq_false_iff.mpr fun htrue => absurd (h.resume hmissing) (by simp [hresume htrue])
    · cases hstep
  | _ =>
    rw [Watch.step] at hstep
    split at hstep
    · cases hstep
      try exact ⟨h.unlocked, h.desired, h.resume⟩
    · cases hstep
      try exact ⟨h.unlocked, h.desired, h.resume⟩

end Runs

end Service

section Safety

/-- In every run the gate is opened only when the history permits it, and a tick without
permission leaves it closed, with no stream wanted, until the next tick. -/
theorem supervision_fails_closed (initial : s.Initial) (run : watchSystem.Reaches System.Any s s') :
    (∀ newer older now, s'.log = newer ++ .opened now :: older → Safe now older) ∧ s'.Gated := by
  have hinv : s'.Inv := run.invariant (fun u a v hu _ hstep => hu.step hstep) initial.inv
  have hgated : s'.Gated := run.invariant (fun u a v hu _ hstep => hu.step hstep) initial.gated
  exact ⟨hinv.opened, hgated⟩

def sampleService (autostart : Bool) : Service where
  shuttingDown := false
  nameOwned := true
  startupMessage := false
  autostartPending := autostart
  resumeAfterSession := false
  sessionValid := false
  healthValid := false
  networkReady := false
  networkDeadline := none
  polls := fun _ => ⟨none, 0, 0, false⟩
  safetyTask := none
  wasPermitted := false
  stopPending := false
  controller := ⟨false, false, false, unknownHealth, "stopped", "Ready to connect", false, false, false⟩
  clock := 0
  log := [.named true]

theorem sampleService_initial (autostart : Bool) : (sampleService autostart).Initial :=
  ⟨rfl, rfl, rfl, rfl, rfl, rfl, fun _ => rfl, rfl, rfl, rfl, rfl, rfl, rfl, rfl⟩

def coolHealth : PyValue :=
  .dict [("temperature_c", .int 45), ("cpu_percent", .int 10), ("throttled_bits", .int 0)]

/-- An unlocked session, a healthy board, and a network that is ready. -/
def sampleActions : List Action :=
  [.tick, .finish .session (.ok (.bool true)), .finish .health (.ok coolHealth),
    .finish .network (.ok (.dict [("api_version", .int 1), ("recovery_available", .bool true),
      ("owner_present", .bool false), ("state", .str "idle")])), .advance (1 / 4), .tick]

theorem sampleActions_enabled : (watchSystem.exec (sampleService true) sampleActions).isSome = true := by
  decide +kernel

def sampleEnd : Service :=
  (watchSystem.exec (sampleService true) sampleActions).get sampleActions_enabled

theorem sampleEnd_reached : watchSystem.Reaches System.Any (sampleService true) sampleEnd :=
  System.reaches_of_exec (Option.some_get sampleActions_enabled).symm

theorem supervision_fails_closed_unlocked :
    sampleEnd.controller.sessionUnlocked = true ∧
      (∀ newer older now, sampleEnd.log = newer ++ .opened now :: older → Safe now older) ∧ sampleEnd.Gated :=
  ⟨by decide +kernel, supervision_fails_closed (sampleService_initial true) sampleEnd_reached⟩

end Safety

end HccastWired.Watch
