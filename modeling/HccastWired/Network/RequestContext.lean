import HccastWired.Network.ServiceInvariant

/-!
# Cancel events handed to requests

Which cancel event a request is handed, and when it is one that an earlier,
already answered `Release` of its sender has set.
-/

namespace HccastWired.Network

open Foundation

variable {v u : Service} {s : Sender}

/-- An answered `Release` of the sender has set the event of the context. -/
def Released (v : Service) (s : Sender) (c : Nat) : Prop :=
  ∃ t ∈ v.answered, t.sender = s ∧ t.method = .release ∧
    (Event.request c, Cause.released t.id) ∈ v.causes

/-- The error that a call has ended with. -/
def World.failed (w : World) (id : Nat) : Option HelperError :=
  match w.calls id with
  | some (.finished (.error e)) => some e
  | _ => none

/-- An accepted request joins the context its sender has kept, or a new one. -/
theorem methodCall_cases {method : Method} {t : Ticket}
    (ht : (v.methodCall s method).tickets = t :: v.tickets) :
    (v.kept s = some t.context ∧ v.methodCall s method = v.submit s method t.context) ∨
      (v.kept s = none ∧ t.context = v.nextContext ∧
        v.methodCall s method = (v.newContext s).submit s method v.nextContext) := by
  unfold Service.methodCall at ht ⊢
  split at ht
  · exact absurd (congrArg List.length ht) (by simp)
  next hfree =>
  rw [if_neg hfree]
  split at ht
  · next c hk =>
    obtain rfl := (List.cons.inj ht).1
    exact Or.inl ⟨hk, rfl⟩
  · next hk =>
    obtain rfl := (List.cons.inj ht).1
    exact Or.inr ⟨hk, rfl, rfl⟩

/-- A release that has set the lease's event is not answered while the lease stands. -/
theorem lease_not_released (hinv : ServiceInv v) {c : Nat} {o : Sender}
    (howner : v.helper.owner = some o) (hcancel : v.helper.cancel = .request c) :
    ¬ Released v s c := by
  rintro ⟨t, ht, -, -, hm⟩
  rw [← hcancel] at hm
  obtain ⟨pc, hpc, hreleasing⟩ := hinv.releasing o t.id howner hm
  have hfinished := (hinv.answered t ht).2.2 pc hpc
  cases pc with
  | finished outcome => cases hreleasing
  | _ => cases hfinished

/-- A context in use has a request in flight. -/
theorem inUse_ticket (hinv : ServiceInv v) {c : Nat} (hc : v.contexts.lookup s = some c)
    (hused : v.inUse c ≠ 0) : ∃ q ∈ v.tickets, q.sender = s ∧ q.context = c := by
  rw [hinv.counted] at hused
  obtain ⟨q, hq, hqc⟩ := List.countP_pos_iff.mp (Nat.pos_of_ne_zero hused)
  have hqc : q.context = c := of_decide_eq_true hqc
  refine ⟨q, hq, ?_, hqc⟩
  have hheld := hinv.held q hq
  rw [hqc] at hheld
  exact hinv.single q.sender s c hheld hc

/-- Which event a kept context hands out. -/
theorem kept_released (hinv : ServiceInv v) {c : Nat} (hk : v.kept s = some c) :
    ¬ Released v s c ↔ ∀ q ∈ v.tickets, q.sender = s → ¬ Released v s q.context := by
  obtain ⟨hc, hused⟩ := kept_some hk
  constructor
  · intro hnot q hq hqs
    have hheld := hinv.held q hq
    rw [hqs, hc] at hheld
    rw [← Option.some.inj hheld]
    exact hnot
  · intro hall hreleased
    have hset := hreleased
    obtain ⟨t, -, -, -, hm⟩ := hset
    rcases hused ((hinv.caused c).mpr ⟨_, hm⟩) with huse | howner
    · obtain ⟨q, hq, hqs, hqc⟩ := inUse_ticket hinv hc huse
      exact hall q hq hqs (hqc ▸ hreleased)
    · obtain ⟨c', hc', hcancel⟩ := hinv.lease s howner
      rw [hc] at hc'
      obtain rfl := Option.some.inj hc'
      exact lease_not_released hinv howner hcancel hreleased

theorem kept_unset (hinv : ServiceInv v) {c : Nat} (hk : v.kept s = some c) :
    v.helper.isSet (.request c) = false ↔
      (∀ q ∈ v.tickets, q.sender = s → v.helper.isSet (.request q.context) = false) ∧
      (v.helper.owner = some s → v.helper.isSet v.helper.cancel = false) := by
  obtain ⟨hc, hused⟩ := kept_some hk
  constructor
  · intro hunset
    constructor
    · intro q hq hqs
      have hheld := hinv.held q hq
      rw [hqs, hc] at hheld
      rw [← Option.some.inj hheld]
      exact hunset
    · intro howner
      obtain ⟨c', hc', hcancel⟩ := hinv.lease s howner
      rw [hc] at hc'
      obtain rfl := Option.some.inj hc'
      rw [hcancel]
      exact hunset
  · rintro ⟨hall, hlease⟩
    by_contra hset
    have hset : v.helper.isSet (.request c) = true := by simpa using hset
    rcases hused hset with huse | howner
    · obtain ⟨q, hq, hqs, hqc⟩ := inUse_ticket hinv hc huse
      have := hall q hq hqs
      rw [hqc, hset] at this
      cases this
    · obtain ⟨c', hc', hcancel⟩ := hinv.lease s howner
      rw [hc] at hc'
      obtain rfl := Option.some.inj hc'
      have := hlease howner
      rw [hcancel, hset] at this
      cases this

/-- Two requests of one sender and its lease across one `Release`. -/
def statusAcrossRelease : List ServiceAction :=
  let client : Sender := ⟨":1.7", bus_seven⟩
  let snapshot : Snapshot := ⟨"wlan0", "p2p0", "wlan0", "p2p0", none, 30, true, []⟩
  [.resume 0 .go, .resume 0 (.available true), .main, .methodCall client .discover,
    .dispatch 1 true, .resume 1 .go, .resume 1 .go, .resume 1 (.snapshot snapshot),
    .resume 1 .saved, .resume 1 (.checkpoint "checkpoint"), .resume 1 .saved, .resume 1 .done,
    .resume 1 (.peers [] fun _ => ""), .resume 1 .saved, .reply 1, .methodCall client .status,
    .dispatch 2 true, .methodCall client .release, .dispatch 3 true, .resume 3 .go,
    .resume 3 .go, .resume 3 .go, .resume 3 (.restored [] none), .resume 3 .saved, .reply 3]

/-- A discovery sent after the reply to `Release` is rejected because of that
release, as long as the earlier `Status` has not been answered. -/
theorem discover_cancelled_after_release :
    ∃ v u, serviceSystem.exec (Service.create none 0 []) statusAcrossRelease = some v ∧
      (∃ t ∈ v.answered, t.sender.1 = ":1.7" ∧ t.method = .release ∧ t.id = 3) ∧
      v.vanished ⟨":1.7", bus_seven⟩ = false ∧ v.stopping = false ∧
      serviceSystem.exec v [.methodCall ⟨":1.7", bus_seven⟩ .discover, .dispatch 4 true,
        .resume 4 .go, .resume 4 .go] = some u ∧
      u.helper.failed 4 =
        some ⟨"Cancelled", "Caller disconnected before the operation began"⟩ ∧
      (Event.request 0, Cause.released 3) ∈ u.causes := by
  have hexec : (serviceSystem.exec (Service.create none 0 []) statusAcrossRelease).any (fun v =>
      (v.answered.any fun t => t.sender.1 = ":1.7" ∧ t.method = .release ∧ t.id = 3) ∧
        v.vanished ⟨":1.7", bus_seven⟩ = false ∧ v.stopping = false ∧
        (serviceSystem.exec v [.methodCall ⟨":1.7", bus_seven⟩ .discover, .dispatch 4 true,
          .resume 4 .go, .resume 4 .go]).any (fun u =>
            u.helper.failed 4 =
              some ⟨"Cancelled", "Caller disconnected before the operation began"⟩ ∧
            (Event.request 0, Cause.released 3) ∈ u.causes)) = true := by decide +kernel
  obtain ⟨v, hv, hall⟩ := (Option.any_eq_true ..).mp hexec
  obtain ⟨hanswered, hopen, hrunning, hnext⟩ := of_decide_eq_true hall
  obtain ⟨t, ht, hmatch⟩ := List.any_eq_true.mp hanswered
  obtain ⟨u, hu, hcancelled⟩ := (Option.any_eq_true ..).mp hnext
  obtain ⟨hcall, hcause⟩ := of_decide_eq_true hcancelled
  exact ⟨v, u, hv, ⟨t, ht, of_decide_eq_true hmatch⟩, hopen, hrunning, hu, hcall, hcause⟩

/-- The event handed to a request is not one that an answered `Release` of its
sender has set, exactly when no request in flight has been handed one; and it
is unset exactly when no request in flight and no lease of the sender is
cancelled. -/
theorem request_context {journal : Option Record} {now : Time} {log : List LogEvent}
    {method : Method} {t : Ticket}
    (run : serviceSystem.Reaches System.Any (Service.create journal now log) v)
    (hv : serviceSystem.step v (.methodCall s method) = some u) (ht : u.tickets = t :: v.tickets) :
    (¬ Released u s t.context ↔ ∀ q ∈ v.tickets, q.sender = s → ¬ Released v s q.context) ∧
    (u.helper.isSet (.request t.context) = false ↔
      (∀ q ∈ v.tickets, q.sender = s → v.helper.isSet (.request q.context) = false) ∧
      (v.helper.owner = some s → v.helper.isSet v.helper.cancel = false)) := by
  have hinv := service_reaches_inv run
  have hu : u = v.methodCall s method := by
    simp only [serviceSystem, Service.step] at hv
    split at hv <;> cases hv
    rfl
  subst hu
  rcases methodCall_cases ht with ⟨hk, hsubmit⟩ | ⟨hk, hcontext, hsubmit⟩
  · rw [hsubmit]
    exact ⟨kept_released hinv hk, kept_unset hinv hk⟩
  · obtain ⟨hnone, howner⟩ := kept_none hinv hk
    rw [hsubmit, hcontext]
    constructor
    · constructor
      · intro _ q hq hqs
        exact absurd hqs (hnone q hq)
      · rintro - ⟨t', -, -, -, hm⟩
        exact absurd (hinv.known _ _ hm) (Nat.lt_irrefl _)
    · constructor
      · intro _
        exact ⟨fun q hq hqs => absurd hqs (hnone q hq), fun ho => absurd ho howner⟩
      · intro _
        show Function.update v.helper.isSet (.request v.nextContext) false _ = false
        rw [Function.update_self]

/-- Without the `Status` the next discovery gets a fresh event. -/
theorem request_context_answered :
    ∃ v u t, serviceSystem.exec (Service.create none 0 [])
        (statusAcrossRelease ++ [.refreshed 2 true, .reply 2]) = some v ∧
      serviceSystem.step v (.methodCall ⟨":1.7", bus_seven⟩ .discover) = some u ∧
      u.tickets = [t] ∧ (∃ r ∈ u.answered, r.method = .release) ∧
      ¬ Released u ⟨":1.7", bus_seven⟩ t.context ∧
      u.helper.isSet (.request t.context) = false := by
  have hexec : (serviceSystem.exec (Service.create none 0 [])
      (statusAcrossRelease ++ [.refreshed 2 true, .reply 2])).any (fun v =>
        v.tickets = [] ∧ v.helper.owner = none ∧
          (serviceSystem.step v (.methodCall ⟨":1.7", bus_seven⟩ .discover)).any (fun u =>
            u.tickets = [⟨4, ⟨":1.7", bus_seven⟩, .discover, 1, .queued⟩] ∧
              (u.answered.any fun r => r.method = .release))) = true := by decide +kernel
  obtain ⟨v, hv, hall⟩ := (Option.any_eq_true ..).mp hexec
  obtain ⟨hnone, howner, hnext⟩ := of_decide_eq_true hall
  obtain ⟨u, hu, hnext⟩ := (Option.any_eq_true ..).mp hnext
  obtain ⟨htickets, hanswered⟩ := of_decide_eq_true hnext
  obtain ⟨r, hr, hrelease⟩ := List.any_eq_true.mp hanswered
  obtain ⟨hreleased, hunset⟩ := request_context (System.reaches_of_exec hv) hu
    (htickets.trans (by rw [hnone]))
  refine ⟨v, u, _, hv, hu, htickets, ⟨r, hr, of_decide_eq_true hrelease⟩, ?_, ?_⟩
  · exact hreleased.mpr fun q hq => by simp [hnone] at hq
  · exact hunset.mpr ⟨fun q hq => by simp [hnone] at hq, fun ho => by simp [howner] at ho⟩

end HccastWired.Network
