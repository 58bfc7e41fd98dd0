import HccastWired.Network.Service

/-!
# Contexts and leases

The contexts count the requests that have not been answered, the lease is held
under the event of its owner's context, and a release that has set the lease's
event has not returned while the lease stands.
-/

namespace HccastWired.Network

open Foundation

variable {v u : Service} {w h : World} {id : Nat} {s : Sender}

/-- A release past its first section. -/
def Pc.isReleasing (owner : Sender) : Pc → Bool
  | .releaseLock s _ => s = owner
  | .releaseCheck s _ => s = owner
  | .restore (.release _ _) => true
  | .saveRestored _ (.release _ _) => true
  | _ => false

def Pc.isFinished : Pc → Bool
  | .finished _ => true
  | _ => false

/-- A worker has entered the helper for the request. -/
def Ticket.entered (t : Ticket) : Bool :=
  t.stage = .running && t.method ≠ .status

/-- The tickets, the contexts and the calls made so far. -/
structure Books (v : Service) : Prop where
  calls : ∀ i pc, v.helper.calls i = some pc → i < v.nextCall
  tickets : ∀ t ∈ v.tickets, t.id < v.nextCall
  distinct : v.tickets.Pairwise (·.id ≠ ·.id)
  idle : ∀ t ∈ v.tickets, t.entered = false → v.helper.calls t.id = none
  counted : ∀ c, v.inUse c = v.tickets.countP (·.context = c)
  older : ∀ s c, v.contexts.lookup s = some c → c < v.nextContext
  held : ∀ t ∈ v.tickets, v.contexts.lookup t.sender = some t.context
  single : ∀ s s' c, v.contexts.lookup s = some c → v.contexts.lookup s' = some c → s = s'
  answered : ∀ t ∈ v.answered, t.id < v.nextCall ∧ (∀ t' ∈ v.tickets, t'.id ≠ t.id) ∧
    ∀ pc, v.helper.calls t.id = some pc → pc.isFinished = true

/-- The lease, the discoveries and what set the events. -/
structure Leases (v : Service) : Prop where
  lease : ∀ s, v.helper.owner = some s →
    ∃ c, v.contexts.lookup s = some c ∧ v.helper.cancel = .request c
  discovers : ∀ i s rc, (v.helper.calls i = some (.enter (.discover s rc)) ∨
      v.helper.calls i = some (.entering (.discover s rc))) →
    ∃ t ∈ v.tickets, t.id = i ∧ t.sender = s ∧ rc = some (.request t.context)
  current : ∀ c, v.helper.cancel = .request c → c < v.nextContext
  caused : ∀ c, v.helper.isSet (.request c) = true ↔ ∃ cause, (.request c, cause) ∈ v.causes
  known : ∀ c cause, (.request c, cause) ∈ v.causes → c < v.nextContext
  releasing : ∀ o r, v.helper.owner = some o → (v.helper.cancel, .released r) ∈ v.causes →
    ∃ pc, v.helper.calls r = some pc ∧ pc.isReleasing o = true

structure ServiceInv (v : Service) : Prop extends Books v, Leases v

section Helper

theorem finishRestore_owner (errors : List String) (k : After) :
    (w.finishRestore id errors k).owner = none := by
  unfold World.finishRestore
  cases k with
  | failure s e => cases e <;> rfl
  | _ => rfl

theorem beginRestore_cases (k : After) :
    (w.beginRestore id k).owner = none ∨ (w.beginRestore id k).calls id = some (.restore k) := by
  simp only [World.beginRestore]
  split
  · right
    simp [World.goto, World.note]
  · left
    exact finishRestore_owner _ _

theorem saveRestored_owner {errors : List String} {k : After} {reply : Reply}
    (hv : w.resume id (.saveRestored errors k) reply = some h) : h.owner = none := by
  simp only [World.resume, World.journaled] at hv
  split at hv
  · cases hv
    exact finishRestore_owner _ _
  · cases hv
    exact finishRestore_owner _ _
  · cases hv
    exact finishRestore_owner _ _
  · cases hv

theorem restore_calls {k : After} {reply : Reply} (hv : w.resume id (.restore k) reply = some h) :
    ∃ errors, h.calls id = some (.saveRestored errors k) := by
  cases reply with
  | restored errors group =>
      cases hv
      simp only [World.markRestored]
      split <;> exact ⟨errors, by simp [World.save, World.goto]⟩
  | restoreRaised group =>
      cases hv
      exact ⟨["restoration-failed"], by simp [World.markRestored, World.save, World.goto]⟩
  | _ => cases hv

/-- A release goes on until the lease has ended. -/
theorem releasing_resume {o : Sender} {pc : Pc} {reply : Reply} (hpc : pc.isReleasing o = true)
    (howner : w.owner = some o) (hv : w.resume id pc reply = some h) :
    h.owner = none ∨ ∃ pc', h.calls id = some pc' ∧ pc'.isReleasing o = true := by
  cases pc with
  | releaseLock s origin =>
      cases reply with
      | go =>
          simp only [World.resume, World.acquire] at hv
          split at hv <;> cases hv
          exact Or.inr ⟨.releaseCheck s origin, by simp [World.goto], hpc⟩
      | _ => cases hv
  | releaseCheck s origin =>
      have hs : s = o := by simpa [Pc.isReleasing] using hpc
      cases reply with
      | go =>
          cases hv
          unfold World.releaseCheck
          rw [if_neg (by simp [howner, hs])]
          rcases @beginRestore_cases w id (.release s origin) with hnone | hcalls
          · exact Or.inl hnone
          · exact Or.inr ⟨_, hcalls, rfl⟩
      | _ => cases hv
  | restore k =>
      obtain ⟨errors, hcalls⟩ := restore_calls hv
      refine Or.inr ⟨_, hcalls, ?_⟩
      cases k with
      | release s origin => rfl
      | _ => cases hpc
  | saveRestored errors k => exact Or.inl (saveRestored_owner hv)
  | _ => cases hpc

/-- The first section of a release sets the event unless somebody else owns the lease. -/
theorem releases_cases {pc : Pc} {reply : Reply} (hcall : w.calls id = some pc)
    (hr : Service.releases w id = true) (hv : w.resume id pc reply = some h) :
    ∃ s origin, (∀ o, w.owner = some o → o = s) ∧ h.isSet = Function.update w.isSet w.cancel true ∧
      h.owner = w.owner ∧ h.cancel = w.cancel ∧ h.calls id = some (.releaseLock s origin) := by
  unfold Service.releases at hr
  rw [hcall] at hr
  split at hr
  · next s origin heq =>
    cases heq
    cases reply with
    | go =>
        cases hv
        have hfree : w.owner.any (· ≠ s) = false := by simpa using hr
        refine ⟨s, origin, fun o ho => ?_, ?_⟩
        · rw [ho] at hfree
          simpa using hfree
        · unfold World.releaseStart
          rw [hfree]
          exact ⟨rfl, rfl, rfl, by simp [World.goto]⟩
    | _ => cases hv
  · cases hr

theorem finished_resume {pc : Pc} {reply : Reply} (hpc : pc.isFinished = true)
    (hv : w.resume id pc reply = some h) : False := by
  cases pc with
  | finished outcome => cases reply <;> cases hv
  | _ => cases hpc

/-- Where the other calls are does not change. -/
theorem LeaseStep.other {pc : Pc} (hstep : LeaseStep w h id pc) {i : Nat} (hi : i ≠ id) :
    h.calls i = w.calls i := by
  rcases hstep.moved with (hsame | ⟨pc', -, hcalls⟩) | ⟨r, -, hcalls⟩
  · rw [hsame]
  · rw [hcalls, Function.update_of_ne hi]
  · rw [hcalls, Function.update_of_ne hi]

end Helper

section Resume

/-- A step sets no event of a request but the lease's. -/
theorem LeaseEffect.events {pc : Pc} (h' : LeaseEffect w h pc)
    (hrc : ∀ s rc, pc = .entering (.discover s rc) → rc.isSome = true) (e : Event) :
    h.isSet e = w.isSet e ∨ (e = w.cancel ∧ h.isSet e = true) := by
  cases h' with
  | ends hcancel hset hnow hlease => exact Or.inl (by rw [hset])
  | renewed hunset howner hcancel hset hnow => exact Or.inl (by rw [hset])
  | cancelled hset hcancel hnow hlease =>
      rw [hset, Function.update_apply]
      split
      · next he => exact Or.inr ⟨he, rfl⟩
      · exact Or.inl rfl
  | acquired hunset hfree howner hcancel hset hnow =>
      exact Or.inl (by rw [hset (hrc _ _ rfl)])

theorem mem_caused {e : Event} {cause : Cause} (hm : (e, cause) ∈ Service.caused w h id) :
    e = w.cancel ∧ ((Service.releases w id = true ∧ cause = .released id) ∨
      (Service.releases w id = false ∧ cause = .expired id ∧ h.isSet w.cancel = true)) := by
  unfold Service.caused at hm
  split at hm
  · next hr =>
    simp only [List.mem_singleton, Prod.mk.injEq] at hm
    exact ⟨hm.1, Or.inl ⟨hr, hm.2⟩⟩
  next hr =>
  split at hm
  · next hset =>
    simp only [List.mem_singleton, Prod.mk.injEq] at hm
    have hset : h.isSet w.cancel = true := (Bool.and_eq_true_iff.mp hset).1
    exact ⟨hm.1, Or.inr ⟨by simpa using hr, hm.2, hset⟩⟩
  · cases hm

/-- The history has a cause for every event that is set. -/
theorem caused_iff {pc : Pc} {reply : Reply} (hcall : w.calls id = some pc)
    (hv : w.resume id pc reply = some h)
    (hrc : ∀ s rc, pc = .entering (.discover s rc) → rc.isSome = true) (e : Event) :
    h.isSet e = true ↔ w.isSet e = true ∨ ∃ cause, (e, cause) ∈ Service.caused w h id := by
  have hevents := (resume_lease hv).effect.events hrc e
  constructor
  · intro hset
    rcases hevents with hsame | ⟨rfl, -⟩
    · exact Or.inl (hsame ▸ hset)
    · cases hold : w.isSet w.cancel with
      | true => exact Or.inl rfl
      | false =>
          right
          unfold Service.caused
          split
          · exact ⟨_, List.mem_singleton.mpr rfl⟩
          · rw [if_pos (by simp [hset, hold])]
            exact ⟨_, List.mem_singleton.mpr rfl⟩
  · rintro (hold | ⟨cause, hm⟩)
    · rcases hevents with hsame | ⟨-, hset⟩
      · exact hsame.trans hold
      · exact hset
    · obtain ⟨rfl, ⟨hr, -⟩ | ⟨-, -, hset⟩⟩ := mem_caused hm
      · obtain ⟨s, origin, -, hset, -⟩ := releases_cases hcall hr hv
        rw [hset, Function.update_self]
      · exact hset

theorem books_resumed {pc : Pc} {reply : Reply} (hb : Books v)
    (hcall : v.helper.calls id = some pc) (hv : v.helper.resume id pc reply = some h) :
    Books (v.resumed id h) := by
  have hstep := resume_lease hv
  constructor
  · intro i pc' hi
    by_cases hid : i = id
    · rw [hid]
      exact hb.calls id pc hcall
    · exact hb.calls i pc' ((hstep.other hid).symm.trans hi)
  · exact hb.tickets
  · exact hb.distinct
  · intro t ht hnot
    have hnone := hb.idle t ht hnot
    by_cases hid : t.id = id
    · rw [hid, hcall] at hnone
      cases hnone
    · exact (hstep.other hid).trans hnone
  · exact hb.counted
  · exact hb.older
  · exact hb.held
  · exact hb.single
  · intro t ht
    obtain ⟨hlt, hne, hfin⟩ := hb.answered t ht
    refine ⟨hlt, hne, fun pc' hpc' => ?_⟩
    by_cases hid : t.id = id
    · exact (finished_resume (hfin pc (hid ▸ hcall)) hv).elim
    · exact hfin pc' ((hstep.other hid).symm.trans hpc')

/-- The lease after a step is the old one, or one acquired for a discovery. -/
theorem leases_resumed {pc : Pc} {reply : Reply} (hb : Books v) (hl : Leases v)
    (hcall : v.helper.calls id = some pc) (hv : v.helper.resume id pc reply = some h) :
    Leases (v.resumed id h) := by
  have hstep := resume_lease hv
  have hrc : ∀ s rc, pc = .entering (.discover s rc) →
      ∃ t ∈ v.tickets, t.id = id ∧ t.sender = s ∧ rc = some (.request t.context) :=
    fun s rc hpc => hl.discovers id s rc (Or.inr (hpc ▸ hcall))
  have hiff := caused_iff hcall hv fun s rc hpc => by
    obtain ⟨t, -, -, -, rfl⟩ := hrc s rc hpc
    rfl
  -- the owner is the old one, or a discovery has acquired the lease
  have howned : ∀ o, h.owner = some o → (v.helper.owner = some o ∧ h.cancel = v.helper.cancel) ∨
      ∃ t ∈ v.tickets, t.sender = o ∧ h.cancel = .request t.context ∧
        v.helper.isSet (.request t.context) = false ∧ Service.releases v.helper id = false := by
    intro o ho
    cases hstep.effect with
    | ends hcancel hset hnow hlease =>
        rcases hlease with ⟨howner, -⟩ | hnone
        · exact Or.inl ⟨howner.symm.trans ho, hcancel⟩
        · rw [hnone] at ho
          cases ho
    | renewed hunset howner hcancel hset hnow => exact Or.inl ⟨howner.symm.trans ho, hcancel⟩
    | cancelled hset hcancel hnow hlease =>
        rcases hlease with ⟨howner, -⟩ | hnone
        · exact Or.inl ⟨howner.symm.trans ho, hcancel⟩
        · rw [hnone] at ho
          cases ho
    | acquired hunset hfree howner hcancel hset hnow =>
        obtain ⟨t, ht, -, hsender, rfl⟩ := hrc _ _ rfl
        rw [howner] at ho
        refine Or.inr ⟨t, ht, hsender.trans (Option.some.inj ho), hcancel, by simpa using hunset, ?_⟩
        simp [Service.releases, hcall]
  constructor
  · intro o ho
    rcases howned o ho with ⟨howner, hcancel⟩ | ⟨t, ht, hsender, hcancel, -⟩
    · obtain ⟨c, hc, hold⟩ := hl.lease o howner
      exact ⟨c, hc, hcancel.trans hold⟩
    · exact ⟨t.context, hsender ▸ hb.held t ht, hcancel⟩
  · intro i s rc hi
    by_cases hid : i = id
    · subst hid
      rcases hstep.moved with (hsame | ⟨pc', hpc', hcalls⟩) | ⟨r, hpc, hcalls⟩
      · exact hl.discovers i s rc (by rw [← hsame]; exact hi)
      · have hi : h.calls i = some (.enter (.discover s rc)) ∨
            h.calls i = some (.entering (.discover s rc)) := hi
        rw [hcalls, Function.update_self] at hi
        rcases hi with hi | hi <;> cases hi <;> cases hpc'
      · have hi : h.calls i = some (.enter (.discover s rc)) ∨
            h.calls i = some (.entering (.discover s rc)) := hi
        rw [hcalls, Function.update_self] at hi
        rcases hi with hi | hi
        · cases hi
        · cases hi
          exact hl.discovers i s rc (Or.inl (hpc ▸ hcall))
    · have hi : h.calls i = some (.enter (.discover s rc)) ∨
          h.calls i = some (.entering (.discover s rc)) := hi
      rw [hstep.other hid] at hi
      exact hl.discovers i s rc hi
  · intro c hc
    have hc : h.cancel = .request c := hc
    cases hstep.effect with
    | ends hcancel hset hnow hlease => exact hl.current c (hcancel.symm.trans hc)
    | renewed hunset howner hcancel hset hnow => exact hl.current c (hcancel.symm.trans hc)
    | cancelled hset hcancel hnow hlease => exact hl.current c (hcancel.symm.trans hc)
    | acquired hunset hfree howner hcancel hset hnow =>
        obtain ⟨t, ht, -, -, rfl⟩ := hrc _ _ rfl
        have hsame : Event.request t.context = .request c := hcancel.symm.trans hc
        cases hsame
        exact hb.older t.sender _ (hb.held t ht)
  · intro c
    show h.isSet (.request c) = true ↔ ∃ cause, (Event.request c, cause) ∈
      Service.caused v.helper h id ++ v.causes
    rw [hiff, hl.caused c]
    simp only [List.mem_append]
    constructor
    · rintro (⟨cause, hm⟩ | ⟨cause, hm⟩)
      · exact ⟨cause, Or.inr hm⟩
      · exact ⟨cause, Or.inl hm⟩
    · rintro ⟨cause, hm | hm⟩
      · exact Or.inr ⟨cause, hm⟩
      · exact Or.inl ⟨cause, hm⟩
  · intro c cause hm
    rcases List.mem_append.mp hm with hm | hm
    · exact hl.current c (mem_caused hm).1.symm
    · exact hl.known c cause hm
  · intro o r ho hm
    have ho : h.owner = some o := ho
    have hm : (h.cancel, Cause.released r) ∈ Service.caused v.helper h id ++ v.causes := hm
    rcases howned o ho with ⟨howner, hcancel⟩ | ⟨t, ht, -, hcancel, hunset, hr⟩
    · rw [hcancel] at hm
      rcases List.mem_append.mp hm with hm | hm
      · obtain ⟨-, ⟨hr, hcause⟩ | ⟨-, hcause, -⟩⟩ := mem_caused hm
        · cases hcause
          obtain ⟨s, origin, hs, -, -, -, hcalls⟩ := releases_cases hcall hr hv
          exact ⟨_, hcalls, by simp [Pc.isReleasing, hs o howner]⟩
        · cases hcause
      · obtain ⟨pc', hpc', hreleasing⟩ := hl.releasing o r howner hm
        by_cases hid : r = id
        · subst hid
          obtain rfl := Option.some.inj (hcall.symm.trans hpc')
          rcases releasing_resume hreleasing howner hv with hnone | hgoes
          · exact absurd (hnone.symm.trans ho) (by simp)
          · exact hgoes
        · exact ⟨pc', (hstep.other hid).trans hpc', hreleasing⟩
    · rw [hcancel] at hm
      rcases List.mem_append.mp hm with hm | hm
      · obtain ⟨-, ⟨hr', -⟩ | ⟨-, hcause, -⟩⟩ := mem_caused hm
        · rw [hr] at hr'
          cases hr'
        · cases hcause
      · have := (hl.caused t.context).mpr ⟨_, hm⟩
        rw [hunset] at this
        cases this

end Resume

section Service

/-- Only the stages of the tickets and what no lease depends on have changed. -/
theorem inv_quiet (hinv : ServiceInv v) {f : Ticket → Ticket} (hid : ∀ t, (f t).id = t.id)
    (hsender : ∀ t, (f t).sender = t.sender) (hcontext : ∀ t, (f t).context = t.context)
    (hidle : ∀ t ∈ v.tickets, (f t).entered = false → v.helper.calls t.id = none)
    (htickets : u.tickets = v.tickets.map f) (hcalls : u.helper.calls = v.helper.calls)
    (howner : u.helper.owner = v.helper.owner) (hcancel : u.helper.cancel = v.helper.cancel)
    (hset : u.helper.isSet = v.helper.isSet) (hcontexts : u.contexts = v.contexts)
    (hinUse : u.inUse = v.inUse) (hnextContext : u.nextContext = v.nextContext)
    (hnextCall : u.nextCall = v.nextCall) (hanswered : u.answered = v.answered)
    (hcauses : u.causes = v.causes) : ServiceInv u := by
  have hmem : ∀ t ∈ u.tickets, ∃ t' ∈ v.tickets, t.id = t'.id ∧ t.sender = t'.sender ∧
      t.context = t'.context := by
    intro t ht
    rw [htickets] at ht
    obtain ⟨t', ht', rfl⟩ := List.mem_map.mp ht
    exact ⟨t', ht', hid t', hsender t', hcontext t'⟩
  constructor
  · constructor
    · rw [hcalls, hnextCall]
      exact hinv.calls
    · intro t ht
      obtain ⟨t', ht', hid', -⟩ := hmem t ht
      rw [hid', hnextCall]
      exact hinv.tickets t' ht'
    · rw [htickets, List.pairwise_map]
      simpa only [hid] using hinv.distinct
    · intro t ht hnot
      rw [htickets] at ht
      obtain ⟨t', ht', rfl⟩ := List.mem_map.mp ht
      rw [hcalls, hid]
      exact hidle t' ht' hnot
    · intro c
      rw [hinUse, hinv.counted c, htickets, List.countP_map]
      congr 1
      funext t
      simp [hcontext]
    · rw [hcontexts, hnextContext]
      exact hinv.older
    · intro t ht
      obtain ⟨t', ht', -, hsender', hcontext'⟩ := hmem t ht
      rw [hcontexts, hsender', hcontext']
      exact hinv.held t' ht'
    · rw [hcontexts]
      exact hinv.single
    · intro t ht
      obtain ⟨hlt, hne, hfin⟩ := hinv.answered t (hanswered ▸ ht)
      rw [hnextCall, hcalls]
      refine ⟨hlt, fun t' ht' => ?_, hfin⟩
      obtain ⟨t'', ht'', hid', -⟩ := hmem t' ht'
      rw [hid']
      exact hne t'' ht''
  · constructor
    · rw [howner, hcontexts, hcancel]
      exact hinv.lease
    · intro i s rc hi
      rw [hcalls] at hi
      obtain ⟨t, ht, hid', hsender', hrc⟩ := hinv.discovers i s rc hi
      refine ⟨f t, ?_, (hid t).trans hid', (hsender t).trans hsender', ?_⟩
      · rw [htickets]
        exact List.mem_map_of_mem ht
      · rw [hcontext]
        exact hrc
    · rw [hcancel, hnextContext]
      exact hinv.current
    · rw [hset, hcauses]
      exact hinv.caused
    · rw [hcauses, hnextContext]
      exact hinv.known
    · rw [howner, hcancel, hcauses, hcalls]
      exact hinv.releasing

/-- Nothing that the lease depends on has changed. -/
theorem inv_same (hinv : ServiceInv v) (htickets : u.tickets = v.tickets)
    (hhelper : u.helper = v.helper) (hcontexts : u.contexts = v.contexts)
    (hinUse : u.inUse = v.inUse) (hnextContext : u.nextContext = v.nextContext)
    (hnextCall : u.nextCall = v.nextCall) (hanswered : u.answered = v.answered)
    (hcauses : u.causes = v.causes) : ServiceInv u := by
  refine @inv_quiet v u hinv (fun t => t) (fun _ => rfl) (fun _ => rfl) (fun _ => rfl)
    hinv.idle ?_ ?_ ?_ ?_ ?_ hcontexts hinUse hnextContext hnextCall hanswered hcauses
  · rw [htickets, List.map_id']
  · rw [hhelper]
  · rw [hhelper]
  · rw [hhelper]
  · rw [hhelper]

theorem setStage_inv (hinv : ServiceInv v) {id : Nat} (hfree : v.helper.calls id = none)
    (stage : Stage) : ServiceInv (v.setStage id stage) := by
  refine @inv_quiet v _ hinv (fun t => if t.id = id then { t with stage := stage } else t) ?_ ?_ ?_ ?_
    rfl rfl rfl rfl rfl rfl rfl rfl rfl rfl rfl
  · intro t
    split <;> rfl
  · intro t
    split <;> rfl
  · intro t
    split <;> rfl
  · intro t ht hnot
    split at hnot
    · next hid =>
      rw [hid]
      exact hfree
    · exact hinv.idle t ht hnot

/-- Events of requests are set, with their causes, outside the helper. -/
theorem inv_events (hinv : ServiceInv v) {isSet : Event → Bool} {new : List (Event × Cause)}
    (hset : ∀ c, isSet (.request c) = true ↔
      v.helper.isSet (.request c) = true ∨ ∃ cause, (.request c, cause) ∈ new)
    (hknown : ∀ c cause, (.request c, cause) ∈ new → c < v.nextContext)
    (hnot : ∀ e r, (e, .released r) ∉ new) :
    ServiceInv { v with helper := { v.helper with isSet := isSet }, causes := new ++ v.causes } := by
  constructor
  · exact ⟨hinv.calls, hinv.tickets, hinv.distinct, hinv.idle, hinv.counted, hinv.older, hinv.held,
      hinv.single, hinv.answered⟩
  · constructor
    · exact hinv.lease
    · exact hinv.discovers
    · exact hinv.current
    · intro c
      show isSet (.request c) = true ↔ ∃ cause, (Event.request c, cause) ∈ new ++ v.causes
      rw [hset, hinv.caused c]
      simp only [List.mem_append]
      constructor
      · rintro (⟨cause, hm⟩ | ⟨cause, hm⟩)
        · exact ⟨cause, Or.inr hm⟩
        · exact ⟨cause, Or.inl hm⟩
      · rintro ⟨cause, hm | hm⟩
        · exact Or.inr ⟨cause, hm⟩
        · exact Or.inl ⟨cause, hm⟩
    · intro c cause hm
      rcases List.mem_append.mp hm with hm | hm
      · exact hknown c cause hm
      · exact hinv.known c cause hm
    · intro o r ho hm
      rcases List.mem_append.mp hm with hm | hm
      · exact absurd hm (hnot _ r)
      · exact hinv.releasing o r ho hm

/-- A call enters the helper. -/
theorem inv_call (hinv : ServiceInv v) {id n : Nat} {pc : Pc} (hfree : v.helper.calls id = none)
    (hid : id < n) (hn : v.nextCall ≤ n)
    (hticket : ∀ t ∈ v.tickets, t.entered = false → t.id ≠ id)
    (hanswered : ∀ t ∈ v.answered, t.id ≠ id)
    (hentry : ∀ s rc, pc = .enter (.discover s rc) ∨ pc = .entering (.discover s rc) →
      ∃ t ∈ v.tickets, t.id = id ∧ t.sender = s ∧ rc = some (.request t.context)) :
    ServiceInv { v with helper := v.helper.goto id pc, nextCall := n } := by
  have hold : ∀ i, i ≠ id → (v.helper.goto id pc).calls i = v.helper.calls i :=
    fun i hi => World.goto_calls_ne v.helper pc hi
  constructor
  · constructor
    · intro i pc' hi
      by_cases heq : i = id
      · rw [heq]
        exact hid
      · exact Nat.lt_of_lt_of_le (hinv.calls i pc' ((hold i heq).symm.trans hi)) hn
    · exact fun t ht => Nat.lt_of_lt_of_le (hinv.tickets t ht) hn
    · exact hinv.distinct
    · intro t ht hnot
      exact (hold t.id (hticket t ht hnot)).trans (hinv.idle t ht hnot)
    · exact hinv.counted
    · exact hinv.older
    · exact hinv.held
    · exact hinv.single
    · intro t ht
      obtain ⟨hlt, hne, hfin⟩ := hinv.answered t ht
      refine ⟨Nat.lt_of_lt_of_le hlt hn, hne, fun pc' hpc' => hfin pc' ?_⟩
      exact (hold t.id (hanswered t ht)).symm.trans hpc'
  · constructor
    · exact hinv.lease
    · intro i s rc hi
      by_cases heq : i = id
      · have hi : (v.helper.goto id pc).calls i = some (.enter (.discover s rc)) ∨
            (v.helper.goto id pc).calls i = some (.entering (.discover s rc)) := hi
        rw [heq, World.goto_calls_self] at hi
        obtain ⟨t, ht, htid, hrest⟩ := hentry s rc (hi.imp Option.some.inj Option.some.inj)
        exact ⟨t, ht, htid.trans heq.symm, hrest⟩
      · exact hinv.discovers i s rc (hi.imp (hold i heq).symm.trans (hold i heq).symm.trans)
    · exact hinv.current
    · exact hinv.caused
    · exact hinv.known
    · intro o r ho hm
      obtain ⟨pc', hpc', hreleasing⟩ := hinv.releasing o r ho hm
      by_cases heq : r = id
      · rw [heq, hfree] at hpc'
        cases hpc'
      · exact ⟨pc', (hold r heq).trans hpc', hreleasing⟩

/-- The service itself calls into the helper. -/
theorem inv_goto (hinv : ServiceInv v) {pc : Pc} (hpc : pc.isEntry = false) :
    ServiceInv { v with helper := v.helper.goto v.nextCall pc, nextCall := v.nextCall + 1 } := by
  refine inv_call hinv ?_ (Nat.lt_succ_self _) (Nat.le_succ _) (fun t ht _ => ?_) (fun t ht => ?_)
    fun s rc hentry => ?_
  · cases hcall : v.helper.calls v.nextCall with
    | none => rfl
    | some pc' => exact absurd (hinv.calls _ _ hcall) (Nat.lt_irrefl _)
  · exact Nat.ne_of_lt (hinv.tickets t ht)
  · exact Nat.ne_of_lt (hinv.answered t ht).1
  · rcases hentry with rfl | rfl <;> cases hpc

theorem cancelOwner_inv (hinv : ServiceInv v) (s : Sender) {cause : Cause}
    (hcause : ∀ r, cause ≠ .released r) : ServiceInv (v.cancelOwner s cause) := by
  unfold Service.cancelOwner World.cancelOwner
  split
  · next howner =>
    obtain ⟨c, hc, hcancel⟩ := hinv.lease s howner
    have hset := @inv_events v hinv (Function.update v.helper.isSet v.helper.cancel true)
      [(v.helper.cancel, cause)] (fun c' => by
        rw [Function.update_apply]
        split
        · next he => simp [he]
        · next he => simp [he]) (fun c' cause' hm => by
        simp only [List.mem_singleton, Prod.mk.injEq] at hm
        exact hinv.current c' hm.1.symm) (fun e r hm => by
        simp only [List.mem_singleton, Prod.mk.injEq] at hm
        exact hcause r hm.2.symm)
    exact inv_goto hset rfl
  · exact inv_goto hinv rfl

theorem kept_some {c : Nat} (hk : v.kept s = some c) : v.contexts.lookup s = some c ∧
    (v.helper.isSet (.request c) = true → v.inUse c ≠ 0 ∨ v.helper.owner = some s) := by
  obtain ⟨hc, htest⟩ := Option.filter_eq_some_iff.mp hk
  refine ⟨hc, fun hset => ?_⟩
  by_contra hnot
  obtain ⟨huse, howner⟩ := not_or.mp hnot
  simp [hset, not_not.mp huse, howner] at htest

/-- A sender without a usable context has neither a request nor the lease. -/
theorem kept_none (hinv : ServiceInv v) (hk : v.kept s = none) :
    (∀ t ∈ v.tickets, t.sender ≠ s) ∧ v.helper.owner ≠ some s := by
  have htest : ∀ c, v.contexts.lookup s = some c →
      v.inUse c = 0 ∧ v.helper.owner ≠ some s := by
    intro c hc
    have := Option.filter_eq_none_iff.mp hk c hc
    simp only [Bool.not_eq_true, Bool.not_eq_false', Bool.and_eq_true, beq_iff_eq, bne_iff_ne] at this
    exact ⟨this.1.2, this.2⟩
  constructor
  · intro t ht hs
    have hheld := hinv.held t ht
    rw [hs] at hheld
    have hzero := (htest _ hheld).1
    rw [hinv.counted, List.countP_eq_zero] at hzero
    exact hzero t ht (by simp)
  · intro howner
    obtain ⟨c, hc, -⟩ := hinv.lease s howner
    exact (htest c hc).2 howner

theorem newContext_inv (hinv : ServiceInv v) (hk : v.kept s = none) :
    ServiceInv (v.newContext s) := by
  obtain ⟨hnone, howner⟩ := kept_none hinv hk
  have hother : ∀ s', s' ≠ s → (v.newContext s).contexts.lookup s' = v.contexts.lookup s' :=
    fun s' hs => AList.lookup_insert_ne hs
  have hself : (v.newContext s).contexts.lookup s = some v.nextContext := AList.lookup_insert _
  have hcontext : ∀ t ∈ v.tickets, t.context < v.nextContext :=
    fun t ht => hinv.older t.sender _ (hinv.held t ht)
  constructor
  · constructor
    · exact hinv.calls
    · exact hinv.tickets
    · exact hinv.distinct
    · exact hinv.idle
    · intro c
      show Function.update v.inUse v.nextContext 0 c = _
      rw [Function.update_apply]
      split
      · next hc =>
        symm
        rw [List.countP_eq_zero]
        intro t ht heq
        have hlt := hcontext t ht
        rw [of_decide_eq_true heq, hc] at hlt
        exact Nat.lt_irrefl _ hlt
      · exact hinv.counted c
    · intro s' c hc
      show c < v.nextContext + 1
      by_cases hs : s' = s
      · rw [hs, hself] at hc
        obtain rfl := Option.some.inj hc
        omega
      · rw [hother s' hs] at hc
        have := hinv.older s' c hc
        omega
    · intro t ht
      rw [hother t.sender (hnone t ht)]
      exact hinv.held t ht
    · intro s₁ s₂ c h₁ h₂
      by_cases hs₁ : s₁ = s
      · by_cases hs₂ : s₂ = s
        · rw [hs₁, hs₂]
        · rw [hs₁, hself] at h₁
          obtain rfl := Option.some.inj h₁
          rw [hother s₂ hs₂] at h₂
          exact absurd (hinv.older s₂ _ h₂) (Nat.lt_irrefl _)
      · by_cases hs₂ : s₂ = s
        · rw [hs₂, hself] at h₂
          obtain rfl := Option.some.inj h₂
          rw [hother s₁ hs₁] at h₁
          exact absurd (hinv.older s₁ _ h₁) (Nat.lt_irrefl _)
        · rw [hother s₁ hs₁] at h₁
          rw [hother s₂ hs₂] at h₂
          exact hinv.single s₁ s₂ c h₁ h₂
    · exact hinv.answered
  · constructor
    · intro o ho
      have hos : o ≠ s := by
        rintro rfl
        exact howner ho
      rw [hother o hos]
      exact hinv.lease o ho
    · exact hinv.discovers
    · exact fun c hc => Nat.lt_succ_of_lt (hinv.current c hc)
    · intro c
      show Function.update v.helper.isSet (.request v.nextContext) false (.request c) = true ↔ _
      rw [Function.update_apply]
      split
      · next hc =>
        cases hc
        constructor
        · intro hf
          cases hf
        · rintro ⟨cause, hm⟩
          exact absurd (hinv.known _ cause hm) (Nat.lt_irrefl _)
      · exact hinv.caused c
    · exact fun c cause hm => Nat.lt_succ_of_lt (hinv.known c cause hm)
    · exact hinv.releasing

theorem submit_inv (hinv : ServiceInv v) {c : Nat} (method : Method)
    (hc : v.contexts.lookup s = some c) : ServiceInv (v.submit s method c) := by
  have hfree : v.helper.calls v.nextCall = none := by
    cases hcall : v.helper.calls v.nextCall with
    | none => rfl
    | some pc => exact absurd (hinv.calls _ _ hcall) (Nat.lt_irrefl _)
  constructor
  · constructor
    · exact fun i pc hi => Nat.lt_succ_of_lt (hinv.calls i pc hi)
    · intro t ht
      rcases List.mem_cons.mp ht with rfl | ht
      · exact Nat.lt_succ_self _
      · exact Nat.lt_succ_of_lt (hinv.tickets t ht)
    · refine List.pairwise_cons.mpr ⟨fun t ht => ?_, hinv.distinct⟩
      have := hinv.tickets t ht
      exact Nat.ne_of_gt this
    · intro t ht hnot
      rcases List.mem_cons.mp ht with rfl | ht
      · exact hfree
      · exact hinv.idle t ht hnot
    · intro c'
      show Function.update v.inUse c (v.inUse c + 1) c' = _
      rw [Function.update_apply]
      simp only [Service.submit, List.countP_cons]
      split
      · next hcc =>
        rw [hcc, hinv.counted c]
        simp
      · next hcc =>
        rw [hinv.counted c', if_neg (by simpa using Ne.symm hcc)]
        rfl
    · exact hinv.older
    · intro t ht
      rcases List.mem_cons.mp ht with rfl | ht
      · exact hc
      · exact hinv.held t ht
    · exact hinv.single
    · intro t ht
      obtain ⟨hlt, hne, hfin⟩ := hinv.answered t ht
      refine ⟨Nat.lt_succ_of_lt hlt, fun t' ht' => ?_, hfin⟩
      rcases List.mem_cons.mp ht' with rfl | ht'
      · exact Nat.ne_of_gt hlt
      · exact hne t' ht'
  · constructor
    · exact hinv.lease
    · intro i s' rc hi
      obtain ⟨t, ht, hrest⟩ := hinv.discovers i s' rc hi
      exact ⟨t, List.mem_cons_of_mem _ ht, hrest⟩
    · exact hinv.current
    · exact hinv.caused
    · exact hinv.known
    · exact hinv.releasing

theorem methodCall_inv (hinv : ServiceInv v) (s : Sender) (method : Method) :
    ServiceInv (v.methodCall s method) := by
  unfold Service.methodCall
  split
  · exact hinv
  split
  · next c hk => exact submit_inv hinv method (kept_some hk).1
  · next hk => exact submit_inv (newContext_inv hinv hk) method (AList.lookup_insert _)

/-- The ticket of a request that the pool runs. -/
theorem mem_of_find {t : Ticket} {id : Nat} (ht : v.tickets.find? (·.id = id) = some t) :
    t ∈ v.tickets ∧ t.id = id :=
  ⟨List.mem_of_find?_eq_some ht, by simpa using List.find?_some ht⟩

theorem ticket_unique (hinv : ServiceInv v) {t t' : Ticket} (ht : t ∈ v.tickets)
    (ht' : t' ∈ v.tickets) (hid : t'.id = t.id) : t' = t := by
  have hnodup : (v.tickets.map Ticket.id).Nodup := List.pairwise_map.mpr hinv.distinct
  exact List.inj_on_of_nodup_map hnodup ht' ht hid

theorem enter_inv (hinv : ServiceInv v) {t : Ticket} (ht : t ∈ v.tickets)
    (hstage : t.stage = .queued) (hmethod : t.method ≠ .status) {r : Request}
    (hr : ∀ s rc, r = .discover s rc → t.sender = s ∧ rc = some (.request t.context)) :
    ServiceInv (v.enter t.id r) := by
  have hfree : v.helper.calls t.id = none := hinv.idle t ht (by simp [Ticket.entered, hstage])
  have hrunning := setStage_inv hinv hfree .running
  have hmem : { t with stage := .running } ∈ (v.setStage t.id .running).tickets :=
    List.mem_map.mpr ⟨t, ht, by simp⟩
  refine @inv_call _ hrunning t.id v.nextCall (World.start r) hfree (hinv.tickets t ht)
    (Nat.le_refl _) (fun t' ht' hnot hid => ?_) (fun t' ht' => ?_) fun s rc hentry => ?_
  · obtain ⟨t'', ht'', rfl⟩ := List.mem_map.mp ht'
    have hid'' : t''.id = t.id := by
      split at hid <;> exact hid
    rw [ticket_unique hinv ht ht'' hid'', if_pos rfl] at hnot
    simp [Ticket.entered, hmethod] at hnot
  · exact ((hinv.answered t' ht').2.1 t ht).symm
  · refine ⟨_, hmem, rfl, ?_⟩
    cases r with
    | discover s' rc' =>
        rcases hentry with hentry | hentry
        · cases hentry
          exact hr s rc rfl
        · cases hentry
    | _ =>
        rcases hentry with hentry | hentry
        · cases hentry
        · cases hentry

theorem dispatch_inv (hinv : ServiceInv v) {t : Ticket} (ht : t ∈ v.tickets)
    (hstage : t.stage = .queued) (authorized : Bool) : ServiceInv (v.dispatch t authorized) := by
  have hfree : v.helper.calls t.id = none := hinv.idle t ht (by simp [Ticket.entered, hstage])
  unfold Service.dispatch
  split
  · exact setStage_inv hinv hfree _
  split
  · exact setStage_inv hinv hfree _
  · next hm =>
    refine enter_inv hinv ht hstage (by simp [hm]) fun s rc hr => ?_
    cases hr
    exact ⟨rfl, rfl⟩
  · next hm => exact enter_inv hinv ht hstage (by simp [hm]) (by simp)
  · next hm => exact enter_inv hinv ht hstage (by simp [hm]) (by simp)
  · next hm => exact enter_inv hinv ht hstage (by simp [hm]) (by simp)

theorem isDone_calls (hinv : ServiceInv v) {t : Ticket} (ht : t ∈ v.tickets)
    (hdone : v.isDone t = true) {pc : Pc} (hpc : v.helper.calls t.id = some pc) :
    pc.isFinished = true := by
  cases hentered : t.entered with
  | false =>
      have hnone := hinv.idle t ht hentered
      rw [hpc] at hnone
      cases hnone
  | true =>
      obtain ⟨hstage, -⟩ : t.stage = .running ∧ t.method ≠ .status := by
        simpa [Ticket.entered] using hentered
      have hfinished : v.helper.finished t.id = true := by
        simp [Service.isDone, hstage] at hdone
        exact hdone.2
      unfold World.finished at hfinished
      rw [hpc] at hfinished
      cases pc with
      | finished outcome => rfl
      | _ => cases hfinished

/-- Without the answered request its context counts one less. -/
theorem countP_answered {tickets : List Ticket} (hdistinct : tickets.Pairwise (·.id ≠ ·.id))
    {t : Ticket} (ht : t ∈ tickets) (c : Nat) :
    tickets.countP (·.context = c) = (tickets.filter (·.id ≠ t.id)).countP (·.context = c) +
      if t.context = c then 1 else 0 := by
  induction tickets with
  | nil => cases ht
  | cons t' rest ih =>
      obtain ⟨hne, hdistinct⟩ := List.pairwise_cons.mp hdistinct
      rcases List.mem_cons.mp ht with rfl | ht
      · have hrest : rest.filter (·.id ≠ t.id) = rest := by
          rw [List.filter_eq_self]
          intro t' ht'
          simpa using (hne t' ht').symm
        rw [List.filter_cons_of_neg (by simp), hrest, List.countP_cons]
        simp
      · have hid : t'.id ≠ t.id := hne t ht
        rw [List.filter_cons_of_pos (by simpa using hid), List.countP_cons, List.countP_cons,
          ih hdistinct ht]
        omega

theorem answer_inv (hinv : ServiceInv v) {t : Ticket} (ht : t ∈ v.tickets)
    (hdone : v.isDone t = true) : ServiceInv (v.answer t) := by
  have hmem : ∀ t' ∈ (v.answer t).tickets, t' ∈ v.tickets ∧ t'.id ≠ t.id := by
    intro t' ht'
    obtain ⟨hold, hne⟩ := List.mem_filter.mp ht'
    exact ⟨hold, by simpa using hne⟩
  have hcount := countP_answered hinv.distinct ht
  have hused : ∀ c, (v.answer t).inUse c = (v.answer t).tickets.countP (·.context = c) := by
    intro c
    show Function.update v.inUse t.context (v.inUse t.context - 1) c = _
    rw [Function.update_apply]
    split
    · next hc =>
      rw [hinv.counted, hcount, if_pos rfl, hc]
      rfl
    · next hc =>
      rw [hinv.counted, hcount, if_neg (Ne.symm hc)]
      rfl
  -- the context is dropped only for a sender without another request and without the lease
  have hlookup : ∀ s, (v.answer t).contexts.lookup s = v.contexts.lookup s ∨
      ((v.answer t).contexts.lookup s = none ∧ s = t.sender ∧ (v.answer t).inUse t.context = 0 ∧
        v.helper.owner ≠ some s) := by
    intro s
    by_cases hdrop : (v.answer t).inUse t.context = 0 ∧ v.helper.owner ≠ some t.sender ∧
        v.contexts.lookup t.sender = some t.context
    · have hcontexts : (v.answer t).contexts = v.contexts.erase t.sender := if_pos hdrop
      rw [hcontexts]
      by_cases hs : s = t.sender
      · rw [hs, AList.lookup_erase]
        exact Or.inr ⟨rfl, rfl, hdrop.1, hdrop.2.1⟩
      · rw [AList.lookup_erase_ne hs]
        exact Or.inl rfl
    · have hcontexts : (v.answer t).contexts = v.contexts := if_neg hdrop
      rw [hcontexts]
      exact Or.inl rfl
  have hkept : ∀ s c, (v.answer t).contexts.lookup s = some c → v.contexts.lookup s = some c := by
    intro s c hc
    rcases hlookup s with hsame | ⟨hnone, -⟩
    · exact hsame.symm.trans hc
    · rw [hnone] at hc
      cases hc
  constructor
  · constructor
    · exact hinv.calls
    · exact fun t' ht' => hinv.tickets t' (hmem t' ht').1
    · exact hinv.distinct.filter _
    · exact fun t' ht' => hinv.idle t' (hmem t' ht').1
    · exact hused
    · exact fun s c hc => hinv.older s c (hkept s c hc)
    · intro t' ht'
      have hold := hinv.held t' (hmem t' ht').1
      rcases hlookup t'.sender with hsame | ⟨-, hs, hzero, -⟩
      · exact hsame.trans hold
      · have hcontext : t'.context = t.context := by
          have hself := hinv.held t ht
          rw [← hs, hold] at hself
          exact Option.some.inj hself
        rw [hused, List.countP_eq_zero] at hzero
        exact absurd (decide_eq_true hcontext) (hzero t' ht')
    · exact fun s s' c h h' => hinv.single s s' c (hkept s c h) (hkept s' c h')
    · intro t' ht'
      rcases List.mem_cons.mp ht' with rfl | ht'
      · exact ⟨hinv.tickets _ ht, fun t'' ht'' => (hmem t'' ht'').2,
          fun pc hpc => isDone_calls hinv ht hdone hpc⟩
      · obtain ⟨hlt, hne, hfin⟩ := hinv.answered t' ht'
        exact ⟨hlt, fun t'' ht'' => hne t'' (hmem t'' ht'').1, hfin⟩
  · constructor
    · intro o ho
      obtain ⟨c, hc, hcancel⟩ := hinv.lease o ho
      rcases hlookup o with hsame | ⟨-, -, -, howner⟩
      · exact ⟨c, hsame.trans hc, hcancel⟩
      · exact absurd ho howner
    · intro i s rc hi
      obtain ⟨t', ht', hid, hrest⟩ := hinv.discovers i s rc hi
      refine ⟨t', List.mem_filter.mpr ⟨ht', ?_⟩, hid, hrest⟩
      have hne : t'.id ≠ t.id := by
        intro heq
        rcases hi with hi | hi
        · rw [← hid, heq] at hi
          cases isDone_calls hinv ht hdone hi
        · rw [← hid, heq] at hi
          cases isDone_calls hinv ht hdone hi
      simpa using hne
    · exact hinv.current
    · exact hinv.caused
    · exact hinv.known
    · exact hinv.releasing

theorem ownerVanished_inv (hinv : ServiceInv v) (s : Sender) : ServiceInv (v.ownerVanished s) := by
  have hnamed : ServiceInv { v with
      vanished := Function.update v.vanished s true, main := .vanished s } :=
    inv_same hinv rfl rfl rfl rfl rfl rfl rfl rfl
  unfold Service.ownerVanished
  dsimp only
  split
  · next c hc =>
    refine @inv_events _ hnamed _ [(.request c, .disconnected s)] (fun c' => ?_) (fun c' cause hm => ?_)
      fun e r hm => by simp at hm
    · rw [Function.update_apply]
      split
      · next he =>
        cases he
        simp
      · next he => simp [he]
    · simp only [List.mem_singleton, Prod.mk.injEq] at hm
      obtain rfl := Event.request.inj hm.1
      exact hinv.older s _ hc
  · exact hnamed

theorem stop_inv (hinv : ServiceInv v) : ServiceInv v.stop := by
  have hstopped : ServiceInv { v with stopping := true, main := .stopOwner } :=
    inv_same hinv rfl rfl rfl rfl rfl rfl rfl rfl
  unfold Service.stop
  split
  · exact hinv
  · refine @inv_events _ hstopped _ ((v.contexts.entries.map fun entry => Event.request entry.2).map
      (·, Cause.stopped)) (fun c => ?_) (fun c cause hm => ?_) fun e r hm => ?_
    · simp only [Bool.or_eq_true, decide_eq_true_eq, List.mem_map, Prod.mk.injEq]
      constructor
      · rintro (hm | hset)
        · exact Or.inr ⟨.stopped, _, hm, rfl, rfl⟩
        · exact Or.inl hset
      · rintro (hset | ⟨cause, e, hm, rfl, -⟩)
        · exact Or.inr hset
        · exact Or.inl hm
    · simp only [List.mem_map, Prod.mk.injEq] at hm
      obtain ⟨e, ⟨entry, hentry, rfl⟩, he, -⟩ := hm
      obtain rfl := Event.request.inj he
      exact hinv.older entry.1 entry.2 (AList.mem_lookup_iff.mpr hentry)
    · simp at hm

theorem cleanup_inv (hinv : ServiceInv v) (target : Option Sender) :
    ServiceInv (v.cleanup target) := by
  unfold Service.cleanup
  split
  · exact hinv
  · cases target with
    | some s =>
        have hpc : (Pc.releaseStart s .disconnect).isEntry = false := rfl
        exact inv_same (inv_goto hinv hpc) rfl rfl rfl rfl rfl rfl rfl rfl
    | none =>
        have hpc : Pc.expireStart.isEntry = false := rfl
        exact inv_same (inv_goto hinv hpc) rfl rfl rfl rfl rfl rfl rfl rfl

theorem mainStep_inv (hinv : ServiceInv v) {pc : MainPc} (hv : v.mainStep pc = some u) :
    ServiceInv u := by
  cases pc with
  | starting =>
      simp only [Service.mainStep] at hv
      split at hv <;> cases hv
      exact inv_same hinv rfl rfl rfl rfl rfl rfl rfl rfl
  | loop => cases hv
  | vanished s =>
      cases hv
      exact inv_same (cancelOwner_inv hinv s (by simp)) rfl rfl rfl rfl rfl rfl rfl rfl
  | cleaning target =>
      cases hv
      exact inv_same (cleanup_inv hinv target) rfl rfl rfl rfl rfl rfl rfl rfl
  | tickOwner =>
      cases hv
      exact inv_same hinv rfl rfl rfl rfl rfl rfl rfl rfl
  | tickCancel owner =>
      cases owner with
      | none =>
          cases hv
          exact inv_same hinv rfl rfl rfl rfl rfl rfl rfl rfl
      | some s =>
          cases hv
          exact inv_same (cancelOwner_inv hinv s (by simp)) rfl rfl rfl rfl rfl rfl rfl rfl
  | stopOwner =>
      cases hv
      exact inv_same hinv rfl rfl rfl rfl rfl rfl rfl rfl
  | stopCancel s =>
      cases hv
      exact inv_same (cancelOwner_inv hinv s (by simp)) rfl rfl rfl rfl rfl rfl rfl rfl
  | shutdown =>
      cases hv
      have hpc : Pc.recoverLock.isEntry = false := rfl
      exact inv_same (inv_goto hinv hpc) rfl rfl rfl rfl rfl rfl rfl rfl

/-- Every action of the service. -/
theorem service_step_inv {a : ServiceAction} (hinv : ServiceInv v) (hv : v.step a = some u) :
    ServiceInv u := by
  cases a with
  | methodCall s method =>
      simp only [Service.step] at hv
      split at hv <;> cases hv
      exact methodCall_inv hinv s method
  | dispatch id authorized =>
      obtain ⟨t, ht, hv⟩ := Option.bind_eq_some_iff.mp hv
      split at hv
      · next hstage =>
        cases hv
        exact dispatch_inv hinv (mem_of_find ht).1 hstage authorized
      · cases hv
  | refreshed id recovery =>
      obtain ⟨t, ht, hv⟩ := Option.bind_eq_some_iff.mp hv
      obtain ⟨hmem, hid⟩ := mem_of_find ht
      split at hv
      · next hstatus =>
        cases hv
        have hmethod : t.method = .status := by simp at hstatus; exact hstatus.2
        have hfree := hinv.idle t hmem (by simp [Ticket.entered, hmethod])
        rw [hid] at hfree
        have hquiet : ServiceInv { v with helper := { v.helper with recovery } } :=
          @inv_quiet v _ hinv (fun t => t) (fun _ => rfl) (fun _ => rfl) (fun _ => rfl) hinv.idle
            (List.map_id' _).symm rfl rfl rfl rfl rfl rfl rfl rfl rfl rfl
        exact setStage_inv hquiet hfree .done
      · cases hv
  | resume id reply =>
      obtain ⟨h, hh, rfl⟩ := Option.map_eq_some_iff.mp hv
      obtain ⟨pc, hcall, hh⟩ := Option.bind_eq_some_iff.mp hh
      exact ⟨books_resumed hinv.toBooks hcall hh,
        leases_resumed hinv.toBooks hinv.toLeases hcall hh⟩
  | reply id =>
      obtain ⟨t, ht, hv⟩ := Option.bind_eq_some_iff.mp hv
      split at hv
      · next hdone =>
        cases hv
        exact answer_inv hinv (mem_of_find ht).1 (by simp at hdone; exact hdone.2)
      · cases hv
  | ownerVanished s =>
      simp only [Service.step] at hv
      split at hv <;> cases hv
      exact ownerVanished_inv hinv s
  | tick =>
      simp only [Service.step] at hv
      split at hv <;> cases hv
      exact inv_same hinv rfl rfl rfl rfl rfl rfl rfl rfl
  | stop =>
      simp only [Service.step] at hv
      split at hv <;> cases hv
      exact stop_inv hinv
  | main => exact mainStep_inv hinv hv
  | cleaned =>
      obtain ⟨id, -, hv⟩ := Option.bind_eq_some_iff.mp hv
      split at hv <;> cases hv
      exact inv_same hinv rfl rfl rfl rfl rfl rfl rfl rfl
  | wait t =>
      obtain ⟨h, hh, rfl⟩ := Option.map_eq_some_iff.mp hv
      simp only [World.step] at hh
      split at hh <;> cases hh
      exact @inv_quiet v _ hinv (fun t => t) (fun _ => rfl) (fun _ => rfl) (fun _ => rfl) hinv.idle
        (List.map_id' _).symm rfl rfl rfl rfl rfl rfl rfl rfl rfl rfl

theorem service_create_inv (journal : Option Record) (now : Time) (log : List LogEvent) :
    ServiceInv (Service.create journal now log) := by
  have hcalls : ∀ i pc, (Service.create journal now log).helper.calls i = some pc →
      i = 0 ∧ pc = .recoverLock := by
    intro i pc hi
    have hi : Function.update (fun _ => none) 0 (some Pc.recoverLock) i = some pc := hi
    rw [Function.update_apply] at hi
    split at hi
    · next hzero => exact ⟨hzero, (Option.some.inj hi).symm⟩
    · cases hi
  constructor
  · constructor
    · intro i pc hi
      rw [(hcalls i pc hi).1]
      exact Nat.zero_lt_one
    · exact fun t ht => by cases ht
    · exact List.Pairwise.nil
    · exact fun t ht => by cases ht
    · exact fun c => rfl
    · exact fun s c hc => by cases hc
    · exact fun t ht => by cases ht
    · exact fun s s' c h => by cases h
    · exact fun t ht => by cases ht
  · constructor
    · exact fun s ho => by cases ho
    · intro i s rc hi
      rcases hi with hi | hi
      · cases (hcalls i _ hi).2
      · cases (hcalls i _ hi).2
    · exact fun c hc => by cases hc
    · intro c
      constructor
      · intro hset
        cases hset
      · rintro ⟨cause, hm⟩
        cases hm
    · exact fun c cause hm => by cases hm
    · exact fun o r ho => by cases ho

theorem service_reaches_inv {journal : Option Record} {now : Time} {log : List LogEvent}
    {ok : Service → ServiceAction → Prop}
    (run : serviceSystem.Reaches ok (Service.create journal now log) v) : ServiceInv v :=
  System.Reaches.invariant (P := ServiceInv)
    (fun _ _ _ hinv _ hv => service_step_inv hinv hv) run (service_create_inv _ _ _)

end Service

end HccastWired.Network
