import HccastWired.Network.Activation
import HccastWired.Network.Durability

/-!
# Lease exclusivity

The lease has one owner and the network one operation. What a call of a
non-owner can change, where a required restoration holds calls back, and where
a successful connection comes from are read off the invariant and off the one
program counter each step moves.
-/

namespace HccastWired.Network

open Foundation World

variable {w v : World} {id : Nat} {s : Sender}

/-- The client a call is issued by, or a cleanup is issued for. -/
def Request.sender : Request → Option Sender
  | .discover s _ => some s
  | .connect s _ => some s
  | .keepAlive s => some s
  | .cancelOwner s => some s
  | .release s _ => some s
  | .expire => none
  | .recover => none

def After.sender : After → Option Sender
  | .expired s => some s
  | .failure s _ => some s
  | .release s _ => some s
  | .recover => none

/-- The client on whose behalf a call runs. -/
def Pc.sender : Pc → Option Sender
  | .enter r => r.sender
  | .entering r => r.sender
  | .snapshot s _ => some s
  | .saveBaseline s _ => some s
  | .checkpointCreate s _ => some s
  | .saveCheckpoint s _ => some s
  | .prepare s _ => some s
  | .discover s _ => some s
  | .saveDiscovered s => some s
  | .resolvePeer s _ _ => some s
  | .recoveryAvailable s _ _ => some s
  | .checkpointExtend s _ _ => some s
  | .saveConnecting s _ _ => some s
  | .activate s _ _ => some s
  | .saveConnected s _ _ => some s
  | .extendLease s => some s
  | .restore k => k.sender
  | .saveRestored _ k => k.sender
  | .cancelOwner s => some s
  | .expireStart => none
  | .releaseStart s _ => some s
  | .releaseLock s _ => some s
  | .releaseCheck s _ => some s
  | .recoverLock => none
  | .recoverProbe _ => none
  | .finished _ => none

/-- The program counters between the admission of `discover`, `connect` or
`keep_alive` and their end or failure. -/
def Pc.inTransaction : Pc → Bool
  | .snapshot _ _ => true
  | .saveBaseline _ _ => true
  | .checkpointCreate _ _ => true
  | .saveCheckpoint _ _ => true
  | .prepare _ _ => true
  | .discover _ _ => true
  | .saveDiscovered _ => true
  | .resolvePeer _ _ _ => true
  | .recoveryAvailable _ _ _ => true
  | .checkpointExtend _ _ _ => true
  | .saveConnecting _ _ _ => true
  | .activate _ _ _ => true
  | .saveConnected _ _ _ => true
  | .extendLease _ => true
  | _ => false

/-- The program counters inside a backend call that changes the network or its checkpoint. -/
def Pc.mutates : Pc → Bool
  | .checkpointCreate _ _ => true
  | .prepare _ _ => true
  | .discover _ _ => true
  | .checkpointExtend _ _ _ => true
  | .activate _ _ _ => true
  | .extendLease _ => true
  | .restore _ => true
  | _ => false

theorem Pc.holds_of_mutates {pc : Pc} (h : pc.mutates = true) : pc.holds = true := by
  cases pc <;> first | rfl | cases h

theorem Pc.holds_of_inTransaction {pc : Pc} (h : pc.inTransaction = true) : pc.holds = true := by
  cases pc <;> first | rfl | cases h

/-- Whoever is inside a transaction owns the lease. -/
theorem At.transaction {pc : Pc} (h : At w pc) (hpc : pc.inTransaction = true) :
    w.owner = pc.sender ∧ w.state ≠ .restoreRequired := by
  cases pc with
  | snapshot s b => exact ⟨h.1, by simp [h.2.1]⟩
  | saveBaseline s b => exact ⟨h.1, by simp [h.2.1]⟩
  | checkpointCreate s b => exact ⟨h.owner, h.state⟩
  | saveCheckpoint s b => exact ⟨h.owner, h.state⟩
  | prepare s b => exact ⟨h.owner, h.state⟩
  | discover s b => exact ⟨h.owner, h.state⟩
  | saveDiscovered s => exact ⟨h.1.owner, h.1.state⟩
  | resolvePeer s candidate b => exact ⟨h.2.1.owner, h.2.1.state⟩
  | recoveryAvailable s peer b => exact ⟨h.2.1.owner, h.2.1.state⟩
  | checkpointExtend s peer b => exact ⟨h.2.1.owner, h.2.1.state⟩
  | saveConnecting s peer b => exact ⟨h.2.1.owner, h.2.1.state⟩
  | activate s peer b => exact ⟨h.2.1, h.2.2.2.1⟩
  | saveConnected s peer link => exact ⟨h.1, by simp [h.2.2.1]⟩
  | extendLease s =>
      obtain ⟨ho, hlease⟩ := h
      refine ⟨ho, fun hs => ?_⟩
      cases hlease with
      | idle h₁ _ _ => rw [h₁] at ho; cases ho
      | blocked h₁ _ _ _ => rw [h₁] at ho; cases ho
      | discovered _ h₂ _ _ _ _ => rw [h₂] at hs; cases hs
      | connected _ h₂ _ _ _ => rw [h₂] at hs; cases hs
  | _ => cases hpc

/-- A restoration on a client's behalf runs while nobody else owns the lease. -/
theorem After.owner_of_sender {k : After} {owner : Option Sender} (h : k.owner owner)
    (hs : k.sender = some s) {s' : Sender} (ho : owner = some s') : s' = s := by
  subst ho
  cases k with
  | expired s₀ => exact (Option.some.inj (h.trans hs.symm.symm) : s' = s)
  | failure s₀ e => exact (Option.some.inj (h.trans hs) : s' = s)
  | release s₀ origin =>
      rcases h with h | h
      · cases h
      · exact (Option.some.inj (h.trans hs) : s' = s)
  | recover => cases hs

/-- The backend works for the lease's owner, or restores while there is none. -/
theorem Inv.mutates_for (h : Inv w) {pc : Pc} (hcall : w.calls id = some pc)
    (hpc : pc.mutates = true) (hs : pc.sender = some s) {s' : Sender} (ho : w.owner = some s') :
    s' = s := by
  have hat := h.held id pc hcall (Pc.holds_of_mutates hpc)
  have owned : pc.inTransaction = true → s' = s := fun hin =>
    Option.some.inj (ho.symm.trans ((At.transaction hat hin).1.trans hs))
  cases pc with
  | restore k => exact After.owner_of_sender hat.1 hs ho
  | checkpointCreate s b => exact owned rfl
  | prepare s b => exact owned rfl
  | discover s b => exact owned rfl
  | checkpointExtend s peer b => exact owned rfl
  | activate s peer b => exact owned rfl
  | extendLease s => exact owned rfl
  | _ => cases hpc

/-- Nothing but the operation lock and the call itself has changed. -/
structure Untouched (w v : World) : Prop where
  owner : v.owner = w.owner
  deadline : v.deadline = w.deadline
  candidates : v.candidates = w.candidates
  record : v.record = w.record
  cancel : v.cancel = w.cancel
  isSet : v.isSet = w.isSet
  log : v.log = w.log

theorem Untouched.goto {pc : Pc} (operation : Option Nat) :
    Untouched w (({ w with operation } : World).goto id pc) :=
  ⟨rfl, rfl, rfl, rfl, rfl, rfl, rfl⟩

/-- Admission turns a non-owner away. -/
theorem enterLocked_untouched {acquire : Bool} {requestCancel : Option Event} {body : World → World}
    {s' : Sender} (ho : w.owner = some s') (hne : s' ≠ s) :
    Untouched w (w.enterLocked id s acquire requestCancel body) := by
  have hforeign : w.owner.any (· ≠ s) = true := by simp [ho, hne]
  unfold World.enterLocked
  split
  · exact Untouched.goto none
  · exact Untouched.goto none

/-- A step of a call for a non-owner leaves the lease alone. -/
theorem Inv.untouched {pc : Pc} {reply : Reply} (h : Inv w) (hcall : w.calls id = some pc)
    (hs : pc.sender = some s) {s' : Sender} (ho : w.owner = some s') (hne : s' ≠ s)
    (hv : w.step (.resume id reply) = some v) : Untouched w v := by
  have hforeign : w.owner.any (· ≠ s) = true := by simp [ho, hne]
  have outside : pc.inTransaction = false := by
    by_contra hin
    have hin : pc.inTransaction = true := by simpa using hin
    have hat := (h.held id pc hcall (Pc.holds_of_inTransaction hin)).transaction hin
    exact hne (Option.some.inj (ho.symm.trans (hat.1.trans hs)))
  have resting : ∀ k : After, k.owner w.owner → k.sender = some s → False :=
    fun k hk hks => hne (After.owner_of_sender hk hks ho)
  simp only [World.step, hcall, Option.bind_some] at hv
  cases pc with
  | enter r =>
      cases reply <;> try cases hv
      split
      · exact Untouched.goto _
      · exact Untouched.goto w.operation
  | entering r =>
      cases reply <;> try cases hv
      cases r <;> first
        | (obtain rfl := Option.some.inj hs
           obtain rfl := Option.some.inj hv
           exact enterLocked_untouched ho hne)
        | cases hv
  | restore k => exact (resting k (h.held id _ hcall rfl).1 hs).elim
  | saveRestored errors k => exact (resting k (h.held id _ hcall rfl).1 hs).elim
  | cancelOwner s₀ =>
      obtain rfl := Option.some.inj hs
      cases reply <;> try cases hv
      rw [World.cancelOwner, if_neg (by simp [ho, hne])]
      exact Untouched.goto w.operation
  | releaseStart s₀ origin =>
      obtain rfl := Option.some.inj hs
      cases reply <;> try cases hv
      rw [World.releaseStart, if_pos hforeign]
      exact Untouched.goto w.operation
  | releaseLock s₀ origin =>
      cases reply <;> try cases hv
      simp only [World.resume, World.acquire] at hv
      split at hv
      · obtain rfl := Option.some.inj hv
        exact Untouched.goto _
      · cases hv
  | releaseCheck s₀ origin =>
      obtain rfl := Option.some.inj hs
      cases reply <;> try cases hv
      rw [World.releaseCheck, if_pos hforeign]
      exact Untouched.goto none
  | finished outcome => cases hv
  | expireStart => cases hs
  | recoverLock => cases hs
  | recoverProbe result => cases hs
  | _ => cases outside

/-- No restoration succeeds. -/
def NoSuccess : World → Action → Prop
  | w, .resume i .saved => ∀ k, w.calls i ≠ some (.saveRestored [] k)
  | _, _ => True

/-- The backend calls of `discover`, `connect` and `keep_alive`. -/
def LogEvent.isTransaction : LogEvent → Bool
  | .snapshotTaken _ => true
  | .checkpointCreate _ => true
  | .prepare _ => true
  | .discover => true
  | .checkpointExtend => true
  | .activate _ => true
  | _ => false

/-- A history that goes on with restorations only. -/
def Calm (old new : List LogEvent) : Prop :=
  ∃ events, new = events ++ old ∧ ∀ e ∈ events, e.isTransaction = false

theorem Calm.refl (log : List LogEvent) : Calm log log :=
  ⟨[], rfl, by simp⟩

theorem Calm.cons {old new : List LogEvent} (h : Calm old new) {e : LogEvent}
    (he : e.isTransaction = false) : Calm old (e :: new) := by
  obtain ⟨events, rfl, hall⟩ := h
  exact ⟨e :: events, rfl, by simpa [he] using hall⟩

/-- A restoration is required or running, and nothing else has begun. -/
structure Quarantine (log : List LogEvent) (w : World) : Prop where
  state : w.state = .restoreRequired ∨ w.state = .restoring
  calls : ∀ i pc, w.calls i = some pc → pc.inTransaction = false
  log : Calm log w.log

section Quarantine

variable {log : List LogEvent}

/-- Between two operations the quarantine has no owner and an unrestored record. -/
theorem Quarantine.blocked (h : Quarantine log w) (hlease : Lease w) :
    w.state = .restoreRequired ∧ w.owner = none ∧
      ∃ r, w.record = some r ∧ r.state ≠ .restored := by
  cases hlease with
  | idle _ h₂ _ => rcases h.state with hs | hs <;> rw [h₂] at hs <;> cases hs
  | blocked h₁ h₂ h₃ h₄ => exact ⟨h₂, h₁, _, h₃, h₄⟩
  | discovered _ h₂ _ _ _ _ => rcases h.state with hs | hs <;> rw [h₂] at hs <;> cases hs
  | connected _ h₂ _ _ _ => rcases h.state with hs | hs <;> rw [h₂] at hs <;> cases hs

theorem Quarantine.goto {pc : Pc} (h : Quarantine log w) (hpc : pc.inTransaction = false) :
    Quarantine log (w.goto id pc) := by
  refine ⟨h.state, fun i pc' hcall => ?_, h.log⟩
  by_cases hi : i = id
  · subst i
    rw [goto_calls_self] at hcall
    obtain rfl := Option.some.inj hcall
    exact hpc
  · rw [goto_calls_ne _ _ hi] at hcall
    exact h.calls i pc' hcall

theorem Quarantine.locked (h : Quarantine log w) (operation : Option Nat) :
    Quarantine log { w with operation } :=
  ⟨h.state, h.calls, h.log⟩

theorem Quarantine.replaceJournal (h : Quarantine log w) : Quarantine log w.replaceJournal := by
  unfold World.replaceJournal
  split
  · exact ⟨h.state, h.calls, h.log.cons rfl⟩
  · exact h

theorem Quarantine.beginRestore {r : Record} (h : Quarantine log w) (hr : w.record = some r)
    (hs : r.state ≠ .restored) (k : After) : Quarantine log (w.beginRestore id k) := by
  have hu : ({ w with state := .restoring } : World).unrestored = some r :=
    (unrestored_eq_some_iff _ _).mpr ⟨hr, hs⟩
  have hrestoring : Quarantine log (({ w with state := .restoring } : World).note (.restore r)) :=
    ⟨Or.inr rfl, h.calls, h.log.cons rfl⟩
  simp only [World.beginRestore, hu]
  exact hrestoring.goto rfl

theorem Quarantine.finishRestore {errors : List String} (h : Quarantine log w)
    (herr : errors ≠ []) (k : After) : Quarantine log (w.finishRestore id errors k) := by
  have settled : ∀ (failures : Nat) (lastError : Option String) (operation : Option Nat),
      Quarantine log { w with
        owner := none, deadline := 0, candidates := []
        state := if errors = [] then .idle else .restoreRequired
        failures, lastError, operation } :=
    fun _ _ _ => ⟨Or.inl (if_neg herr), h.calls, h.log⟩
  have released : ∀ (failures : Nat) (lastError : Option String) (origin : Origin),
      Quarantine log { ({ w with
        owner := none, deadline := 0, candidates := []
        state := if errors = [] then .idle else .restoreRequired
        failures, lastError } : World).note (.released origin (errors = [])) with
        operation := none } :=
    fun _ _ _ => ⟨Or.inl (if_neg herr), h.calls, h.log.cons rfl⟩
  unfold World.finishRestore
  cases k with
  | expired s => exact (settled _ _ none).goto rfl
  | failure s e =>
      cases e with
      | helper e => exact (settled _ _ none).goto rfl
      | other => exact (settled _ _ none).goto rfl
  | release s origin => exact (released _ _ origin).goto rfl
  | recover => exact (settled _ _ w.operation).goto rfl

/-- While no restoration succeeds, the quarantine lasts. -/
theorem Quarantine.step {a : Action} (h : Quarantine log w) (hinv : Inv w) (ok : NoSuccess w a)
    (hv : w.step a = some v) : Quarantine log v := by
  cases a with
  | call id r =>
      simp only [World.step] at hv
      split at hv
      · obtain rfl := Option.some.inj hv
        cases r <;> exact h.goto rfl
      · cases hv
  | resume id reply =>
      obtain ⟨pc, hcall, hv⟩ := Option.bind_eq_some_iff.mp hv
      have outside := h.calls id pc hcall
      cases pc with
      | enter r =>
          cases reply <;> try cases hv
          split
          · exact (h.locked _).goto rfl
          · exact h.goto rfl
      | entering r =>
          obtain ⟨hs, ho, -⟩ := h.blocked (hinv.held id _ hcall rfl)
          have refused : ∀ acquire s requestCancel (body : World → World),
              Quarantine log (w.enterLocked id s acquire requestCancel body) := by
            intro acquire s requestCancel body
            obtain ⟨e, -, he⟩ := @enterLocked_blocked w id s acquire requestCancel body hs ho
            rw [he]
            exact (h.locked none).goto rfl
          cases reply <;> try cases hv
          cases r <;> first
            | (obtain rfl := Option.some.inj hv; exact refused _ _ _ _)
            | cases hv
      | restore k =>
          have marked : ∀ errors group, Quarantine log (w.markRestored id errors group k) := by
            intro errors group
            simp only [World.markRestored]
            split
            · exact Quarantine.goto ⟨h.state, h.calls, h.log.cons rfl⟩ rfl
            · exact Quarantine.goto ⟨h.state, h.calls, h.log⟩ rfl
          cases reply <;> try cases hv
          · exact marked _ _
          · exact marked _ _
      | saveRestored errors k =>
          have failed : ∀ u, Quarantine log u → Quarantine log (u.restoreNotSaved id errors k) := by
            intro u hu
            have marked : ∀ f, Quarantine log (u.setRecord f) :=
              fun _ => ⟨hu.state, hu.calls, hu.log⟩
            exact (marked _).finishRestore (by simp) k
          cases reply <;> try cases hv
          · refine h.replaceJournal.finishRestore (fun herr => ?_) k
            exact ok k (herr ▸ hcall)
          · exact failed _ h
          · exact failed _ h.replaceJournal
      | cancelOwner s =>
          cases reply <;> try cases hv
          simp only [World.cancelOwner]
          split
          · exact Quarantine.goto ⟨h.state, h.calls, h.log⟩ rfl
          · exact h.goto rfl
      | expireStart =>
          cases reply <;> try cases hv
          simp only [World.expireStart]
          split
          · exact h.goto rfl
          · split
            · exact h.goto rfl
            · exact Quarantine.goto ⟨h.state, h.calls, h.log⟩ rfl
      | releaseStart s origin =>
          cases reply <;> try cases hv
          simp only [World.releaseStart]
          split
          · exact h.goto rfl
          · exact Quarantine.goto ⟨h.state, h.calls, h.log⟩ rfl
      | releaseLock s origin =>
          cases reply <;> try cases hv
          simp only [World.resume, World.acquire] at hv
          split at hv
          · obtain rfl := Option.some.inj hv
            exact (h.locked _).goto rfl
          · cases hv
      | releaseCheck s origin =>
          obtain ⟨-, -, r, hr, hs⟩ := h.blocked (hinv.held id _ hcall rfl)
          cases reply <;> try cases hv
          simp only [World.releaseCheck]
          split
          · exact (h.locked none).goto rfl
          · exact h.beginRestore hr hs _
      | recoverLock =>
          cases reply <;> try cases hv
          simp only [World.resume, World.acquire] at hv
          split at hv
          · next hfree =>
            obtain ⟨-, -, r, hr, hs⟩ := h.blocked (hinv.free hfree)
            obtain rfl := Option.some.inj hv
            exact (h.locked (some id)).beginRestore hr hs _
          · cases hv
      | recoverProbe result =>
          cases reply <;> try cases hv
          · exact Quarantine.goto ⟨h.state, h.calls, h.log⟩ rfl
          · exact Quarantine.goto ⟨h.state, h.calls, h.log⟩ rfl
      | finished outcome => cases hv
      | _ => cases outside
  | cancelRequest n =>
      obtain rfl := Option.some.inj hv
      exact ⟨h.state, h.calls, h.log⟩
  | wait t =>
      simp only [World.step] at hv
      split at hv
      · obtain rfl := Option.some.inj hv
        exact ⟨h.state, h.calls, h.log⟩
      · cases hv

end Quarantine

/-- A required restoration keeps every other operation out until one succeeds. -/
theorem Inv.quarantine (h : Inv w) (hs : w.state = .restoreRequired) {u : World}
    (run : helperSystem.Reaches NoSuccess w u) : Quarantine w.log u := by
  have hstart : Quarantine w.log w := by
    refine ⟨Or.inl hs, fun i pc hcall => ?_, .refl _⟩
    by_contra hin
    have hin : pc.inTransaction = true := by simpa using hin
    exact ((h.held i pc hcall (Pc.holds_of_inTransaction hin)).transaction hin).2 hs
  exact (run.invariant (P := fun u => Inv u ∧ Quarantine w.log u)
    (fun _ _ _ ⟨hinv, hq⟩ ok hv => ⟨step_inv hinv hv, hq.step hinv ok hv⟩) ⟨h, hstart⟩).2

/-- Between two operations an owner has a discovered or connected record. -/
theorem Lease.owned (h : Lease w) (ho : w.owner = some s) :
    ∃ r, w.record = some r ∧ r.state ≠ .restored ∧
      (r.state = .discovered ∨ r.state = .connected) := by
  cases h with
  | idle h₁ _ _ => rw [h₁] at ho; cases ho
  | blocked h₁ _ _ _ => rw [h₁] at ho; cases ho
  | discovered _ _ h₃ h₄ _ _ => exact ⟨_, h₃, by simp [h₄], Or.inl h₄⟩
  | connected _ _ h₃ h₄ _ => exact ⟨_, h₃, by simp [h₄], Or.inr h₄⟩

/-- **The lease is exclusive** in every state of every run: (a) the backend
works for its owner and others change nothing, (b) one operation holds the
lock until it ends, (c) a required restoration comes first, (d) owner, record
and candidates agree, (e) a connection is reported only from within the lease. -/
theorem lease_exclusive {journal : Option Record} {now : Time}
    (run : helperSystem.Reaches System.Any (World.create journal now []) v) :
    ((∀ i pc s s', v.calls i = some pc → pc.mutates = true → pc.sender = some s →
        v.owner = some s' → s' = s) ∧
      ∀ i pc s s' reply t, v.calls i = some pc → pc.sender = some s → v.owner = some s' →
        s' ≠ s → v.step (.resume i reply) = some t → t.owner = v.owner ∧
          t.deadline = v.deadline ∧ t.candidates = v.candidates ∧ t.record = v.record ∧
          t.cancel = v.cancel ∧ t.isSet = v.isSet ∧ t.log = v.log) ∧
    ((∀ i pc, v.calls i = some pc → pc.mutates = true ∨ pc.inTransaction = true →
        v.operation = some i) ∧
      (∀ i, v.operation = some i ↔ ∃ pc, v.calls i = some pc ∧ pc.holds = true) ∧
      ∀ i outcome, v.calls i = some (.finished outcome) → v.operation ≠ some i) ∧
    (v.state = .restoreRequired → ∀ u, helperSystem.Reaches NoSuccess v u →
      (∀ i pc, u.calls i = some pc → pc.inTransaction = false) ∧
        ∃ events, u.log = events ++ v.log ∧ ∀ e ∈ events, e.isTransaction = false) ∧
    ((v.operation = none → ∀ s, v.owner = some s → ∃ r, v.record = some r ∧
        r.state ≠ .restored ∧ (r.state = .discovered ∨ r.state = .connected)) ∧
      (v.owner = none → v.candidates = [])) ∧
    (∀ i name address p2p uuid deadline link,
      v.calls i = some (.finished (.ok (.connected name address p2p uuid deadline link))) →
        Activated (World.create journal now []) v i link) := by
  have h := reaches_inv run
  refine ⟨⟨?_, ?_⟩, ⟨?_, ?_, ?_⟩, ?_, ⟨?_, h.table⟩, ?_⟩
  · exact fun i pc s s' hcall hpc hs ho => h.mutates_for hcall hpc hs ho
  · intro i pc s s' reply t hcall hs ho hne hv
    have hu := h.untouched hcall hs ho hne hv
    exact ⟨hu.owner, hu.deadline, hu.candidates, hu.record, hu.cancel, hu.isSet, hu.log⟩
  · intro i pc hcall hpc
    refine (h.lock i).mp ⟨pc, hcall, ?_⟩
    rcases hpc with hpc | hpc
    · exact Pc.holds_of_mutates hpc
    · exact Pc.holds_of_inTransaction hpc
  · exact fun i => (h.lock i).symm
  · intro i outcome hcall hop
    obtain ⟨pc, hcall', hholds⟩ := (h.lock i).mpr hop
    obtain rfl := Option.some.inj (hcall.symm.trans hcall')
    cases hholds
  · intro hs u hu
    have hq := h.quarantine hs hu
    exact ⟨hq.calls, hq.log⟩
  · exact fun hfree s ho => (h.free hfree).owned ho
  · exact fun i name address p2p uuid deadline link hcall => reaches_activated run hcall rfl

/-- One client's discovery is preparing the network when another asks for a release. -/
def contendedRelease : List Action :=
  [.call 0 (.discover ⟨":1.7", bus_seven⟩ none), .resume 0 .go, .resume 0 .go,
    .resume 0 (.snapshot
      { wifi := "/wifi", p2p := "/p2p", wifiInterface := "wlan0", p2pInterface := "p2p-dev-wlan0"
        wifiUuid := none, wifiState := 30, wifiAutoconnect := true, defaultRoutes := [] }),
    .resume 0 .saved, .call 1 (.release ⟨":1.9", bus_nine⟩ .client)]

theorem lease_exclusive_contended :
    ∃ v t, helperSystem.exec (World.create none 0 []) contendedRelease = some v ∧
      v.step (.resume 1 .go) = some t ∧ t.owner = v.owner ∧ t.record = v.record ∧
      t.isSet = v.isSet ∧ v.operation = some 0 := by
  refine ⟨_, _, rfl, rfl, ?_⟩
  have h := lease_exclusive (System.reaches_of_exec
    (show helperSystem.exec (World.create none 0 []) contendedRelease = some _ from rfl))
  obtain ⟨ho, -, -, hr, -, hset, -⟩ :=
    h.1.2 1 (.releaseStart ⟨":1.9", bus_nine⟩ .client) ⟨":1.9", bus_nine⟩ ⟨":1.7", bus_seven⟩ .go
      _ rfl rfl rfl (by decide) rfl
  exact ⟨ho, hr, hset, h.2.1.1 0 _ rfl (Or.inl rfl)⟩

end HccastWired.Network
