import HccastWired.Network.Helper

/-!
# The helper's invariant

Whatever holds the operation lock is one call at one program counter, so what
is true of record, journal, lease and history is said once for each program
counter that holds the lock, and once for the free lock. All safety results of
the helper are read off this invariant.
-/

namespace HccastWired.Network

open Foundation

/-- The backend calls that need a durable baseline. -/
def LogEvent.isMutation : LogEvent → Bool
  | .checkpointCreate _ => true
  | .prepare _ => true
  | .activate _ => true
  | _ => false

/-- A mutation was called since the last restoration without errors. -/
def mutated : List LogEvent → Bool
  | [] => false
  | .restoredClean :: _ => false
  | e :: rest => e.isMutation || mutated rest

/-- The newest snapshot. -/
def lastSnapshot : List LogEvent → Option Snapshot
  | [] => none
  | .snapshotTaken s :: _ => some s
  | _ :: rest => lastSnapshot rest

/-- The newest snapshot before the first mutation since the last restoration without errors. -/
def baseline : List LogEvent → Option Snapshot
  | [] => none
  | .restoredClean :: _ => none
  | e :: rest =>
      if mutated rest then baseline rest
      else if e.isMutation then lastSnapshot rest
      else none

/-- The connection UUIDs passed to `activate` since the last restoration without errors. -/
def activations : List LogEvent → List String
  | [] => []
  | .restoredClean :: _ => []
  | .activate uuid :: rest => uuid :: activations rest
  | _ :: rest => activations rest

/-- Events that neither mutate the network nor report a clean restoration. -/
def LogEvent.isNeutral : LogEvent → Bool
  | .restoredClean => false
  | e => !e.isMutation

theorem mutated_neutral {e : LogEvent} (h : e.isNeutral = true) (log : List LogEvent) :
    mutated (e :: log) = mutated log := by
  cases e <;> simp_all [mutated, LogEvent.isNeutral, LogEvent.isMutation]

theorem baseline_neutral {e : LogEvent} (h : e.isNeutral = true) (log : List LogEvent) :
    baseline (e :: log) = if mutated log then baseline log else none := by
  cases e <;> simp_all [baseline, LogEvent.isNeutral, LogEvent.isMutation]

theorem activations_neutral {e : LogEvent} (h : e.isNeutral = true) (log : List LogEvent) :
    activations (e :: log) = activations log := by
  cases e <;> simp_all [activations, LogEvent.isNeutral, LogEvent.isMutation]

theorem activations_eq_nil {log : List LogEvent} (h : mutated log = false) :
    activations log = [] := by
  induction log with
  | nil => rfl
  | cons e rest ih =>
      cases e <;> simp_all [mutated, activations, LogEvent.isMutation]

/-- A record, in memory or on disk, covers the mutations of the history. -/
def Covers (record : Option Record) (log : List LogEvent) : Prop :=
  mutated log = true → ∃ r, record = some r ∧ r.state ≠ .restored ∧
    baseline log = some r.snapshot ∧ ∀ uuid ∈ activations log, r.connectionUuid = some uuid

/-- The journal holds the newest record written, and every replacement that
says "restored" comes straight after a restoration without errors. -/
def Honest (journal : Option Record) : List LogEvent → Prop
  | [] => True
  | .wrote r :: rest =>
      journal = some r ∧ (r.state = .restored → rest.head? = some .restoredClean) ∧
        ∃ older, Honest older rest
  | _ :: rest => Honest journal rest

theorem Covers.neutral {record : Option Record} {log : List LogEvent} (h : Covers record log)
    {e : LogEvent} (he : e.isNeutral = true) : Covers record (e :: log) := by
  intro hm
  rw [mutated_neutral he] at hm
  obtain ⟨r, hr, hs, hb, ha⟩ := h hm
  exact ⟨r, hr, hs, by rw [baseline_neutral he, if_pos hm, hb],
    by rwa [activations_neutral he]⟩

/-- Changing the other fields of the record keeps its cover. -/
theorem Covers.update {r : Record} {log : List LogEvent} (h : Covers (some r) log) {r' : Record}
    (hstate : r'.state ≠ .restored) (hsnapshot : r'.snapshot = r.snapshot)
    (huuid : r'.connectionUuid = r.connectionUuid ∨ activations log = []) :
    Covers (some r') log := by
  intro hm
  obtain ⟨r₀, hr, _, hb, ha⟩ := h hm
  obtain rfl := Option.some.inj hr
  refine ⟨r', rfl, hstate, by rw [hsnapshot, hb], ?_⟩
  rcases huuid with huuid | hnone
  · rwa [huuid]
  · simp [hnone]

/-- Once restored without errors, any record covers the history. -/
theorem Covers.of_clean {record : Option Record} {log : List LogEvent} (h : mutated log = false) :
    Covers record log := by
  intro hm
  rw [h] at hm
  cases hm

/-- The program counters at which a call holds the operation lock. -/
def Pc.holds : Pc → Bool
  | .enter _ => false
  | .cancelOwner _ => false
  | .expireStart => false
  | .releaseStart _ _ => false
  | .releaseLock _ _ => false
  | .recoverLock => false
  | .finished _ => false
  | _ => true

/-- The owner while a restoration runs, for each of its callers. -/
def After.owner (k : After) (owner : Option Sender) : Prop :=
  match k with
  | .expired s => owner = some s
  | .failure s _ => owner = some s
  | .release s _ => owner = none ∨ owner = some s
  | .recover => True

/-- The lease between two operations. -/
inductive Lease (w : World) : Prop
  | idle (ho : w.owner = none) (hs : w.state = .idle) (hr : w.unrestored = none)
  | blocked (ho : w.owner = none) (hs : w.state = .restoreRequired) {r : Record}
      (hr : w.record = some r) (hrs : r.state ≠ .restored)
  | discovered {s : Sender} {r : Record} (ho : w.owner = some s) (hs : w.state = .discovered)
      (hr : w.record = some r) (hrs : r.state = .discovered) (hm : mutated w.log = true)
      (ha : activations w.log = [])
  | connected {s : Sender} {r : Record} (ho : w.owner = some s) (hs : w.state = .connected)
      (hr : w.record = some r) (hrs : r.state = .connected) (hm : mutated w.log = true)

/-- The record of a discovery under way: mutated, not yet activated. -/
structure Underway (w : World) (s : Sender) (states : List RecordState) : Prop where
  owner : w.owner = some s
  state : w.state ≠ .restoreRequired
  record : ∃ r, w.record = some r ∧ r.state ∈ states
  mutated : mutated w.log = true
  quiet : activations w.log = []

/-- What holds at each program counter of the lock's holder. -/
def At (w : World) : Pc → Prop
  | .entering _ => Lease w
  | .snapshot s _ => w.owner = some s ∧ w.state = .idle ∧ w.unrestored = none
  | .saveBaseline s _ => w.owner = some s ∧ w.state = .idle ∧ mutated w.log = false ∧
      ∃ r, w.record = some r ∧ r.state = .preparing ∧ lastSnapshot w.log = some r.snapshot
  | .checkpointCreate s _ => Underway w s [.preparing]
  | .saveCheckpoint s _ => Underway w s [.preparing]
  | .prepare s _ => Underway w s [.preparing]
  | .discover s _ => Underway w s [.preparing, .discovered]
  | .saveDiscovered s => Underway w s [.discovered] ∧ w.state = .discovered
  | .resolvePeer s _ b =>
      b.cancel = some w.cancel ∧ Underway w s [.discovered] ∧ w.state = .discovered
  | .recoveryAvailable s _ b =>
      b.cancel = some w.cancel ∧ Underway w s [.discovered] ∧ w.state = .discovered
  | .checkpointExtend s _ b =>
      b.cancel = some w.cancel ∧ Underway w s [.discovered] ∧ w.state = .discovered
  | .saveConnecting s _ b => b.cancel = some w.cancel ∧ Underway w s [.connecting] ∧
      ∃ uuid, w.record.bind Record.connectionUuid = some uuid
  | .activate s _ b => b.cancel = some w.cancel ∧ w.owner = some s ∧ mutated w.log = true ∧
      w.state ≠ .restoreRequired ∧ ∃ r, w.record = some r ∧ r.state = .connecting
  | .saveConnected s _ _ => w.owner = some s ∧ mutated w.log = true ∧ w.state = .connected ∧
      ∃ r, w.record = some r ∧ r.state = .connected
  | .extendLease s => w.owner = some s ∧ Lease w
  | .restore k => k.owner w.owner ∧ ∃ r, w.record = some r ∧ r.state ≠ .restored
  | .saveRestored errors k => k.owner w.owner ∧ ∃ r, w.record = some r ∧
      r.state = (if errors = [] then .restored else .restoreFailed) ∧
      (errors = [] → w.log.head? = some .restoredClean)
  | .releaseCheck _ _ => Lease w
  | .recoverProbe _ => Lease w
  | _ => True

/-- The part of the invariant that mentions neither the calls nor the lock. -/
structure Core (w : World) : Prop where
  disk : Covers w.disk w.log
  record : Covers w.record w.log
  honest : Honest w.disk w.log
  table : w.owner = none → w.candidates = []

/-- Only the given call may be at a program counter that holds the lock. -/
structure Locked (w : World) (id : Nat) : Prop where
  lock : w.operation = some id
  unique : ∀ i pc, w.calls i = some pc → pc.holds = true → i = id

structure Inv (w : World) : Prop extends Core w where
  lock : ∀ i, (∃ pc, w.calls i = some pc ∧ pc.holds = true) ↔ w.operation = some i
  free : w.operation = none → Lease w
  held : ∀ i pc, w.calls i = some pc → pc.holds = true → At w pc

namespace World

@[simp] theorem goto_log (w : World) (id : Nat) (pc : Pc) : (w.goto id pc).log = w.log := rfl
@[simp] theorem goto_operation (w : World) (id : Nat) (pc : Pc) :
    (w.goto id pc).operation = w.operation := rfl
@[simp] theorem goto_calls_self (w : World) (id : Nat) (pc : Pc) :
    (w.goto id pc).calls id = some pc := by
  simp [goto]

theorem goto_calls_ne (w : World) {id i : Nat} (pc : Pc) (h : i ≠ id) :
    (w.goto id pc).calls i = w.calls i := by
  simp [goto, h]

@[simp] theorem unrestored_eq_none_iff (w : World) :
    w.unrestored = none ↔ ∀ r, w.record = some r → r.state = .restored := by
  simp [unrestored, Option.filter_eq_none_iff]

@[simp] theorem unrestored_eq_some_iff (w : World) (r : Record) :
    w.unrestored = some r ↔ w.record = some r ∧ r.state ≠ .restored := by
  simp [unrestored, Option.filter_eq_some_iff]

end World

/-- The lease looks at the record, the owner, the state and the log only. -/
theorem Lease.congr {w v : World} (ho : v.owner = w.owner) (hr : v.record = w.record)
    (hs : v.state = w.state) (hl : v.log = w.log) (h : Lease w) : Lease v := by
  cases h with
  | idle h₁ h₂ h₃ =>
      exact .idle (ho.trans h₁) (hs.trans h₂) (by simpa [World.unrestored, hr] using h₃)
  | blocked h₁ h₂ h₃ h₄ => exact .blocked (ho.trans h₁) (hs.trans h₂) (hr.trans h₃) h₄
  | discovered h₁ h₂ h₃ h₄ h₅ h₆ =>
      exact .discovered (ho.trans h₁) (hs.trans h₂) (hr.trans h₃) h₄ (by rwa [hl]) (by rwa [hl])
  | connected h₁ h₂ h₃ h₄ h₅ =>
      exact .connected (ho.trans h₁) (hs.trans h₂) (hr.trans h₃) h₄ (by rwa [hl])

/-- `At` looks at the lease's fields and the cancel event only. -/
theorem At.congr {w v : World} (ho : v.owner = w.owner) (hr : v.record = w.record)
    (hs : v.state = w.state) (hl : v.log = w.log) (hc : v.cancel = w.cancel) {pc : Pc}
    (h : At w pc) : At v pc := by
  have lease : Lease w → Lease v := Lease.congr ho hr hs hl
  have underway : ∀ s states, Underway w s states → Underway v s states := fun s states hu =>
    ⟨ho.trans hu.owner, hs ▸ hu.state, hr ▸ hu.record, hl ▸ hu.mutated, hl ▸ hu.quiet⟩
  cases pc <;> simp only [At, ho, hr, hs, hl, hc, World.unrestored] at h ⊢ <;>
    first
      | exact h
      | exact lease h
      | exact underway _ _ h
      | exact ⟨underway _ _ h.1, h.2⟩
      | exact ⟨h.1, lease h.2⟩
      | exact ⟨h.1, underway _ _ h.2.1, h.2.2⟩

theorem Core.congr {w v : World} (hd : v.disk = w.disk) (hr : v.record = w.record)
    (hl : v.log = w.log) (ho : v.owner = w.owner) (hc : v.candidates = w.candidates)
    (h : Core w) : Core v :=
  ⟨by rw [hd, hl]; exact h.disk, by rw [hr, hl]; exact h.record, by rw [hd, hl]; exact h.honest,
    by rw [ho, hc]; exact h.table⟩

/-- The holder moves to another program counter that holds the lock. -/
theorem inv_goto_held {w : World} {id : Nat} {pc : Pc} (hl : Locked w id) (hc : Core w)
    (hp : pc.holds = true) (hat : At w pc) : Inv (w.goto id pc) where
  toCore := ⟨hc.disk, hc.record, hc.honest, hc.table⟩
  lock := by
    intro i
    constructor
    · rintro ⟨pc', hcall, hholds⟩
      by_cases hi : i = id
      · subst i
        exact hl.lock
      · rw [World.goto_calls_ne w pc hi] at hcall
        exact absurd (hl.unique i pc' hcall hholds) hi
    · intro hop
      obtain rfl : i = id := by simpa [hl.lock] using hop.symm
      exact ⟨pc, World.goto_calls_self .., hp⟩
  free := by
    intro hop
    simp [hl.lock] at hop
  held := by
    intro i pc' hcall hholds
    by_cases hi : i = id
    · subst i
      rw [World.goto_calls_self] at hcall
      obtain rfl := Option.some.inj hcall
      exact @At.congr w (w.goto id pc) rfl rfl rfl rfl rfl _ hat
    · rw [World.goto_calls_ne w pc hi] at hcall
      exact absurd (hl.unique i pc' hcall hholds) hi

/-- The holder ends and frees the lock. -/
theorem inv_leave {w : World} {id : Nat} {outcome : Except HelperError Result} (hl : Locked w id)
    (hc : Core w) (hlease : Lease w) : Inv (w.leave id outcome) where
  toCore := ⟨hc.disk, hc.record, hc.honest, hc.table⟩
  lock := by
    intro i
    refine ⟨?_, fun hop => by simp [World.leave] at hop⟩
    rintro ⟨pc', hcall, hholds⟩
    by_cases hi : i = id
    · subst i
      simp only [World.leave, World.goto_calls_self, Option.some.injEq] at hcall
      subst hcall
      cases hholds
    · simp only [World.leave] at hcall
      rw [World.goto_calls_ne _ _ hi] at hcall
      exact absurd (hl.unique i pc' hcall hholds) hi
  free := fun _ => @Lease.congr w (w.leave id outcome) rfl rfl rfl rfl hlease
  held := by
    intro i pc' hcall hholds
    by_cases hi : i = id
    · subst i
      simp only [World.leave, World.goto_calls_self, Option.some.injEq] at hcall
      subst hcall
      cases hholds
    · simp only [World.leave] at hcall
      rw [World.goto_calls_ne _ _ hi] at hcall
      exact absurd (hl.unique i pc' hcall hholds) hi

/-- A call outside the lock changes only events, the clock and its own program counter. -/
theorem inv_outside {w v : World} {id : Nat} {pc : Pc} (h : Inv w)
    (hout : ∀ old, w.calls id = some old → old.holds = false) (hp : pc.holds = false)
    (hcore : v.toNetworkHelper = w.toNetworkHelper) (hd : v.disk = w.disk) (hl : v.log = w.log)
    (hcalls : v.calls = w.calls) : Inv (v.goto id pc) := by
  have ho : v.owner = w.owner := congrArg NetworkHelper.owner hcore
  have hr : v.record = w.record := congrArg NetworkHelper.record hcore
  have hs : v.state = w.state := congrArg NetworkHelper.state hcore
  have hop : v.operation = w.operation := congrArg NetworkHelper.operation hcore
  have hc : v.candidates = w.candidates := congrArg NetworkHelper.candidates hcore
  have hother : ∀ i pc', (v.goto id pc).calls i = some pc' → pc'.holds = true →
      w.calls i = some pc' := by
    intro i pc' hcall hholds
    by_cases hi : i = id
    · subst i
      rw [World.goto_calls_self] at hcall
      obtain rfl := Option.some.inj hcall
      rw [hp] at hholds
      cases hholds
    · rwa [World.goto_calls_ne _ _ hi, hcalls] at hcall
  refine ⟨h.toCore.congr hd hr hl ho hc, ?_, ?_, ?_⟩
  · intro i
    constructor
    · rintro ⟨pc', hcall, hholds⟩
      exact hop.trans ((h.lock i).mp ⟨pc', hother i pc' hcall hholds, hholds⟩)
    · intro hi
      obtain ⟨pc', hcall, hholds⟩ := (h.lock i).mpr (hop.symm.trans hi)
      by_cases hid : i = id
      · subst i
        rw [hout pc' hcall] at hholds
        cases hholds
      · exact ⟨pc', by rw [World.goto_calls_ne _ _ hid, hcalls, hcall], hholds⟩
  · intro hfree
    exact (h.free (hop.symm.trans hfree)).congr ho hr hs hl
  · intro i pc' hcall hholds
    exact At.congr (v := v.goto id pc) ho hr hs hl (congrArg NetworkHelper.cancel hcore) (h.held i pc' (hother i pc' hcall hholds) hholds)

end HccastWired.Network
