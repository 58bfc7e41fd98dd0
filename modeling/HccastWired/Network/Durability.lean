import HccastWired.Network.Preservation

/-!
# The durable baseline

The helper's process may die between any two steps, or inside a journal write
that has or has not replaced the file; the next helper starts from the journal.
Whatever the network went through since it was last restored, the journal
covers it, and the next helper does nothing but restore it.
-/

namespace HccastWired.Network

open Foundation World

/-- The program counters inside a journal write. -/
def Pc.saves : Pc → Bool
  | .saveBaseline _ _ => true
  | .saveCheckpoint _ _ => true
  | .saveDiscovered _ => true
  | .saveConnecting _ _ _ => true
  | .saveConnected _ _ _ => true
  | .saveRestored _ _ => true
  | _ => false

/-- The process dies, and a new helper is constructed from the journal. -/
def World.crash (w : World) (replaced : Bool) (now : Time) : World :=
  let w := if replaced && (w.operation.bind w.calls).any Pc.saves then w.replaceJournal else w
  create w.disk now w.log

inductive Move where
  | act (a : Action)
  | crash (replaced : Bool) (now : Time)

def Move.step (w : World) : Move → Option World
  | .act a => w.step a
  | .crash replaced now => some (w.crash replaced now)

/-- The helper with crashes and restarts. -/
def crashSystem : System World Move where
  step := Move.step

variable {w v : World} {id : Nat} {s : Sender}

/-- A write that replaced the journal before the process died left it in order. -/
theorem Inv.replaced (h : Inv w) {pc : Pc} (hcall : w.calls id = some pc)
    (hsaves : pc.saves = true) : Core w.replaceJournal := by
  have hholds : pc.holds = true := by cases pc <;> first | rfl | cases hsaves
  have hat := h.held id pc hcall hholds
  cases pc with
  | saveBaseline s b =>
      obtain ⟨-, -, -, r, hr, hs, -⟩ := hat
      exact h.toCore.saveUnrestored hr (by simp [hs])
  | saveCheckpoint s b =>
      obtain ⟨r, hr, hs⟩ := hat.record
      exact h.toCore.saveUnrestored hr (by rintro h; simp [h] at hs)
  | saveDiscovered s =>
      obtain ⟨r, hr, hs⟩ := hat.1.record
      exact h.toCore.saveUnrestored hr (by rintro h; simp [h] at hs)
  | saveConnecting s peer b =>
      obtain ⟨r, hr, hs⟩ := hat.2.1.record
      exact h.toCore.saveUnrestored hr (by rintro h; simp [h] at hs)
  | saveConnected s peer link =>
      obtain ⟨-, -, -, r, hr, hs⟩ := hat
      exact h.toCore.saveUnrestored hr (by simp [hs])
  | saveRestored errors k =>
      obtain ⟨-, r, hr, hs, hhead⟩ := hat
      refine h.toCore.replaceJournal fun r' hr' hs' => ?_
      obtain rfl := Option.some.inj (hr.symm.trans hr')
      by_cases herr : errors = []
      · exact hhead herr
      · simp [hs, herr] at hs'
  | _ => cases hsaves

theorem crash_inv (h : Inv w) (replaced : Bool) (now : Time) : Inv (w.crash replaced now) := by
  simp only [World.crash]
  split
  · next hsaves =>
    rw [Bool.and_eq_true, Option.any_eq_true] at hsaves
    obtain ⟨-, pc, hpc, hsaves⟩ := hsaves
    obtain ⟨i, -, hcall⟩ := Option.bind_eq_some_iff.mp hpc
    have hc := h.replaced hcall hsaves
    exact create_inv now hc.disk hc.honest
  · exact create_inv now h.disk h.honest

/-- The invariant holds in every state of every run with crashes. -/
theorem crashes_inv {journal : Option Record} {now : Time}
    (run : crashSystem.Reaches System.Any (World.create journal now []) v) : Inv v := by
  refine run.invariant (P := Inv) (fun w m t h _ hstep => ?_)
    (create_inv now (fun hm => by cases hm) (show Honest journal [] from trivial))
  cases m with
  | act a => exact step_inv h hstep
  | crash replaced now =>
      obtain rfl := Option.some.inj hstep
      exact crash_inv h replaced now

/-- A journal that says "restored" was found so, or was written straight after
a restoration without errors. -/
theorem Honest.restored {r : Record} (hs : r.state = .restored) {log : List LogEvent}
    (h : Honest (some r) log) : (∀ r', LogEvent.wrote r' ∉ log) ∨
      ∃ newer older, log = newer ++ .wrote r :: .restoredClean :: older := by
  induction log with
  | nil => exact Or.inl fun _ hmem => by cases hmem
  | cons e rest ih =>
      cases e with
      | wrote r' =>
          obtain ⟨hr, hclean, -⟩ := h
          obtain rfl := Option.some.inj hr
          cases rest with
          | nil => cases hclean hs
          | cons e older =>
              obtain rfl := Option.some.inj (hclean hs)
              exact Or.inr ⟨[], older, rfl⟩
      | _ =>
          -- no other event touches the journal
          rcases ih h with hnone | ⟨newer, older, hlog⟩
          · exact Or.inl (by simpa using hnone)
          · exact Or.inr ⟨_ :: newer, older, by rw [hlog]; rfl⟩

/-- No client asks for a restoration and the service does not recover. -/
def NoRestoration : World → Action → Prop
  | _, .call _ (.release _ _) => False
  | _, .call _ .recover => False
  | _, _ => True

/-- The program counters of calls that got no further than admission. -/
def Pc.answers : Pc → Bool
  | .enter _ => true
  | .entering _ => true
  | .cancelOwner _ => true
  | .expireStart => true
  | .finished (.ok (.cancelled _)) => true
  | .finished (.ok (.expired _)) => true
  | .finished (.error _) => true
  | _ => false

/-- A helper that waits for a restoration: nothing has happened to journal,
record and history. -/
structure Blocked (w : World) (record : Record) (log : List LogEvent) : Prop where
  state : w.state = .restoreRequired
  owner : w.owner = none
  disk : w.disk = some record
  record : w.record = some record
  log : w.log = log
  answers : ∀ i pc, w.calls i = some pc → pc.answers = true

/-- Admission refuses every request while a restoration is required. -/
theorem enterLocked_blocked {acquire : Bool} {requestCancel : Option Event} {body : World → World}
    (hs : w.state = .restoreRequired) (ho : w.owner = none) :
    ∃ e : HelperError, (e.code = "RestoreRequired" ∨ e.code = "Cancelled") ∧
      w.enterLocked id s acquire requestCancel body = w.leave id (.error e) := by
  by_cases hcancel : requestCancel.any w.isSet = true
  · refine ⟨⟨"Cancelled", "Caller disconnected before the operation began"⟩, Or.inr rfl, ?_⟩
    rw [World.enterLocked, if_pos hcancel]
  · refine ⟨⟨"RestoreRequired", "Restore the previous transaction before retrying"⟩, Or.inl rfl, ?_⟩
    rw [World.enterLocked, if_neg hcancel, if_neg (by simp [ho]), if_pos hs]

theorem Blocked.goto {record : Record} {log : List LogEvent} (h : Blocked w record log)
    {pc : Pc} (hpc : pc.answers = true) (operation : Option Nat) :
    Blocked (({ w with operation } : World).goto id pc) record log := by
  refine ⟨h.state, h.owner, h.disk, h.record, h.log, fun i pc' hcall => ?_⟩
  by_cases hi : i = id
  · subst i
    rw [World.goto_calls_self] at hcall
    obtain rfl := Option.some.inj hcall
    exact hpc
  · rw [World.goto_calls_ne _ _ hi] at hcall
    exact h.answers i pc' hcall

/-- Until a restoration is asked for, a blocked helper stays blocked. -/
theorem Blocked.step {record : Record} {log : List LogEvent} {a : Action}
    (h : Blocked w record log) (ok : NoRestoration w a) (hv : w.step a = some v) :
    Blocked v record log := by
  cases a with
  | call id r =>
      simp only [World.step] at hv
      split at hv
      · obtain rfl := Option.some.inj hv
        cases r with
        | release s origin => exact ok.elim
        | recover => exact ok.elim
        | _ => exact h.goto rfl w.operation
      · cases hv
  | resume id reply =>
      obtain ⟨pc, hcall, hv⟩ := Option.bind_eq_some_iff.mp hv
      have hpc := h.answers id pc hcall
      cases pc with
      | enter r =>
          cases reply <;> try cases hv
          split
          · exact h.goto rfl _
          · exact h.goto rfl w.operation
      | entering r =>
          cases reply <;> try cases hv
          have leave : ∀ acquire s requestCancel (body : World → World),
              Blocked (w.enterLocked id s acquire requestCancel body) record log := by
            intro acquire s requestCancel body
            obtain ⟨e, -, he⟩ :=
              @enterLocked_blocked w id s acquire requestCancel body h.state h.owner
            rw [he]
            exact h.goto rfl none
          cases r <;> first
            | (obtain rfl := Option.some.inj hv; exact leave _ _ _ _)
            | cases hv
      | cancelOwner s =>
          cases reply <;> try cases hv
          simp only [World.cancelOwner, h.owner]
          exact h.goto rfl w.operation
      | expireStart =>
          cases reply <;> try cases hv
          simp only [World.expireStart, h.owner]
          exact h.goto rfl w.operation
      | finished outcome => cases hv
      | _ => cases hpc
  | cancelRequest n =>
      obtain rfl := Option.some.inj hv
      exact ⟨h.state, h.owner, h.disk, h.record, h.log, h.answers⟩
  | wait t =>
      simp only [World.step] at hv
      split at hv
      · obtain rfl := Option.some.inj hv
        exact ⟨h.state, h.owner, h.disk, h.record, h.log, h.answers⟩
      · cases hv

/-- A helper constructed from an unrestored journal waits for a restoration. -/
theorem create_blocked {r : Record} (hs : r.state ≠ .restored) (now : Time) (log : List LogEvent) :
    Blocked (World.create (some r) now log) r log :=
  ⟨by simp [World.create, hs], rfl, rfl, rfl, rfl, fun _ _ hcall => by cases hcall⟩

theorem Blocked.refuses {record : Record} {log : List LogEvent} (h : Blocked w record log)
    {r : Request} (hcall : w.calls id = some (.entering r)) (hv : w.step (.resume id .go) = some v) :
    ∃ e : HelperError, v.calls id = some (.finished (.error e)) ∧
      (e.code = "RestoreRequired" ∨ e.code = "Cancelled") := by
  have refused : ∀ s acquire requestCancel (body : World → World), ∃ e : HelperError,
      (w.enterLocked id s acquire requestCancel body).calls id = some (.finished (.error e)) ∧
        (e.code = "RestoreRequired" ∨ e.code = "Cancelled") := by
    intro s acquire requestCancel body
    obtain ⟨e, hcode, he⟩ := @enterLocked_blocked w id s acquire requestCancel body h.state h.owner
    exact ⟨e, by simp [he, World.leave], hcode⟩
  simp only [World.step, hcall, Option.bind_some, World.resume] at hv
  cases r <;> first
    | (obtain rfl := Option.some.inj hv; exact refused _ _ _ _)
    | cases hv

theorem beginRestore_calls {r : Record} (hr : w.record = some r) (hs : r.state ≠ .restored)
    (k : After) : (w.beginRestore id k).calls id = some (.restore k) ∧
      (w.beginRestore id k).log = .restore r :: w.log := by
  have hu : ({ w with state := .restoring } : World).unrestored = some r :=
    (unrestored_eq_some_iff _ _).mpr ⟨hr, hs⟩
  simp only [World.beginRestore, hu, goto_calls_self, goto_log, World.note, and_self]

/-- `recover` of a blocked helper restores the record. -/
theorem Blocked.recovers {record : Record} {log : List LogEvent} (h : Blocked w record log)
    (hs : record.state ≠ .restored) (hfree : w.operation = none) (hfresh : w.calls id = none) :
    ∃ u, helperSystem.exec w [.call id .recover, .resume id .go] = some u ∧
      u.calls id = some (.restore .recover) ∧ u.log = .restore record :: log := by
  have hstart : w.step (.call id .recover) = some (w.goto id .recoverLock) := by
    simp [World.step, hfresh, World.start]
  have hresume : (w.goto id .recoverLock).step (.resume id .go) =
      some ((({ w with operation := some id } : World).goto id .recoverLock).beginRestore id
        .recover) := by
    simp only [World.step, goto_calls_self, Option.bind_some, World.resume, World.acquire,
      goto_operation, hfree, if_true]
    rfl
  obtain ⟨hcall, hlog⟩ := @beginRestore_calls
    (({ w with operation := some id } : World).goto id .recoverLock) id record h.record hs .recover
  exact ⟨_, by simp only [System.exec, helperSystem, hstart, hresume, Option.bind_some], hcall,
    hlog.trans (by rw [goto_log, h.log])⟩

/-- **Every mutation of the network is covered by a durable baseline**, at
every point of every run, crashes and restarts included. -/
theorem durable_baseline {journal : Option Record} {now : Time}
    (run : crashSystem.Reaches System.Any (World.create journal now []) v) :
    (mutated v.log = true → ∃ r, v.disk = some r ∧ r.state ≠ .restored ∧
      baseline v.log = some r.snapshot ∧
      (∀ uuid ∈ activations v.log, r.connectionUuid = some uuid) ∧
      ∀ restart, (World.create v.disk restart v.log).state = .restoreRequired ∧
        ∀ u, helperSystem.Reaches NoRestoration (World.create v.disk restart v.log) u →
          u.log = v.log ∧ u.disk = v.disk ∧
          (∀ i request t, u.calls i = some (.entering request) → u.step (.resume i .go) = some t →
            ∃ e : HelperError, t.calls i = some (.finished (.error e)) ∧
              (e.code = "RestoreRequired" ∨ e.code = "Cancelled")) ∧
          (∀ i outcome, u.calls i = some (.finished (.ok outcome)) →
            (∃ owned, outcome = .cancelled owned) ∨ ∃ released, outcome = .expired released) ∧
          (∀ i, u.operation = none → u.calls i = none →
            ∃ t, helperSystem.exec u [.call i .recover, .resume i .go] = some t ∧
              t.calls i = some (.restore .recover) ∧ t.log = .restore r :: v.log)) ∧
    (∀ r, v.disk = some r → r.state = .restored → (∀ r', LogEvent.wrote r' ∉ v.log) ∨
      ∃ newer older, v.log = newer ++ .wrote r :: .restoredClean :: older) := by
  have h := crashes_inv run
  constructor
  · intro hm
    obtain ⟨r, hr, hs, hb, ha⟩ := h.disk hm
    refine ⟨r, hr, hs, hb, ha, fun restart => ?_⟩
    rw [hr]
    have hstart := create_blocked hs restart v.log
    refine ⟨hstart.state, fun u hu => ?_⟩
    have hblocked : Blocked u r v.log :=
      hu.invariant (P := fun u => Blocked u r v.log)
        (fun _ _ _ hb ok hv => hb.step ok hv) hstart
    refine ⟨hblocked.log, hblocked.disk, fun i request t hcall hv => hblocked.refuses hcall hv,
      ?_, fun i hfree hfresh => hblocked.recovers hs hfree hfresh⟩
    intro i outcome hcall
    have := hblocked.answers i _ hcall
    cases outcome <;> first
      | exact Or.inl ⟨_, rfl⟩
      | exact Or.inr ⟨_, rfl⟩
      | cases this
  · intro r hr hs
    exact (hr ▸ h.honest).restored hs

/-- A client discovers; the process dies while the backend prepares the network. -/
def interruptedDiscovery : List Move :=
  let s : Sender := ⟨":1.7", bus_seven⟩
  [.act (.call 0 (.discover s none)), .act (.resume 0 .go), .act (.resume 0 .go),
    .act (.resume 0 (.snapshot
      { wifi := "/wifi", p2p := "/p2p", wifiInterface := "wlan0", p2pInterface := "p2p-dev-wlan0"
        wifiUuid := none, wifiState := 30, wifiAutoconnect := true, defaultRoutes := [] })),
    .act (.resume 0 .saved), .act (.resume 0 (.checkpoint "/checkpoint/1")), .crash true 9]

theorem durable_baseline_interrupted :
    ∃ v, crashSystem.exec (World.create none 0 []) interruptedDiscovery = some v ∧
      ∃ r, v.disk = some r ∧ r.state ≠ .restored ∧ baseline v.log = some r.snapshot := by
  refine ⟨_, rfl, ?_⟩
  obtain ⟨r, hr, hs, hb, -⟩ := (durable_baseline (System.reaches_of_exec
    (show crashSystem.exec (World.create none 0 []) interruptedDiscovery = some _ from rfl))).1 rfl
  exact ⟨r, hr, hs, hb⟩

end HccastWired.Network
