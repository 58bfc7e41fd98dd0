import HccastWired.Desktop.ProcessGroup

/-!
# Every child has an owner

A created child is in `children` until it has been waited for, whichever callers of `spawn`
and `close` are cancelled: no creation begins while a cleanup runs, and a cleanup gathers the
creations that began before it.
-/

namespace HccastWired.Desktop.ProcessGroup

open Foundation

variable {w v : World} {j k : Nat} {c : Cleanup}

/-- The creation has not ended. -/
def Pending (w : World) (k : Nat) : Prop :=
  ∃ began, w.tasks k = some ⟨began, .pending⟩

/-- The child was created at a time. -/
def CreatedAt (w : World) (k time : Nat) : Prop :=
  ∃ began, w.tasks k = some ⟨began, .created time⟩

/-- What is left to the loop of a cleanup. -/
structure Walk (w : World) (c : Cleanup) (remaining : List Nat) : Prop where
  settled : ∀ k, ¬ Pending w k
  nodup : remaining.Nodup
  owned : ∀ child ∈ remaining, child ∈ w.children ∧ child ∉ c.failed
  survivors : ∀ child ∈ c.failed, child ∈ w.children
  covered : ∀ child ∈ w.children, child ∈ remaining ∨ child ∈ c.failed
  taken : ∃ all, c.taken = some all ∧
    ∀ child ∈ all, child ∈ w.reaped ∨ child ∈ c.failed ∨ child ∈ remaining

def CleanupInv (w : World) (j : Nat) (c : Cleanup) : Prop :=
  match c.pc with
  | .start => c.taken = none ∧ c.failed = []
  | .gathering creations => c.taken = none ∧ c.failed = [] ∧ ∀ k, Pending w k → k ∈ creations
  | .waiting child rest => Walk w c (child :: rest)
  | .killed child rest => Walk w c (child :: rest) ∧ (j, child, Signal.kill) ∈ w.signals
  | .done error => (c.failed ≠ [] → error ≠ none) ∧ ∃ all, c.taken = some all ∧
      (error ≠ some .refused → ∀ child ∈ all, child ∈ w.reaped ∨ child ∈ c.failed)

/-- The call waits for a cleanup that began before it, and ends as the cleanup does. -/
structure CallInv (w : World) (call : CloseCall) : Prop where
  began : call.began < w.now
  joined : ∃ c, w.cleanups call.cleanup = some c ∧ c.began ≤ call.began ∧
    (call.state = .returned → c.pc = .done none) ∧
    (call.state = .raised → ∃ error, c.pc = .done (some error)) ∧
    (c.pc = .done none → ∀ k time, CreatedAt w k time → time < call.began → k ∈ w.reaped)

/-- A survivor of a cleanup is in `children` until the next cleanup takes it. -/
def Retained (w : World) (j child : Nat) : Prop :=
  match w.cleanups (j + 1) with
  | none => child ∈ w.children
  | some next => match next.taken with
    | none => child ∈ w.children
    | some all => child ∈ all

structure Inv (w : World) : Prop where
  fresh : ∀ j, w.cleanups j = none ↔ w.started ≤ j
  latest : ∀ j, w.closeTask = some j → w.started = j + 1
  single : ∀ j c, w.cleanups j = some c → c.running = true → w.closeTask = some j
  begun : ∀ j c, w.cleanups j = some c → c.began < w.now
  earlier : ∀ k creation, w.tasks k = some creation →
    creation.began < w.now ∧ ∀ time, creation.status = .created time → time < w.now
  spawned : ∀ k, w.spawning k = none → w.tasks k = none
  held : ∀ k, Pending w k → k ∈ w.creations
  before : ∀ k began j c, w.tasks k = some ⟨began, .pending⟩ → w.cleanups j = some c →
    c.running = true → began < c.began
  owned : ∀ k time, CreatedAt w k time → k ∈ w.children ∨ k ∈ w.reaped
  existing : ∀ child ∈ w.children, (∃ time, CreatedAt w child time) ∧ child ∉ w.reaped
  waited : ∀ child ∈ w.reaped, ∃ time, CreatedAt w child time
  nodup : w.children.Nodup
  walks : ∀ j c, w.cleanups j = some c → CleanupInv w j c
  killed : ∀ j c, w.cleanups j = some c → ∀ child ∈ c.failed, (j, child, Signal.kill) ∈ w.signals
  retained : ∀ j c, w.cleanups j = some c → ∀ child ∈ c.failed, Retained w j child
  calls : ∀ i call, w.closes i = some call → CallInv w call

theorem inv_initial : Inv initial where
  fresh j := by simp [initial]
  latest j h := by cases h
  single j c h := by cases h
  begun j c h := by cases h
  earlier k creation h := by cases h
  spawned k _ := rfl
  held k h := by
    obtain ⟨began, h⟩ := h
    cases h
  before k began j c h := by cases h
  owned k time h := by
    obtain ⟨began, h⟩ := h
    cases h
  existing child h := by cases h
  waited child h := by cases h
  nodup := List.nodup_nil
  walks j c h := by cases h
  killed j c h := by cases h
  retained j c h := by cases h
  calls i call h := by cases h

theorem CleanupInv.mono (h : CleanupInv w j c)
    (hpending : c.running = true → ∀ k, Pending v k → Pending w k)
    (hreaped : ∀ k ∈ w.reaped, k ∈ v.reaped) (hsignals : ∀ s ∈ w.signals, s ∈ v.signals)
    (hwalk : c.running = true → ∀ remaining, Walk w c remaining → Walk v c remaining) :
    CleanupInv v j c := by
  rw [CleanupInv] at h ⊢
  rw [Cleanup.running] at hpending hwalk
  cases hpc : c.pc with
  | start => rwa [hpc] at h
  | gathering creations =>
    rw [hpc] at h hpending
    exact ⟨h.1, h.2.1, fun k hk => h.2.2 k (hpending rfl k hk)⟩
  | waiting child rest =>
    rw [hpc] at h hwalk
    exact hwalk rfl _ h
  | killed child rest =>
    rw [hpc] at h hwalk
    exact ⟨hwalk rfl _ h.1, hsignals _ h.2⟩
  | done error =>
    rw [hpc] at h
    obtain ⟨herror, all, hall, hdone⟩ := h
    exact ⟨herror, all, hall, fun hne child hchild => (hdone hne child hchild).imp_left (hreaped child)⟩

/-- The tasks and the children of two worlds are the same. -/
structure SameTasks (w v : World) : Prop where
  children : v.children = w.children
  closeTask : v.closeTask = w.closeTask
  tasks : v.tasks = w.tasks
  cleanups : v.cleanups = w.cleanups
  started : v.started = w.started
  reaped : v.reaped = w.reaped
  signals : v.signals = w.signals

/-- Only the callers have moved. -/
theorem Inv.callers (h : Inv w) (hsame : SameTasks w v) (hnow : w.now ≤ v.now)
    (hspawned : ∀ k, v.spawning k = none → w.spawning k = none)
    (hheld : ∀ k, Pending w k → k ∈ v.creations)
    (hcalls : ∀ i call, v.closes i = some call → call.began < v.now ∧
      ∃ c, w.cleanups call.cleanup = some c ∧ c.began ≤ call.began ∧
        (call.state = .returned → c.pc = .done none) ∧
        (call.state = .raised → ∃ error, c.pc = .done (some error)) ∧
        (c.pc = .done none → ∀ k time, CreatedAt w k time → time < call.began → k ∈ w.reaped)) :
    Inv v := by
  obtain ⟨children, creations, closeTask, tasks, spawning, cleanups, started, closes, exited, reaped,
    signals, now⟩ := v
  obtain ⟨hchildren, hclose, htasks, hcleanups, hstarted, hreaped, hsignals⟩ := hsame
  dsimp only at *
  subst hchildren hclose htasks hcleanups hstarted hreaped hsignals
  exact {
    fresh := h.fresh
    latest := h.latest
    single := h.single
    begun := fun j c hc => (h.begun j c hc).trans_le hnow
    earlier := fun k creation hk => ⟨(h.earlier k creation hk).1.trans_le hnow,
      fun time ht => ((h.earlier k creation hk).2 time ht).trans_le hnow⟩
    spawned := fun k hk => h.spawned k (hspawned k hk)
    held := hheld
    before := h.before
    owned := h.owned
    existing := h.existing
    waited := h.waited
    nodup := h.nodup
    walks := fun j c hc => (h.walks j c hc).mono (fun _ _ hk => hk) (fun _ hk => hk) (fun _ hs => hs)
      fun _ _ hw => ⟨hw.settled, hw.nodup, hw.owned, hw.survivors, hw.covered, hw.taken⟩
    killed := h.killed
    retained := h.retained
    calls := fun i call hi => ⟨(hcalls i call hi).1, (hcalls i call hi).2⟩ }

/-- The world after an action. -/
def tick (w : World) : World :=
  { w with now := w.now + 1 }

section Callers

/-- While no cleanup runs, none of them does. -/
theorem not_running (h : Inv w) (hcleaning : w.cleaning = false) (hc : w.cleanups j = some c) :
    c.running = false := by
  by_contra hrun
  rw [Bool.not_eq_false] at hrun
  rw [World.cleaning, h.single j c hc hrun] at hcleaning
  simp only [hc, Option.any_some, hrun] at hcleaning
  cases hcleaning

theorem cleaning_iff : w.cleaning = true ↔
    ∃ j c, w.closeTask = some j ∧ w.cleanups j = some c ∧ c.running = true := by
  rw [World.cleaning]
  cases htask : w.closeTask with
  | none => simp
  | some j =>
    constructor
    · intro hany
      obtain ⟨c, hc, hrun⟩ := (Option.any_eq_true ..).mp hany
      exact ⟨j, c, rfl, hc, hrun⟩
    · rintro ⟨i, c, hi, hc, hrun⟩
      cases hi
      exact (Option.any_eq_true ..).mpr ⟨c, hc, hrun⟩

theorem CallInv.later {call : CloseCall} (h : CallInv w call) (hnow : w.now ≤ v.now) :
    call.began < v.now := h.began.trans_le hnow

/-- The number of a finished call may leave `_creations` only after its creation has. -/
theorem mem_finishSpawn {caller : SpawnCaller} {i : Nat} (hi : Pending w i) (hmem : i ∈ w.creations) :
    i ∈ (w.finishSpawn k caller).creations := by
  rw [World.finishSpawn]
  dsimp only
  split
  · next hdone =>
    apply List.mem_filter.mpr
    refine ⟨hmem, decide_eq_true ?_⟩
    rintro rfl
    obtain ⟨began, hpending⟩ := hi
    rw [World.creationDone, hpending] at hdone
    exact absurd hdone (by simp)
  · exact hmem

theorem inv_tick (h : Inv w) : Inv (tick w) := by
  have hsame : SameTasks w (tick w) := ⟨rfl, rfl, rfl, rfl, rfl, rfl, rfl⟩
  apply h.callers hsame (Nat.le_succ _) (fun _ hi => hi) h.held
  intro i call hi
  have hcall := h.calls i call hi
  exact ⟨hcall.later (Nat.le_succ _), hcall.joined⟩

theorem inv_spawning (h : Inv w) (k : Nat) (caller : SpawnCaller) :
    Inv { w with spawning := Function.update w.spawning k (some caller) } := by
  have hsame : SameTasks w { w with spawning := Function.update w.spawning k (some caller) } :=
    ⟨rfl, rfl, rfl, rfl, rfl, rfl, rfl⟩
  apply h.callers hsame (le_refl _) ?_ h.held fun i call hi => ⟨(h.calls i call hi).began, (h.calls i call hi).joined⟩
  intro i hi
  simp only [Function.update_apply] at hi
  split at hi
  · cases hi
  · exact hi

theorem inv_finishSpawn (h : Inv w) (k : Nat) (caller : SpawnCaller) : Inv (w.finishSpawn k caller) := by
  have hsame : SameTasks { w with spawning := Function.update w.spawning k (some caller) }
    (w.finishSpawn k caller) := ⟨rfl, rfl, rfl, rfl, rfl, rfl, rfl⟩
  have hcaller := inv_spawning h k caller
  apply hcaller.callers hsame (le_refl _) (fun _ hi => hi)
    (fun i hi => mem_finishSpawn hi (h.held i hi))
    fun i call hi => ⟨(h.calls i call hi).began, (h.calls i call hi).joined⟩

/-- A call ends as its cleanup has, or is cancelled. -/
theorem inv_setClose (h : Inv w) {i : Nat} {call : CloseCall} {state : CloseState}
    (hcall : w.closes i = some call) (hstate : w.closeResult call = some state ∨ state = .cancelled) :
    Inv (w.setClose i { call with state := state }) := by
  have hsame : SameTasks w (w.setClose i { call with state := state }) :=
    ⟨rfl, rfl, rfl, rfl, rfl, rfl, rfl⟩
  apply h.callers hsame (le_refl _) (fun _ hi => hi) h.held
  intro m other hm
  simp only [World.setClose, Function.update_apply] at hm
  split at hm
  · cases hm
    obtain ⟨hbegan, c, hc, hle, -, -, hreaped⟩ := h.calls i call hcall
    refine ⟨hbegan, c, hc, hle, ?_, ?_, hreaped⟩
    · rintro rfl
      obtain hresult | hcancelled := hstate
      · rw [World.closeResult, hc] at hresult
        obtain ⟨began, pc, taken, failed⟩ := c
        cases pc with
        | done error =>
          cases error with
          | none => rfl
          | some error => cases hresult
        | _ => cases hresult
      · cases hcancelled
    · rintro rfl
      obtain hresult | hcancelled := hstate
      · rw [World.closeResult, hc] at hresult
        obtain ⟨began, pc, taken, failed⟩ := c
        cases pc with
        | done error =>
          cases error with
          | none => cases hresult
          | some error => exact ⟨error, rfl⟩
        | _ => cases hresult
      · cases hcancelled
  · exact ⟨(h.calls m other hm).began, (h.calls m other hm).joined⟩

theorem inv_resumeClose (h : Inv w) {i : Nat} {handler : Bool} (hv : w.resumeClose i handler = some v) :
    Inv v := by
  obtain ⟨call, hcall, hv⟩ := Option.bind_eq_some_iff.mp hv
  split at hv
  · obtain ⟨state, hstate, hv⟩ := Option.bind_eq_some_iff.mp hv
    cases hv
    exact inv_setClose h hcall (Or.inl hstate)
  · cases hv

theorem inv_cancelClose (h : Inv w) {i : Nat} {handler : Bool} (hv : w.cancelClose i handler = some v) :
    Inv v := by
  obtain ⟨call, hcall, hv⟩ := Option.bind_eq_some_iff.mp hv
  split at hv
  · cases hv
    exact inv_setClose h hcall (Or.inr rfl)
  · cases hv

/-- A cleanup that begins while no other runs. -/
theorem inv_newCleanup (h : Inv w) (hcleaning : w.cleaning = false) {i : Nat} (call : CloseCall)
    (hbegan : call.began = w.now) (hcleanup : call.cleanup = w.started) (hstate : call.state = .waiting) :
    Inv (tick { w.setClose i call with
      cleanups := Function.update w.cleanups w.started (some ⟨w.now, .start, none, []⟩)
      started := w.started + 1
      closeTask := some w.started }) := by
  have hidle : ∀ j c, w.cleanups j = some c → c.running = false := fun j c hc => not_running h hcleaning hc
  have hnone : w.cleanups w.started = none := (h.fresh _).mpr (le_refl _)
  have hold : ∀ j c, w.cleanups j = some c → j ≠ w.started := by
    rintro j c hc rfl
    rw [hnone] at hc
    cases hc
  have hcases : ∀ j c, Function.update w.cleanups w.started (some ⟨w.now, .start, none, []⟩) j = some c →
      (j = w.started ∧ c = ⟨w.now, .start, none, []⟩) ∨ w.cleanups j = some c := by
    intro j c hc
    rw [Function.update_apply] at hc
    split at hc
    · next heq => exact Or.inl ⟨heq, (Option.some.inj hc).symm⟩
    · exact Or.inr hc
  exact {
    fresh := by
      intro j
      simp only [tick, World.setClose, Function.update_apply]
      split
      · next heq => simp [heq]
      · next hne =>
        rw [h.fresh]
        omega
    latest := by
      rintro j ⟨⟩
      rfl
    single := by
      intro j c hc hrun
      obtain ⟨rfl, -⟩ | hc := hcases j c hc
      · rfl
      · rw [hidle j c hc] at hrun
        cases hrun
    begun := by
      intro j c hc
      obtain ⟨-, rfl⟩ | hc := hcases j c hc
      · exact Nat.lt_succ_self _
      · exact (h.begun j c hc).trans (Nat.lt_succ_self _)
    earlier := (inv_tick h).earlier
    spawned := h.spawned
    held := h.held
    before := by
      intro k began j c hk hc hrun
      obtain ⟨-, rfl⟩ | hc := hcases j c hc
      · exact (h.earlier k _ hk).1
      · rw [hidle j c hc] at hrun
        cases hrun
    owned := h.owned
    existing := h.existing
    waited := h.waited
    nodup := h.nodup
    walks := by
      intro j c hc
      obtain ⟨-, rfl⟩ | hc := hcases j c hc
      · exact ⟨rfl, rfl⟩
      · refine (h.walks j c hc).mono ?_ (fun _ hk => hk) (fun _ hs => hs) ?_
        · intro hrun
          rw [hidle j c hc] at hrun
          cases hrun
        · intro hrun
          rw [hidle j c hc] at hrun
          cases hrun
    killed := by
      intro j c hc child hchild
      obtain ⟨-, rfl⟩ | hc := hcases j c hc
      · cases hchild
      · exact h.killed j c hc child hchild
    retained := by
      intro j c hc child hchild
      obtain ⟨-, rfl⟩ | hc := hcases j c hc
      · cases hchild
      · have hretained := h.retained j c hc child hchild
        rw [Retained] at hretained ⊢
        simp only [tick, World.setClose, Function.update_apply]
        split
        · next hnext =>
          split at hnext
          · cases hnext
          · rwa [hnext] at hretained
        · next next hnext =>
          split at hnext
          · next heq =>
            cases hnext
            rwa [heq, hnone] at hretained
          · rwa [hnext] at hretained
    calls := by
      intro m other hm
      simp only [tick, World.setClose, Function.update_apply] at hm
      split at hm
      · cases hm
        have hlater : call.began < w.now + 1 := hbegan ▸ Nat.lt_succ_self call.began
        refine ⟨hlater, ⟨w.now, .start, none, []⟩, ?_, hbegan.ge, ?_, ?_, ?_⟩
        · simp [tick, World.setClose, hcleanup]
        · rw [hstate]
          intro hs
          cases hs
        · rw [hstate]
          intro hs
          cases hs
        · intro hdone
          cases hdone
      · obtain ⟨hbegan, c, hc, hjoined⟩ := h.calls m other hm
        refine ⟨hbegan.trans (Nat.lt_succ_self _), c, ?_, hjoined⟩
        simp only [tick, World.setClose]
        rw [Function.update_of_ne (hold _ c hc), hc] }

/-- A close joins the running cleanup, or begins one. -/
theorem inv_close (h : Inv w) {i : Nat} {handler : Bool} (hv : w.close i handler = some v) :
    Inv (tick v) := by
  rw [World.close] at hv
  split at hv
  · cases hv
  · by_cases hcleaning : w.cleaning = true
    · obtain ⟨j, c, htask, hc, hrun⟩ := cleaning_iff.mp hcleaning
      rw [if_pos hcleaning, htask] at hv
      cases hv
      have hsame : SameTasks w (tick (w.setClose i ⟨w.now, j, handler, .waiting⟩)) :=
        ⟨rfl, rfl, rfl, rfl, rfl, rfl, rfl⟩
      apply h.callers hsame (Nat.le_succ _) (fun _ hi => hi) h.held
      intro m call hm
      simp only [tick, World.setClose, Function.update_apply] at hm
      split at hm
      · cases hm
        refine ⟨Nat.lt_succ_self _, c, hc, (h.begun j c hc).le, fun hs => (by cases hs), fun hs => (by cases hs), ?_⟩
        intro hdone
        rw [Cleanup.running, hdone] at hrun
        cases hrun
      · exact ⟨(h.calls m call hm).later (Nat.le_succ _), (h.calls m call hm).joined⟩
    · rw [if_neg hcleaning] at hv
      cases hv
      exact inv_newCleanup h (Bool.eq_false_of_not_eq_true hcleaning) ⟨w.now, w.started, handler, .waiting⟩ rfl
        rfl rfl

end Callers

section Cleanups

/-- What a step of a running cleanup may do. -/
structure Advance (w v : World) (j : Nat) (c c' : Cleanup) : Prop where
  cleanups : v.cleanups = Function.update w.cleanups j (some c')
  began : c'.began = c.began
  closeTask : v.closeTask = w.closeTask
  started : v.started = w.started
  tasks : v.tasks = w.tasks
  spawning : v.spawning = w.spawning
  closes : v.closes = w.closes
  now : v.now = w.now
  held : ∀ k, Pending w k → k ∈ v.creations
  owned : ∀ k ∈ w.children, k ∈ v.children ∨ k ∈ v.reaped
  existing : ∀ k ∈ v.children, k ∈ w.children ∧ k ∉ v.reaped
  nodup : v.children.Nodup
  kept : ∀ k ∈ w.reaped, k ∈ v.reaped
  waited : ∀ k ∈ v.reaped, k ∈ w.reaped ∨ k ∈ w.children
  signals : ∀ s ∈ w.signals, s ∈ v.signals
  walk : CleanupInv v j c'
  killed : ∀ child ∈ c'.failed, (j, child, Signal.kill) ∈ v.signals
  survivors : ∀ child ∈ c'.failed, child ∈ v.children
  /-- The survivors of the cleanup before this one. -/
  previous : ∀ child, (match c.taken with | none => child ∈ w.children | some all => child ∈ all) →
    match c'.taken with | none => child ∈ v.children | some all => child ∈ all
  complete : c'.pc = .done none → ∀ k time, CreatedAt w k time → k ∈ v.reaped

theorem Inv.advance (h : Inv w) (hc : w.cleanups j = some c) (hrun : c.running = true) (c' : Cleanup)
    (ha : Advance w v j c c') : Inv v := by
  have htask := h.single j c hc hrun
  have hstarted := h.latest j htask
  have hcases : ∀ i c₀, v.cleanups i = some c₀ → (i = j ∧ c₀ = c') ∨ (i ≠ j ∧ w.cleanups i = some c₀) := by
    intro i c₀ hi
    rw [ha.cleanups, Function.update_apply] at hi
    split at hi
    · next heq => exact Or.inl ⟨heq, (Option.some.inj hi).symm⟩
    · next hne => exact Or.inr ⟨hne, hi⟩
  have hidle : ∀ i c₀, i ≠ j → w.cleanups i = some c₀ → c₀.running = false := by
    intro i c₀ hne hi
    by_contra hother
    have hsame := h.single i c₀ hi (Bool.eq_true_of_not_eq_false hother)
    rw [htask] at hsame
    exact hne (Option.some.inj hsame).symm
  have hpending : ∀ k, Pending v k ↔ Pending w k := fun k => by rw [Pending, Pending, ha.tasks]
  have hcreated : ∀ k time, CreatedAt v k time ↔ CreatedAt w k time := fun k time => by
    rw [CreatedAt, CreatedAt, ha.tasks]
  exact {
    fresh := by
      intro i
      rw [ha.cleanups, ha.started, Function.update_apply]
      split
      · next heq => simp [heq, hstarted]
      · exact h.fresh i
    latest := by
      rw [ha.closeTask, ha.started]
      exact h.latest
    single := by
      intro i c₀ hi hrun₀
      rw [ha.closeTask]
      obtain ⟨rfl, -⟩ | ⟨-, hi⟩ := hcases i c₀ hi
      · exact htask
      · exact h.single i c₀ hi hrun₀
    begun := by
      intro i c₀ hi
      rw [ha.now]
      obtain ⟨-, rfl⟩ | ⟨-, hi⟩ := hcases i c₀ hi
      · rw [ha.began]
        exact h.begun j c hc
      · exact h.begun i c₀ hi
    earlier := by
      rw [ha.tasks, ha.now]
      exact h.earlier
    spawned := by
      rw [ha.tasks, ha.spawning]
      exact h.spawned
    held := fun k hk => ha.held k ((hpending k).mp hk)
    before := by
      rw [ha.tasks]
      intro k began i c₀ hk hi hrun₀
      obtain ⟨-, rfl⟩ | ⟨-, hi⟩ := hcases i c₀ hi
      · rw [ha.began]
        exact h.before k began j c hk hc hrun
      · exact h.before k began i c₀ hk hi hrun₀
    owned := by
      intro k time hk
      obtain hchild | hreaped := h.owned k time ((hcreated k time).mp hk)
      · exact ha.owned k hchild
      · exact Or.inr (ha.kept k hreaped)
    existing := by
      intro k hk
      obtain ⟨time, htime⟩ := (h.existing k (ha.existing k hk).1).1
      exact ⟨⟨time, (hcreated k time).mpr htime⟩, (ha.existing k hk).2⟩
    waited := by
      intro k hk
      obtain hreaped | hchild := ha.waited k hk
      · obtain ⟨time, htime⟩ := h.waited k hreaped
        exact ⟨time, (hcreated k time).mpr htime⟩
      · obtain ⟨time, htime⟩ := (h.existing k hchild).1
        exact ⟨time, (hcreated k time).mpr htime⟩
    nodup := ha.nodup
    walks := by
      intro i c₀ hi
      obtain ⟨rfl, rfl⟩ | ⟨hne, hi⟩ := hcases i c₀ hi
      · exact ha.walk
      · apply (h.walks i c₀ hi).mono (fun hother => ?_) ha.kept ha.signals (fun hother => ?_)
        all_goals
          rw [hidle i c₀ hne hi] at hother
          cases hother
    killed := by
      intro i c₀ hi
      obtain ⟨rfl, rfl⟩ | ⟨-, hi⟩ := hcases i c₀ hi
      · exact ha.killed
      · exact fun child hchild => ha.signals _ (h.killed i c₀ hi child hchild)
    retained := by
      intro i c₀ hi child hchild
      rw [Retained, ha.cleanups]
      obtain ⟨rfl, rfl⟩ | ⟨hne, hi⟩ := hcases i c₀ hi
      · have hnext : w.cleanups (i + 1) = none := (h.fresh _).mpr hstarted.le
        rw [Function.update_of_ne (Nat.succ_ne_self i), hnext]
        exact ha.survivors child hchild
      · have hretained := h.retained i c₀ hi child hchild
        rw [Retained] at hretained
        by_cases hprevious : i + 1 = j
        · rw [hprevious, hc] at hretained
          rw [hprevious, Function.update_self]
          exact ha.previous child hretained
        · rw [Function.update_of_ne hprevious]
          cases hnext : w.cleanups (i + 1) with
          | none =>
            have hlt : i < w.started := by
              by_contra hge
              rw [(h.fresh i).mpr (not_lt.mp hge)] at hi
              cases hi
            have hge := (h.fresh (i + 1)).mp hnext
            omega
          | some next =>
            rw [hnext] at hretained
            obtain ⟨began, pc, taken, failed⟩ := next
            have hdone := hidle (i + 1) _ hprevious hnext
            have hwalk := h.walks (i + 1) _ hnext
            cases pc with
            | done error =>
              obtain ⟨-, all, hall, -⟩ := hwalk
              dsimp only at hall hretained ⊢
              rw [hall] at hretained ⊢
              exact hretained
            | _ => cases hdone
    calls := by
      intro i call hi
      rw [ha.closes] at hi
      obtain ⟨hbegan, c₀, hc₀, hle, hreturned, hraised, hreaped⟩ := h.calls i call hi
      refine ⟨hbegan.trans_eq ha.now.symm, ?_⟩
      rw [ha.cleanups]
      by_cases hj : call.cleanup = j
      · rw [hj, hc] at hc₀
        cases hc₀
        refine ⟨c', by rw [hj, Function.update_self], ha.began ▸ hle, ?_, ?_, ?_⟩
        · intro hs
          rw [Cleanup.running, hreturned hs] at hrun
          cases hrun
        · intro hs
          obtain ⟨error, hdone⟩ := hraised hs
          rw [Cleanup.running, hdone] at hrun
          cases hrun
        · intro hdone k time hk _
          exact ha.complete hdone k time ((hcreated k time).mp hk)
      · refine ⟨c₀, by rw [Function.update_of_ne hj, hc₀], hle, hreturned, hraised, ?_⟩
        intro hdone k time hk hlt
        exact ha.kept k (hreaped hdone k time ((hcreated k time).mp hk) hlt) }

end Cleanups

section Steps

/-- A loop that goes on keeps its invariant; one that ends has dealt with every child. -/
theorem cleanupInv_proceed {remaining : List Nat} (h : Walk v c remaining) :
    CleanupInv v j { c with pc := World.proceed c.failed remaining } := by
  rw [CleanupInv]
  cases remaining with
  | cons child rest => exact ⟨h.settled, h.nodup, h.owned, h.survivors, h.covered, h.taken⟩
  | nil =>
    obtain ⟨all, hall, hdone⟩ := h.taken
    have hsettled : ∀ child ∈ all, child ∈ v.reaped ∨ child ∈ c.failed := fun child hchild =>
      (hdone child hchild).imp_right fun hor => hor.resolve_right List.not_mem_nil
    rw [World.proceed]
    by_cases hfailed : c.failed = []
    · rw [if_pos hfailed]
      exact ⟨fun hne => absurd hfailed hne, all, hall, fun _ => hsettled⟩
    · rw [if_neg hfailed]
      exact ⟨fun _ => by simp, all, hall, fun _ => hsettled⟩

/-- A loop that ends without an error leaves no child. -/
theorem proceed_done {remaining : List Nat} (h : Walk v c remaining)
    (hdone : World.proceed c.failed remaining = .done none) : v.children = [] := by
  cases remaining with
  | cons child rest => cases hdone
  | nil =>
    rw [World.proceed] at hdone
    split at hdone
    · next hfailed =>
      apply List.eq_nil_iff_forall_not_mem.mpr
      intro child hchild
      have hcovered := h.covered child hchild
      rw [hfailed] at hcovered
      simp at hcovered
    · cases hdone

theorem inv_terminate (h : Inv w) (hc : w.cleanups j = some c) (hrun : c.running = true)
    (htaken : c.taken = none) (hfailed : c.failed = []) (hsettled : ∀ k, ¬ Pending w k)
    (creations : List Nat) (replies : Nat → Reply) :
    Inv ({ w with creations := creations }.terminate j c replies) := by
  have hwalk : ∀ v : World, v.tasks = w.tasks → v.children = w.children →
      Walk v { c with taken := some w.children } w.children := by
    intro v htasks hchildren
    refine ⟨?_, h.nodup, ?_, ?_, ?_, w.children, rfl, fun child hchild => Or.inr (Or.inr hchild)⟩
    · intro k hk
      rw [Pending, htasks] at hk
      exact hsettled k hk
    · intro child hchild
      rw [hchildren, hfailed]
      exact ⟨hchild, List.not_mem_nil⟩
    · rw [hfailed]
      exact fun child hchild => absurd hchild List.not_mem_nil
    · rw [hchildren]
      exact fun child hchild => Or.inl hchild
  have hnone : ∀ child ∈ c.failed, False := by
    rw [hfailed]
    exact fun child hchild => List.not_mem_nil hchild
  apply h.advance hc hrun { c with
    pc := if (World.terminated w.exited replies w.children).2 then .done (some .refused) else World.proceed [] w.children
    taken := some w.children }
  exact {
    cleanups := rfl
    began := rfl
    closeTask := rfl
    started := rfl
    tasks := rfl
    spawning := rfl
    closes := rfl
    now := rfl
    held := fun k hk => absurd hk (hsettled k)
    owned := fun k hk => Or.inl hk
    existing := fun k hk => ⟨hk, (h.existing k hk).2⟩
    nodup := h.nodup
    kept := fun k hk => hk
    waited := fun k hk => Or.inl hk
    signals := fun s hs => List.mem_append_left _ hs
    walk := by
      by_cases hrefused : (World.terminated w.exited replies w.children).2 = true
      · rw [if_pos hrefused]
        exact ⟨fun hne => absurd hfailed hne, w.children, rfl, fun hne => absurd rfl hne⟩
      · rw [if_neg hrefused]
        have hproceed := cleanupInv_proceed (j := j) (hwalk ({ w with creations := creations }.terminate j c replies)
          rfl rfl)
        rw [hfailed] at hproceed ⊢
        exact hproceed
    killed := fun child hchild => (hnone child hchild).elim
    survivors := fun child hchild => (hnone child hchild).elim
    previous := by
      rw [htaken]
      exact fun child hchild => hchild
    complete := by
      intro hdone k time hk
      dsimp only at hdone
      split at hdone
      · cases hdone
      · have hempty := proceed_done (hwalk w rfl rfl) (by rw [hfailed]; exact hdone)
        obtain hchild | hreaped := h.owned k time hk
        · rw [hempty] at hchild
          exact absurd hchild List.not_mem_nil
        · exact hreaped }

theorem inv_startCleanup (h : Inv w) {replies : Nat → Reply} (hv : w.startCleanup j replies = some v) :
    Inv v := by
  obtain ⟨c, hc, hv⟩ := Option.bind_eq_some_iff.mp hv
  have hwalk := h.walks j c hc
  rw [CleanupInv] at hwalk
  cases hpc : c.pc with
  | start =>
    rw [hpc] at hwalk hv
    obtain ⟨htaken, hfailed⟩ := hwalk
    have hrun : c.running = true := by rw [Cleanup.running, hpc]
    dsimp only at hv
    split at hv
    · next hnone =>
      cases hv
      apply inv_terminate h hc hrun htaken hfailed
      intro k hk
      have hmem := h.held k hk
      rw [hnone] at hmem
      exact List.not_mem_nil hmem
    · cases hv
      apply h.advance hc hrun { c with pc := .gathering w.creations }
      exact {
        cleanups := rfl
        began := rfl
        closeTask := rfl
        started := rfl
        tasks := rfl
        spawning := rfl
        closes := rfl
        now := rfl
        held := h.held
        owned := fun k hk => Or.inl hk
        existing := fun k hk => ⟨hk, (h.existing k hk).2⟩
        nodup := h.nodup
        kept := fun k hk => hk
        waited := fun k hk => Or.inl hk
        signals := fun s hs => hs
        walk := ⟨htaken, hfailed, h.held⟩
        killed := h.killed j c hc
        survivors := by
          dsimp only
          rw [hfailed]
          exact fun child hchild => absurd hchild List.not_mem_nil
        previous := fun child hchild => hchild
        complete := fun hdone => by cases hdone }
  | _ =>
    rw [hpc] at hv
    cases hv

theorem inv_gathered (h : Inv w) {replies : Nat → Reply} (hv : w.gathered j replies = some v) : Inv v := by
  obtain ⟨c, hc, hv⟩ := Option.bind_eq_some_iff.mp hv
  have hwalk := h.walks j c hc
  rw [CleanupInv] at hwalk
  cases hpc : c.pc with
  | gathering creations =>
    rw [hpc] at hwalk hv
    obtain ⟨htaken, hfailed, hpending⟩ := hwalk
    have hrun : c.running = true := by rw [Cleanup.running, hpc]
    dsimp only at hv
    split at hv
    · next hdone =>
      cases hv
      apply inv_terminate h hc hrun htaken hfailed
      intro k hk
      have hended := List.all_eq_true.mp hdone k (hpending k hk)
      obtain ⟨began, hk⟩ := hk
      rw [World.creationDone, hk] at hended
      exact absurd hended (by simp)
    · cases hv
  | _ =>
    rw [hpc] at hv
    cases hv

/-- The child that the loop waits for, with the rest. -/
def Pc.at : Pc → Option (Nat × List Nat)
  | .waiting child rest => some (child, rest)
  | .killed child rest => some (child, rest)
  | _ => none

theorem walk_at (h : Inv w) (hc : w.cleanups j = some c) {child : Nat} {rest : List Nat}
    (hat : c.pc.at = some (child, rest)) : Walk w c (child :: rest) ∧ c.running = true := by
  have hwalk := h.walks j c hc
  rw [CleanupInv] at hwalk
  rw [Cleanup.running]
  cases hpc : c.pc with
  | waiting first others =>
    rw [hpc] at hwalk hat
    cases hat
    exact ⟨hwalk, rfl⟩
  | killed first others =>
    rw [hpc] at hwalk hat
    cases hat
    exact ⟨hwalk.1, rfl⟩
  | _ =>
    rw [hpc] at hat
    cases hat

/-- A child is reaped. -/
theorem inv_reap (h : Inv w) (hc : w.cleanups j = some c) {child : Nat} {rest : List Nat}
    (hat : c.pc.at = some (child, rest)) :
    Inv { w.setCleanup j { c with pc := World.proceed c.failed rest } with
      children := w.children.erase child
      reaped := w.reaped ++ [child] } := by
  obtain ⟨hwalk, hrun⟩ := walk_at h hc hat
  obtain ⟨hnew, hrest⟩ := List.nodup_cons.mp hwalk.nodup
  have herase : ∀ k, k ∈ w.children.erase child ↔ k ≠ child ∧ k ∈ w.children := fun k => h.nodup.mem_erase_iff
  have hnext : ∀ v : World, v.tasks = w.tasks → v.children = w.children.erase child →
      v.reaped = w.reaped ++ [child] → Walk v c rest := by
    intro v htasks hchildren hreaped
    refine ⟨?_, hrest, ?_, ?_, ?_, ?_⟩
    · intro k hk
      rw [Pending, htasks] at hk
      exact hwalk.settled k hk
    · intro k hk
      obtain ⟨hchild, hfailed⟩ := hwalk.owned k (List.mem_cons_of_mem _ hk)
      rw [hchildren, herase]
      exact ⟨⟨fun heq => hnew (heq ▸ hk), hchild⟩, hfailed⟩
    · intro k hk
      rw [hchildren, herase]
      refine ⟨?_, hwalk.survivors k hk⟩
      rintro rfl
      exact (hwalk.owned k List.mem_cons_self).2 hk
    · intro k hk
      rw [hchildren, herase] at hk
      obtain hmem | hfailed := hwalk.covered k hk.2
      · exact Or.inl ((List.mem_cons.mp hmem).resolve_left hk.1)
      · exact Or.inr hfailed
    · obtain ⟨all, hall, hdone⟩ := hwalk.taken
      refine ⟨all, hall, fun k hk => ?_⟩
      rw [hreaped, List.mem_append, List.mem_singleton]
      obtain hk | hk | hk := hdone k hk
      · exact Or.inl (Or.inl hk)
      · exact Or.inr (Or.inl hk)
      · obtain rfl | hk := List.mem_cons.mp hk
        · exact Or.inl (Or.inr rfl)
        · exact Or.inr (Or.inr hk)
  apply h.advance hc hrun { c with pc := World.proceed c.failed rest }
  exact {
    cleanups := rfl
    began := rfl
    closeTask := rfl
    started := rfl
    tasks := rfl
    spawning := rfl
    closes := rfl
    now := rfl
    held := h.held
    owned := by
      intro k hk
      by_cases heq : k = child
      · exact Or.inr (List.mem_append_right _ (List.mem_singleton.mpr heq))
      · exact Or.inl ((herase k).mpr ⟨heq, hk⟩)
    existing := by
      intro k hk
      obtain ⟨hne, hk⟩ := (herase k).mp hk
      refine ⟨hk, ?_⟩
      rw [List.mem_append, List.mem_singleton]
      exact fun hor => hor.elim (h.existing k hk).2 hne
    nodup := h.nodup.erase child
    kept := fun k hk => List.mem_append_left _ hk
    waited := by
      intro k hk
      obtain hk | hk := List.mem_append.mp hk
      · exact Or.inl hk
      · rw [List.mem_singleton.mp hk]
        exact Or.inr (hwalk.owned child List.mem_cons_self).1
    signals := fun s hs => hs
    walk := cleanupInv_proceed (hnext _ rfl rfl rfl)
    killed := h.killed j c hc
    survivors := (hnext { w with children := w.children.erase child, reaped := w.reaped ++ [child] }
      rfl rfl rfl).survivors
    previous := by
      obtain ⟨all, hall, -⟩ := hwalk.taken
      dsimp only
      rw [hall]
      exact fun child hchild => hchild
    complete := by
      intro hdone k time hk
      have hempty := proceed_done (hnext { w with children := w.children.erase child
                                                  reaped := w.reaped ++ [child] } rfl rfl rfl) hdone
      dsimp only at hempty
      have hnone : k ≠ child → k ∉ w.children := by
        intro hne hchild
        have hmem := (herase k).mpr ⟨hne, hchild⟩
        rw [hempty] at hmem
        exact List.not_mem_nil hmem
      by_cases heq : k = child
      · exact List.mem_append_right _ (List.mem_singleton.mpr heq)
      · obtain hchild | hreaped := h.owned k time hk
        · exact absurd hchild (hnone heq)
        · exact List.mem_append_left _ hreaped }

theorem inv_waited (h : Inv w) (hv : w.waited j = some v) : Inv v := by
  obtain ⟨c, hc, hv⟩ := Option.bind_eq_some_iff.mp hv
  cases hpc : c.pc with
  | waiting child rest =>
    rw [hpc] at hv
    dsimp only at hv
    split at hv
    · cases hv
      exact inv_reap h hc (by rw [hpc, Pc.at])
    · cases hv
  | killed child rest =>
    rw [hpc] at hv
    dsimp only at hv
    split at hv
    · cases hv
      exact inv_reap h hc (by rw [hpc, Pc.at])
    · cases hv
  | _ =>
    rw [hpc] at hv
    cases hv

theorem inv_timeout (h : Inv w) {reply : Reply} (hv : w.timeout j reply = some v) : Inv v := by
  obtain ⟨c, hc, hv⟩ := Option.bind_eq_some_iff.mp hv
  cases hpc : c.pc with
  | waiting child rest =>
    rw [hpc] at hv
    cases hv
    obtain ⟨hwalk, hrun⟩ := walk_at h hc (by rw [hpc, Pc.at])
    apply h.advance hc hrun
      { c with pc := if reply = .refused then .done (some .refused) else .killed child rest }
    exact {
      cleanups := rfl
      began := rfl
      closeTask := rfl
      started := rfl
      tasks := rfl
      spawning := rfl
      closes := rfl
      now := rfl
      held := h.held
      owned := fun k hk => Or.inl hk
      existing := fun k hk => ⟨hk, (h.existing k hk).2⟩
      nodup := h.nodup
      kept := fun k hk => hk
      waited := fun k hk => Or.inl hk
      signals := fun s hs => List.mem_append_left _ hs
      walk := by
        by_cases hrefused : reply = .refused
        · rw [if_pos hrefused]
          obtain ⟨all, hall, -⟩ := hwalk.taken
          exact ⟨fun _ => by simp, all, hall, fun hne => absurd rfl hne⟩
        · rw [if_neg hrefused]
          refine ⟨⟨hwalk.settled, hwalk.nodup, hwalk.owned, hwalk.survivors, hwalk.covered, hwalk.taken⟩, ?_⟩
          exact List.mem_append_right _ (List.mem_singleton.mpr rfl)
      killed := fun k hk => List.mem_append_left _ (h.killed j c hc k hk)
      survivors := hwalk.survivors
      previous := by
        obtain ⟨all, hall, -⟩ := hwalk.taken
        dsimp only
        rw [hall]
        exact fun child hchild => hchild
      complete := by
        intro hdone
        dsimp only at hdone
        split at hdone <;> cases hdone }
  | killed child rest =>
    have hinv := h.walks j c hc
    rw [CleanupInv, hpc] at hinv
    obtain ⟨hwalk, hkill⟩ := hinv
    rw [hpc] at hv
    cases hv
    have hrun : c.running = true := by rw [Cleanup.running, hpc]
    obtain ⟨hnew, hrest⟩ := List.nodup_cons.mp hwalk.nodup
    have hchild := hwalk.owned child List.mem_cons_self
    -- the child is one of the survivors now
    have hnext : Walk w { c with failed := c.failed ++ [child] } rest := by
      refine ⟨hwalk.settled, hrest, ?_, ?_, ?_, ?_⟩
      · intro k hk
        obtain ⟨hmem, hfailed⟩ := hwalk.owned k (List.mem_cons_of_mem _ hk)
        refine ⟨hmem, fun hnot => ?_⟩
        obtain hnot | hnot := List.mem_append.mp hnot
        · exact hfailed hnot
        · exact hnew (List.mem_singleton.mp hnot ▸ hk)
      · intro k hk
        obtain hk | hk := List.mem_append.mp hk
        · exact hwalk.survivors k hk
        · exact List.mem_singleton.mp hk ▸ hchild.1
      · intro k hk
        obtain hmem | hfailed := hwalk.covered k hk
        · obtain rfl | hmem := List.mem_cons.mp hmem
          · exact Or.inr (List.mem_append_right _ (List.mem_singleton.mpr rfl))
          · exact Or.inl hmem
        · exact Or.inr (List.mem_append_left _ hfailed)
      · obtain ⟨all, hall, hdone⟩ := hwalk.taken
        refine ⟨all, hall, fun k hk => ?_⟩
        obtain hk | hk | hk := hdone k hk
        · exact Or.inl hk
        · exact Or.inr (Or.inl (List.mem_append_left _ hk))
        · obtain rfl | hk := List.mem_cons.mp hk
          · exact Or.inr (Or.inl (List.mem_append_right _ (List.mem_singleton.mpr rfl)))
          · exact Or.inr (Or.inr hk)
    apply h.advance hc hrun { c with
      pc := World.proceed (c.failed ++ [child]) rest
      failed := c.failed ++ [child] }
    exact {
      cleanups := rfl
      began := rfl
      closeTask := rfl
      started := rfl
      tasks := rfl
      spawning := rfl
      closes := rfl
      now := rfl
      held := h.held
      owned := fun k hk => Or.inl hk
      existing := fun k hk => ⟨hk, (h.existing k hk).2⟩
      nodup := h.nodup
      kept := fun k hk => hk
      waited := fun k hk => Or.inl hk
      signals := fun s hs => hs
      walk := cleanupInv_proceed (c := { c with failed := c.failed ++ [child] })
        ⟨hnext.settled, hnext.nodup, hnext.owned, hnext.survivors, hnext.covered, hnext.taken⟩
      killed := by
        intro k hk
        obtain hk | hk := List.mem_append.mp hk
        · exact h.killed j c hc k hk
        · exact List.mem_singleton.mp hk ▸ hkill
      survivors := hnext.survivors
      previous := by
        obtain ⟨all, hall, -⟩ := hwalk.taken
        dsimp only
        rw [hall]
        exact fun child hchild => hchild
      complete := by
        intro hdone k time hk
        have hempty := proceed_done hnext hdone
        rw [hempty] at hchild
        exact absurd hchild.1 List.not_mem_nil }
  | _ =>
    rw [hpc] at hv
    cases hv

theorem inv_exit (h : Inv w) (hv : w.exit k = some v) : Inv v := by
  rw [World.exit] at hv
  split at hv
  · cases hv
    have hsame : SameTasks w { w with exited := Function.update w.exited k true } :=
      ⟨rfl, rfl, rfl, rfl, rfl, rfl, rfl⟩
    exact h.callers hsame (le_refl _) (fun _ hi => hi) h.held
      fun i call hi => ⟨(h.calls i call hi).began, (h.calls i call hi).joined⟩
  · cases hv

/-- A creation begins only while no cleanup runs. -/
theorem inv_spawn (h : Inv w) (hv : w.spawn k = some v) : Inv (tick v) := by
  rw [World.spawn] at hv
  split at hv
  · cases hv
  · next hnew =>
    split at hv
    · cases hv
      exact inv_tick (inv_spawning h k .raised)
    · next hcleaning =>
      cases hv
      have hnone : w.tasks k = none := h.spawned k (by simpa using hnew)
      have hidle : ∀ j c, w.cleanups j = some c → c.running = false := fun j c hc =>
        not_running h (Bool.eq_false_of_not_eq_true hcleaning) hc
      have hpending : ∀ i, Pending w i → i ≠ k := by
        rintro i ⟨began, hi⟩ rfl
        rw [hnone] at hi
        cases hi
      have hcreated : ∀ i time, (∃ began, Function.update w.tasks k (some ⟨w.now, .pending⟩) i =
          some ⟨began, .created time⟩) ↔ CreatedAt w i time := by
        intro i time
        by_cases hi : i = k
        · subst hi
          constructor
          · rintro ⟨began, hupdate⟩
            rw [Function.update_self] at hupdate
            cases hupdate
          · rintro ⟨began, hold⟩
            rw [hnone] at hold
            cases hold
        · rw [Function.update_of_ne hi]
          rfl
      exact {
        fresh := h.fresh
        latest := h.latest
        single := h.single
        begun := (inv_tick h).begun
        earlier := by
          intro i creation hi
          simp only [tick, Function.update_apply] at hi
          split at hi
          · cases hi
            exact ⟨Nat.lt_succ_self _, fun time hs => by cases hs⟩
          · exact (inv_tick h).earlier i creation hi
        spawned := by
          intro i hi
          simp only [tick, Function.update_apply] at hi ⊢
          split at hi
          · cases hi
          · next hne =>
            rw [if_neg hne]
            exact h.spawned i hi
        held := by
          rintro i ⟨began, hi⟩
          simp only [tick, Function.update_apply] at hi
          split at hi
          · next heq => exact List.mem_append_right _ (List.mem_singleton.mpr heq)
          · exact List.mem_append_left _ (h.held i ⟨began, hi⟩)
        before := by
          intro i began j c _ hc hrun
          rw [hidle j c hc] at hrun
          cases hrun
        owned := fun i time hi => h.owned i time ((hcreated i time).mp hi)
        existing := by
          intro i hi
          obtain ⟨⟨time, htime⟩, hreaped⟩ := h.existing i hi
          exact ⟨⟨time, (hcreated i time).mpr htime⟩, hreaped⟩
        waited := by
          intro i hi
          obtain ⟨time, htime⟩ := h.waited i hi
          exact ⟨time, (hcreated i time).mpr htime⟩
        nodup := h.nodup
        walks := by
          intro j c hc
          refine (h.walks j c hc).mono ?_ (fun _ hi => hi) (fun _ hs => hs) ?_
          all_goals
            intro hrun
            rw [hidle j c hc] at hrun
            cases hrun
        killed := h.killed
        retained := h.retained
        calls := by
          intro i call hi
          obtain ⟨hbegan, c, hc, hle, hreturned, hraised, hreaped⟩ := h.calls i call hi
          exact ⟨hbegan.trans (Nat.lt_succ_self _), c, hc, hle, hreturned, hraised,
            fun hdone m time hm => hreaped hdone m time ((hcreated m time).mp hm)⟩ }

/-- A creation ends; a running cleanup is still gathering. -/
theorem inv_created (h : Inv w) {began : Nat} {status : Status} {children : List Nat}
    (htask : w.tasks k = some ⟨began, .pending⟩) (hstatus : status ≠ .pending)
    (htime : ∀ time, status = .created time → time = w.now) (hnodup : children.Nodup)
    (hchildren : ∀ i, i ∈ children ↔ i ∈ w.children ∨ i = k ∧ status = .created w.now) :
    Inv (tick { w with tasks := Function.update w.tasks k (some ⟨began, status⟩), children := children }) := by
  have hpendingK : Pending w k := ⟨began, htask⟩
  have hnotCreated : ∀ time, ¬ CreatedAt w k time := by
    rintro time ⟨other, hother⟩
    rw [htask] at hother
    cases hother
  have hnotReaped : k ∉ w.reaped := fun hk => by
    obtain ⟨time, hcreated⟩ := h.waited k hk
    exact hnotCreated time hcreated
  -- no cleanup that runs has taken the children
  have hwalk : ∀ c remaining, ¬ Walk w c remaining := fun c remaining hw => hw.settled k hpendingK
  have hupdate : ∀ i creation, Function.update w.tasks k (some ⟨began, status⟩) i = some creation →
      (i = k ∧ creation = ⟨began, status⟩) ∨ (i ≠ k ∧ w.tasks i = some creation) := by
    intro i creation hi
    rw [Function.update_apply] at hi
    split at hi
    · next heq => exact Or.inl ⟨heq, (Option.some.inj hi).symm⟩
    · next hne => exact Or.inr ⟨hne, hi⟩
  have hpending : ∀ i first, Function.update w.tasks k (some ⟨began, status⟩) i = some ⟨first, .pending⟩ →
      w.tasks i = some ⟨first, .pending⟩ := by
    intro i first hi
    obtain ⟨-, heq⟩ | ⟨-, hi⟩ := hupdate i _ hi
    · cases heq
      exact absurd rfl hstatus
    · exact hi
  have hcreated : ∀ i time first,
      Function.update w.tasks k (some ⟨began, status⟩) i = some ⟨first, .created time⟩ →
        CreatedAt w i time ∨ (i = k ∧ time = w.now ∧ status = .created w.now) := by
    intro i time first hi
    obtain ⟨rfl, heq⟩ | ⟨-, hi⟩ := hupdate i _ hi
    · cases heq
      have hnow := htime time rfl
      exact Or.inr ⟨rfl, hnow, by rw [hnow]⟩
    · exact Or.inl ⟨first, hi⟩
  have hstill : ∀ i time, CreatedAt w i time →
      ∃ first, Function.update w.tasks k (some ⟨began, status⟩) i = some ⟨first, .created time⟩ := by
    rintro i time ⟨first, hi⟩
    have hne : i ≠ k := by
      rintro rfl
      exact hnotCreated time ⟨first, hi⟩
    exact ⟨first, by rw [Function.update_of_ne hne, hi]⟩
  exact {
    fresh := h.fresh
    latest := h.latest
    single := h.single
    begun := (inv_tick h).begun
    earlier := by
      intro i creation hi
      obtain ⟨-, rfl⟩ | ⟨-, hi⟩ := hupdate i creation hi
      · refine ⟨(h.earlier k _ htask).1.trans (Nat.lt_succ_self _), fun time hs => ?_⟩
        rw [htime time hs]
        exact Nat.lt_succ_self _
      · exact (inv_tick h).earlier i creation hi
    spawned := by
      intro i hi
      have hne : i ≠ k := by
        rintro rfl
        rw [h.spawned i hi] at htask
        cases htask
      exact (Function.update_of_ne hne _ _).trans (h.spawned i hi)
    held := by
      rintro i ⟨first, hi⟩
      exact h.held i ⟨first, hpending i first hi⟩
    before := fun i first j c hi hc hrun => h.before i first j c (hpending i first hi) hc hrun
    owned := by
      rintro i time ⟨first, hi⟩
      obtain hold | ⟨rfl, -, hnew⟩ := hcreated i time first hi
      · exact (h.owned i time hold).imp_left fun hmem => (hchildren i).mpr (Or.inl hmem)
      · exact Or.inl ((hchildren i).mpr (Or.inr ⟨rfl, hnew⟩))
    existing := by
      intro i hi
      obtain hmem | ⟨rfl, hnew⟩ := (hchildren i).mp hi
      · obtain ⟨⟨time, hold⟩, hreaped⟩ := h.existing i hmem
        exact ⟨⟨time, hstill i time hold⟩, hreaped⟩
      · exact ⟨⟨w.now, began, (Function.update_self ..).trans (by rw [hnew])⟩, hnotReaped⟩
    waited := by
      intro i hi
      obtain ⟨time, hold⟩ := h.waited i hi
      exact ⟨time, hstill i time hold⟩
    nodup := hnodup
    walks := by
      intro j c hc
      refine (h.walks j c hc).mono ?_ (fun _ hi => hi) (fun _ hs => hs) fun _ remaining hw =>
        absurd hw (hwalk c remaining)
      rintro - i ⟨first, hi⟩
      exact ⟨first, hpending i first hi⟩
    killed := h.killed
    retained := by
      intro j c hc child hchild
      have hretained := h.retained j c hc child hchild
      have hmem : child ∈ w.children → child ∈ children := fun hi => (hchildren child).mpr (Or.inl hi)
      rw [Retained] at hretained ⊢
      change match w.cleanups (j + 1) with
        | none => child ∈ children
        | some next => match next.taken with
          | none => child ∈ children
          | some all => child ∈ all
      cases hnext : w.cleanups (j + 1) with
      | none =>
        rw [hnext] at hretained
        exact hmem hretained
      | some next =>
        rw [hnext] at hretained
        dsimp only at hretained ⊢
        cases htaken : next.taken with
        | none =>
          rw [htaken] at hretained
          exact hmem hretained
        | some all =>
          rw [htaken] at hretained
          exact hretained
    calls := by
      intro m call hm
      obtain ⟨hbegan, c, hc, hle, hreturned, hraised, hreaped⟩ := h.calls m call hm
      refine ⟨hbegan.trans (Nat.lt_succ_self _), c, hc, hle, hreturned, hraised, ?_⟩
      rintro hdone i time ⟨first, hi⟩ hlt
      obtain hold | ⟨-, rfl, -⟩ := hcreated i time first hi
      · exact hreaped hdone i time hold hlt
      · exact absurd hlt hbegan.not_gt }

theorem inv_create (h : Inv w) {created : Bool} (hv : w.create k created = some v) : Inv (tick v) := by
  rw [World.create] at hv
  split at hv
  · next began htask =>
    cases created with
    | true =>
      cases hv
      have hnot : k ∉ w.children := by
        intro hk
        obtain ⟨time, other, hother⟩ := (h.existing k hk).1
        rw [htask] at hother
        cases hother
      refine inv_created h htask (by simp) (fun time hs => by cases hs; rfl) ?_ ?_
      · rw [← List.concat_eq_append]
        exact h.nodup.concat hnot
      · intro i
        rw [List.mem_append, List.mem_singleton]
        simp
    | false =>
      cases hv
      exact inv_created h htask (by simp) (fun time hs => by cases hs) h.nodup fun i => by simp
  · cases hv

theorem inv_step {a : Action} (h : Inv w) (hstep : group.step w a = some v) : Inv v := by
  obtain ⟨u, hu, rfl⟩ := Option.map_eq_some_iff.mp hstep
  change Inv (tick u)
  cases a with
  | spawn k => exact inv_spawn h hu
  | create k created => exact inv_create h hu
  | resumeSpawn k =>
    apply inv_tick
    simp only [World.act, World.resumeSpawn] at hu
    split at hu
    · split at hu
      · cases hu
        exact inv_finishSpawn h k .returned
      · cases hu
        exact inv_finishSpawn h k .raised
      · cases hu
    · obtain ⟨closed, hclosed, rfl⟩ := Option.map_eq_some_iff.mp hu
      exact inv_finishSpawn (inv_resumeClose h hclosed) k .raised
    · cases hu
  | cancelSpawn k c =>
    simp only [World.act, World.cancelSpawn] at hu
    split at hu
    · obtain ⟨closed, hclosed, rfl⟩ := Option.map_eq_some_iff.mp hu
      exact inv_spawning (inv_close h hclosed) k (.closing c)
    · obtain ⟨closed, hclosed, rfl⟩ := Option.map_eq_some_iff.mp hu
      exact inv_tick (inv_finishSpawn (inv_cancelClose h hclosed) k .raised)
    · cases hu
  | close c => exact inv_close h hu
  | resumeClose c => exact inv_tick (inv_resumeClose h hu)
  | cancelClose c => exact inv_tick (inv_cancelClose h hu)
  | startCleanup j replies => exact inv_tick (inv_startCleanup h hu)
  | gathered j replies => exact inv_tick (inv_gathered h hu)
  | waited j => exact inv_tick (inv_waited h hu)
  | timeout j reply => exact inv_tick (inv_timeout h hu)
  | exit k => exact inv_tick (inv_exit h hu)

theorem inv_reachable (run : group.Reaches System.Any initial w) : Inv w :=
  run.invariant (fun _ _ _ h _ hstep => inv_step h hstep) inv_initial

end Steps

section Ownership

/-- What the group owes its children. -/
structure Ownership (w : World) : Prop where
  /-- A child that was created is in `children` until it has been waited for. -/
  owned : ∀ k time, CreatedAt w k time → k ∈ w.children ∨ k ∈ w.reaped
  /-- A close that has returned leaves no child that was created before it. -/
  complete : ∀ i call, w.closes i = some call → call.state = .returned →
    ∀ k time, CreatedAt w k time → time < call.began → k ∈ w.reaped
  /-- A child that is created while the cleanup of a close runs began before that close. -/
  excluded : ∀ i call c k v, w.closes i = some call → w.cleanups call.cleanup = some c →
    c.running = true → group.step w (.create k true) = some v →
      ∃ creation, v.tasks k = some creation ∧ creation.began < c.began ∧ creation.began < call.began
  /-- At most one cleanup runs. -/
  single : ∀ i j c c', w.cleanups i = some c → c.running = true → w.cleanups j = some c' →
    c'.running = true → i = j
  /-- A child that is not reaped in time after `SIGKILL` is a survivor of the cleanup. -/
  survives : ∀ j c child rest reply v, w.cleanups j = some c → c.pc = .killed child rest →
    group.step w (.timeout j reply) = some v →
      ∃ c', v.cleanups j = some c' ∧ child ∈ c'.failed ∧ child ∈ v.children
  /-- A survivor was sent `SIGKILL`, and the closes that waited for that cleanup raise. -/
  raises : ∀ j c, w.cleanups j = some c → ∀ child ∈ c.failed, (j, child, Signal.kill) ∈ w.signals ∧
    c.pc ≠ .done none ∧ ∀ i call, w.closes i = some call → call.cleanup = j → call.state ≠ .returned
  /-- It stays in `children` until the next cleanup has taken it. -/
  retained : ∀ j c, w.cleanups j = some c → ∀ child ∈ c.failed, Retained w j child
  /-- The next cleanup reaps it, or has it as a survivor again, unless a signal was refused. -/
  retried : ∀ j c next error, w.cleanups j = some c → w.cleanups (j + 1) = some next →
    next.pc = .done error → error ≠ some .refused → ∀ child ∈ c.failed,
      child ∈ w.reaped ∨ child ∈ next.failed

theorem failed_not_done (h : Inv w) (hc : w.cleanups j = some c) {child : Nat} (hchild : child ∈ c.failed) :
    c.pc ≠ .done none := by
  intro hdone
  have hwalk := h.walks j c hc
  rw [CleanupInv, hdone] at hwalk
  exact hwalk.1 (List.ne_nil_of_mem hchild) rfl

theorem survives_timeout (h : Inv w) (hc : w.cleanups j = some c) {child : Nat} {rest : List Nat}
    (hpc : c.pc = .killed child rest) {reply : Reply} (hstep : group.step w (.timeout j reply) = some v) :
    ∃ c', v.cleanups j = some c' ∧ child ∈ c'.failed ∧ child ∈ v.children := by
  obtain ⟨u, hu, rfl⟩ := Option.map_eq_some_iff.mp hstep
  obtain ⟨c₀, hc₀, hu⟩ := Option.bind_eq_some_iff.mp hu
  rw [hc] at hc₀
  cases hc₀
  rw [hpc] at hu
  cases hu
  obtain ⟨hwalk, -⟩ := walk_at h hc (by rw [hpc, Pc.at])
  refine ⟨_, Function.update_self .., ?_, (hwalk.owned child List.mem_cons_self).1⟩
  exact List.mem_append_right _ (List.mem_singleton.mpr rfl)

/-- In every run, whatever is cancelled, no child is lost. -/
theorem ownership (run : group.Reaches System.Any initial w) : Ownership w := by
  have h := inv_reachable run
  exact {
    owned := h.owned
    complete := by
      intro i call hi hs k time hk hlt
      obtain ⟨-, c, -, -, hreturned, -, hreaped⟩ := h.calls i call hi
      exact hreaped (hreturned hs) k time hk hlt
    excluded := by
      intro i call c k v hi hc hrun hstep
      obtain ⟨u, hu, rfl⟩ := Option.map_eq_some_iff.mp hstep
      simp only [World.act, World.create] at hu
      split at hu
      · next began htask =>
        cases hu
        obtain ⟨-, c₀, hc₀, hle, -⟩ := h.calls i call hi
        rw [hc] at hc₀
        cases hc₀
        have hbefore := h.before k began call.cleanup c htask hc hrun
        exact ⟨_, Function.update_self .., hbefore, hbefore.trans_le hle⟩
      · cases hu
    single := by
      intro i j c c' hi hrun hj hrun'
      have hfirst := h.single i c hi hrun
      rw [h.single j c' hj hrun'] at hfirst
      exact (Option.some.inj hfirst).symm
    survives := fun j c child rest reply v hc hpc hstep => survives_timeout h hc hpc hstep
    raises := by
      intro j c hc child hchild
      refine ⟨h.killed j c hc child hchild, failed_not_done h hc hchild, ?_⟩
      rintro i call hi rfl hs
      obtain ⟨-, c₀, hc₀, -, hreturned, -⟩ := h.calls i call hi
      rw [hc] at hc₀
      cases hc₀
      exact failed_not_done h hc hchild (hreturned hs)
    retained := h.retained
    retried := by
      intro j c next error hc hnext hdone hne child hchild
      have hretained := h.retained j c hc child hchild
      have hwalk := h.walks (j + 1) next hnext
      rw [CleanupInv, hdone] at hwalk
      obtain ⟨-, all, hall, hsettled⟩ := hwalk
      rw [Retained, hnext] at hretained
      dsimp only at hretained
      rw [hall] at hretained
      exact hsettled hne child hretained }

/-- A cancelled spawn, a child that outlives its first cleanup, and a second close. -/
def sampleRun : List Action :=
  [.spawn 0, .spawn 1, .create 0 true, .resumeSpawn 0, .cancelSpawn 1 0, .startCleanup 0 fun _ => .sent,
    .create 1 true, .cancelSpawn 1 0, .gathered 0 fun _ => .sent, .exit 1, .timeout 0 .sent, .timeout 0 .sent,
    .waited 0, .close 1, .startCleanup 1 fun _ => .sent, .exit 0, .waited 1, .resumeClose 1]

theorem ownership_sample :
    ∃ w, group.exec initial sampleRun = some w ∧ w.reaped = [1, 0] ∧ Ownership w := by
  have hrun : (group.exec initial sampleRun).map (·.reaped) = some [1, 0] := by decide
  obtain ⟨w, hw, hreaped⟩ := Option.map_eq_some_iff.mp hrun
  exact ⟨w, hw, hreaped, ownership (System.reaches_of_exec hw)⟩

end Ownership

end HccastWired.Desktop.ProcessGroup
