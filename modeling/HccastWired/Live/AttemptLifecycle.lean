import HccastWired.Live.Attempt

/-!
# The lifecycle of one attempt settles

What each program counter of `run()` and of `stop()` implies about lifecycle,
cached cleanup and history, and how many steps a stopped run has left.
-/

namespace HccastWired.Live.SubprocessAttempt

open Foundation

/-- Every child in the history was launched by a started run, before cleanup. -/
def Ordered : List Event → Prop
  | [] => True
  | .launched _ :: rest =>
      (.cleanupBegan ∉ rest ∧ .stoppedBeforeRun ∉ rest ∧ .evidenceStarted ∈ rest) ∧ Ordered rest
  | _ :: rest => Ordered rest

theorem Ordered.older {newer older : List Event} (h : Ordered (newer ++ older)) :
    Ordered older := by
  induction newer with
  | nil => exact h
  | cons e newer ih =>
      cases e with
      | launched c => exact ih h.2
      | _ => exact ih h

variable {w u v : SubprocessAttempt}

section Progress

/-- Steps left before the next interrupt check. -/
def Stage.rank : Stage → Nat
  | .socketProbe => 1
  | .preparing _ _ => 9
  | .launching _ _ => 8
  | .draining _ _ => 7
  | .readinessHead => 1
  | .readiness => 2
  | .readinessLast => 2
  | .readyPoll _ => 1
  | .sourceCheck _ => 2
  | .preparingCommand => 2
  | .commanding => 1
  | .owners => 1
  | .handshakeHead _ => 6
  | .publishing phase _ after =>
      (if phase = .waitingForScreen then 2 else 1) + if after = .loop then 7 else 1
  | .inspecting _ after => if after = .loop then 7 else 1
  | .gadgetPoll _ => 5
  | .drainHead _ => 4
  | .drainWait _ => 5
  | .publishStreaming => 1
  | .streaming => 1

/-- Steps left in an interrupted run. -/
def Pc.rank : Pc → Nat
  | .entry => 18
  | .opening => 17
  | .writerStart => 16
  | .settling _ => 2
  | .active s => s.rank + 6
  | .owning _ => 6
  | .cleaning _ => 5
  | .caching _ _ => 4
  | .timing _ _ => 3
  | .finalizing _ _ => 2
  | .finishing _ _ => 1
  | .done _ => 0

def remaining (w : SubprocessAttempt) : Nat :=
  match w.caller with
  | some pc => pc.rank
  | none => 19

end Progress

section Active

/-- Outside its locals `_active_lifecycle` only launches. -/
structure Same (w v : SubprocessAttempt) : Prop where
  lifecycle : v.lifecycle = w.lifecycle
  cleanupResult : v.cleanupResult = w.cleanupResult
  stopRequested : v.stopRequested = w.stopRequested
  interrupted : v.interrupted = w.interrupted
  stops : v.stops = w.stops
  log : v.log = w.log ∨ ∃ c, v.log = .launched c :: w.log

theorem Same.isInterrupted (h : Same w v) : v.isInterrupted = w.isInterrupted := by
  simp [SubprocessAttempt.isInterrupted, h.stopRequested, h.interrupted]

theorem Same.refl (w : SubprocessAttempt) : Same w w := ⟨rfl, rfl, rfl, rfl, rfl, Or.inl rfl⟩

/-- One step of `_active_lifecycle` from a stage. -/
structure Proceeds (s : Stage) (w v : SubprocessAttempt) : Prop where
  same : Same w v
  caller : (∃ s', v.caller = some (.active s') ∧ (w.isInterrupted = true → s'.rank < s.rank)) ∨
    ∃ ended, v.caller = some (.owning ended) ∧ (ended = .interrupted → w.isInterrupted = true)

variable {s : Stage}

theorem proceeds_stage (h : Same w u) {s' : Stage}
    (hrank : w.isInterrupted = true → s'.rank < s.rank) : Proceeds s w (u.stage s') :=
  ⟨⟨h.lifecycle, h.cleanupResult, h.stopRequested, h.interrupted, h.stops, h.log⟩,
    Or.inl ⟨s', rfl, hrank⟩⟩

theorem proceeds_leave (h : Same w u) (error : Option String) :
    Proceeds s w (u.leave error) := by
  refine ⟨⟨h.lifecycle, h.cleanupResult, h.stopRequested, h.interrupted, h.stops, h.log⟩,
    Or.inr ⟨_, rfl, fun hended => ?_⟩⟩
  rw [← h.isInterrupted]
  cases error with
  | some error => cases hended
  | none =>
      by_contra hi
      simp [hi] at hended

theorem proceeds_raise (h : Same w u) (e : Thrown) : Proceeds s w (u.raise e) := by
  refine ⟨⟨h.lifecycle, h.cleanupResult, h.stopRequested, h.interrupted, h.stops, h.log⟩,
    Or.inr ⟨_, rfl, fun hended => ?_⟩⟩
  split at hended <;> cases hended

theorem proceeds_check (h : Same w u) {next : SubprocessAttempt}
    (hnext : w.isInterrupted = false → Proceeds s w next) : Proceeds s w (u.check next) := by
  unfold check
  split
  · exact proceeds_leave h none
  · next hi =>
    rw [h.isInterrupted] at hi
    exact hnext (by simpa using hi)

/-- A stage behind an interrupt check. -/
theorem proceeds_checked (h : Same w u) (s' : Stage) : Proceeds s w (u.check (u.stage s')) :=
  proceeds_check h fun hi => proceeds_stage h fun hi' => by simp [hi] at hi'

theorem proceeds_nextSpec (h : Same w u) (rest : List Child) :
    Proceeds s w (u.check (u.nextSpec rest)) := by
  cases rest with
  | nil => exact proceeds_checked h _
  | cons child rest => exact proceeds_checked h _

theorem proceeds_drained {child : Child} {rest : List Child} :
    Proceeds (.draining child rest) w (w.drained rest child) := by
  cases child with
  | xvfb => exact proceeds_stage (.refl w) fun _ => by simp [Stage.rank]
  | gadget => exact proceeds_stage (.refl w) fun _ => by simp [Stage.rank]
  | encoder => exact proceeds_checked (.refl w) _
  | _ => exact proceeds_nextSpec (.refl w) rest

theorem rank_publishing (phase : RuntimePhase) (seen : Observed) (after : After) :
    (Stage.publishing phase seen after).rank =
      (if phase = .waitingForScreen then 2 else 1) + (Stage.inspecting seen after).rank := rfl

theorem rank_inspecting (seen seen' : Observed) (after : After) :
    (Stage.inspecting seen after).rank = (Stage.inspecting seen' after).rank := rfl

theorem proceeds_observeSetr {seen : Observed} {after : After} {setr : Bool}
    (hrank : w.isInterrupted = true → (Stage.inspecting seen after).rank + 1 < s.rank) :
    Proceeds s w (w.observeSetr seen after setr) := by
  unfold observeSetr
  split
  · refine proceeds_stage (.refl w) fun hi => ?_
    have := hrank hi
    have := rank_publishing .handshaking seen after
    simp only [reduceCtorEq, if_false] at this
    omega
  · exact proceeds_stage (.refl w) fun hi => Nat.lt_of_succ_lt (hrank hi)

theorem proceeds_observe {seen : Observed} {after : After} {waiting setr : Bool}
    (hrank : w.isInterrupted = true → (Stage.inspecting seen after).rank + 2 < s.rank) :
    Proceeds s w (w.observe seen after waiting setr) := by
  unfold observe
  split
  · refine proceeds_stage (.refl w) fun hi => ?_
    have := hrank hi
    have := rank_publishing .waitingForScreen seen after
    simp only [if_true] at this
    omega
  · exact proceeds_observeSetr fun hi => Nat.lt_of_succ_lt (hrank hi)

theorem proceeds_handshake (outcome : String × String) : Proceeds s w (w.handshake outcome) :=
  proceeds_checked (w := w)
    (u := { w with product := some outcome.1, version := some outcome.2 })
    ⟨rfl, rfl, rfl, rfl, rfl, Or.inl rfl⟩ _

theorem same_withOutcome (w : SubprocessAttempt) (outcome : Option (String × String)) :
    Same w (w.withOutcome outcome) := by
  cases outcome <;> exact ⟨rfl, rfl, rfl, rfl, rfl, Or.inl rfl⟩

theorem proceeds_inspect {seen : Observed} {i : Inspection} {after : After} :
    Proceeds (.inspecting seen after) w (w.inspect seen i after) := by
  cases after with
  | loop =>
      unfold inspect
      dsimp only
      split
      · exact proceeds_leave (.refl w) _
      · exact proceeds_handshake _
      · have hsame := same_withOutcome w i.outcome
        split
        · exact proceeds_stage hsame fun _ => by simp [Stage.rank]
        split
        · exact proceeds_leave hsame _
        split
        · exact proceeds_leave hsame _
        · exact proceeds_stage hsame fun _ => by simp [Stage.rank]
  | drained =>
      unfold inspect
      dsimp only
      split
      · exact proceeds_leave (.refl w) _
      · exact proceeds_leave (same_withOutcome w _) _
  | final =>
      unfold inspect
      dsimp only
      split
      · exact proceeds_leave (.refl w) _
      · exact proceeds_handshake _
      · exact proceeds_leave (.refl w) _

theorem proceeds_streamed {o : Observation} : Proceeds s w (w.streamed o) := by
  unfold streamed
  repeat' split
  all_goals first
    | exact proceeds_leave (.refl w) _
    | exact proceeds_checked (.refl w) _

/-- Every step of `_active_lifecycle` proceeds. -/
theorem active_proceeds {reply : Reply} (hv : w.active s reply = some v) : Proceeds s w v := by
  have hstart : ∀ child rest, Proceeds s w (w.start child rest) := fun child rest =>
    proceeds_checked (.refl w) _
  have hleave : ∀ error, Proceeds s w (w.leave error) := proceeds_leave (.refl w)
  unfold active at hv
  split at hv
  all_goals cases hv
  case h_1 =>
    split
    · exact hleave _
    · exact hstart _ _
  case h_2 child rest =>
    exact ⟨⟨rfl, rfl, rfl, rfl, rfl, Or.inr ⟨child, rfl⟩⟩,
      Or.inl ⟨_, rfl, fun _ => by simp [Stage.rank]⟩⟩
  case h_3 =>
    exact ⟨⟨rfl, rfl, rfl, rfl, rfl, Or.inl rfl⟩, Or.inl ⟨_, rfl, fun _ => by simp [Stage.rank]⟩⟩
  case h_4 => exact proceeds_drained
  case h_5 => exact proceeds_checked (.refl w) _
  case h_6 =>
    refine proceeds_stage (.refl w) fun _ => ?_
    split <;> simp [Stage.rank]
  case h_7 => exact proceeds_stage (.refl w) fun _ => by simp [Stage.rank]
  case h_8 =>
    split
    · exact hleave _
    split
    · exact hleave _
    · exact proceeds_nextSpec (.refl w) _
  case h_9 next exited =>
    split
    · exact hleave _
    cases next with
    | spec child rest => exact hstart _ _
    | stockServiceStop => exact proceeds_checked (.refl w) _
    | owners => exact proceeds_stage (.refl w) fun _ => by simp [Stage.rank]
    | encoder => exact hstart _ _
  case h_10 =>
    exact ⟨⟨rfl, rfl, rfl, rfl, rfl, Or.inr ⟨.stockServiceStop, rfl⟩⟩,
      Or.inl ⟨_, rfl, fun _ => by simp [Stage.rank]⟩⟩
  case h_11 code =>
    cases code with
    | none => exact hleave _
    | some code =>
        refine proceeds_check (.refl w) fun hi => ?_
        split
        · exact proceeds_stage (.refl w) fun hi' => by simp [hi] at hi'
        · exact hleave _
  case h_12 =>
    split
    · exact hleave _
    · exact hstart _ _
  case h_13 =>
    split
    · exact proceeds_stage (.refl w) fun _ => by simp [Stage.rank]
    · refine proceeds_check (.refl w) fun hi => proceeds_observe fun hi' => ?_
      simp [hi] at hi'
  case h_14 seen after _ =>
    refine proceeds_observeSetr fun _ => ?_
    rw [rank_publishing, if_pos rfl, rank_inspecting { seen with waiting := true } seen]
    omega
  case h_15 seen after =>
    refine proceeds_stage (.refl w) fun _ => ?_
    rw [rank_publishing, if_neg (by decide),
      rank_inspecting { seen with handshaking := true } seen]
    omega
  case h_16 => exact proceeds_inspect
  case h_17 =>
    split
    · exact proceeds_stage (.refl w) fun _ => by simp [Stage.rank]
    · exact proceeds_observe fun _ => by simp [Stage.rank]
  case h_18 =>
    split
    · exact proceeds_observe fun _ => by simp [Stage.rank]
    · exact proceeds_checked (.refl w) _
  case h_19 =>
    split
    · exact proceeds_observe fun _ => by simp [Stage.rank]
    · exact proceeds_stage (.refl w) fun _ => by simp [Stage.rank]
  case h_20 time =>
    exact proceeds_checked (w := w) (u := { w with streamingAt := some time })
      ⟨rfl, rfl, rfl, rfl, rfl, Or.inl rfl⟩ _
  case h_21 => exact proceeds_streamed
  case h_22 =>
    split
    · exact hleave _
    · exact proceeds_raise (.refl w) _
  case h_26 => exact proceeds_raise (.refl w) _

end Active

section Invariant

/-- Nothing has happened, or a `stop()` came first. -/
structure Fresh (w : SubprocessAttempt) : Prop where
  evidence : Event.evidenceStarted ∉ w.log
  cleanup : Event.cleanupBegan ∉ w.log
  lifecycle : (w.lifecycle = .created ∧ w.cleanupResult = none ∧ w.stopRequested = false ∧
      Event.stoppedBeforeRun ∉ w.log) ∨
    (w.lifecycle = .stoppedBeforeRun ∧ w.cleanupResult.isSome = true ∧ w.stopRequested = true ∧
      Event.stoppedBeforeRun ∈ w.log)

structure Running (w : SubprocessAttempt) : Prop where
  lifecycle : w.lifecycle = .running
  uncached : w.cleanupResult = none
  cleanup : Event.cleanupBegan ∉ w.log
  first : Event.stoppedBeforeRun ∉ w.log

structure Cleaning (w : SubprocessAttempt) : Prop where
  lifecycle : w.lifecycle = .cleaning
  cleanup : w.log.count .cleanupBegan = 1
  first : Event.stoppedBeforeRun ∉ w.log

/-- What the way `run` ends says about the cached cleanup and the interrupts. -/
structure Sealed (w : SubprocessAttempt) (cleanup : CleanupResult) (exit : Exit) : Prop where
  cached : w.cleanupResult = some cleanup
  once : w.log.count .cleanupBegan ≤ 1
  owned : Event.evidenceStarted ∈ w.log → w.log.count .cleanupBegan = 1
  interrupted : exit = .returned none → w.isInterrupted = true
  result : ∀ r, exit = .returned (some r) → r.cleanup = cleanup

/-- What holds at each program counter of `run`. -/
def At (w : SubprocessAttempt) : Option Pc → Prop
  | none => Fresh w
  | some .entry => Fresh w
  | some .opening => Running w ∧ Event.evidenceStarted ∉ w.log
  | some .writerStart => Running w ∧ Event.evidenceStarted ∉ w.log
  | some (.settling early) => Running w ∧ Event.evidenceStarted ∉ w.log ∧
      (early = .stopped → w.stopRequested = true)
  | some (.active _) => Running w ∧ Event.evidenceStarted ∈ w.log
  | some (.owning ended) => Running w ∧ Event.evidenceStarted ∈ w.log ∧
      (ended = .interrupted → w.isInterrupted = true)
  | some (.cleaning ended) => Cleaning w ∧ w.cleanupResult = none ∧
      (ended = .interrupted → w.isInterrupted = true)
  | some (.caching ended _) => Cleaning w ∧ w.cleanupResult = none ∧
      (ended = .interrupted → w.isInterrupted = true)
  | some (.timing ended cleanup) => Cleaning w ∧ w.cleanupResult = some cleanup ∧
      (ended = .interrupted → w.isInterrupted = true)
  | some (.finalizing ended result) => Cleaning w ∧ w.cleanupResult = some result.cleanup ∧
      (ended = .interrupted → w.isInterrupted = true)
  | some (.finishing cleanup exit) => (w.lifecycle = .running ∨ w.lifecycle = .cleaning) ∧
      Event.stoppedBeforeRun ∉ w.log ∧ Sealed w cleanup exit
  | some (.done exit) => (∃ cleanup, Sealed w cleanup exit) ∧
      ((w.lifecycle = .finished ∧ Event.stoppedBeforeRun ∉ w.log) ∨
        (w.lifecycle = .stoppedBeforeRun ∧ exit = .returned none))

/-- What holds at each program counter of a `stop`. -/
def StopAt (w : SubprocessAttempt) : StopPc → Prop
  | .entry => True
  | .asleep => w.lifecycle.isFinal = false ∧ w.stopRequested = true ∧ w.lifecycle ≠ .created
  | .woken => w.lifecycle.isFinal = true
  | .returned result => w.cleanupResult = some result
  | .assertionError => False

structure Inv (w : SubprocessAttempt) : Prop where
  caller : At w w.caller
  stops : ∀ id pc, w.stops id = some pc → StopAt w pc
  ordered : Ordered w.log

theorem isInterrupted_iff : w.isInterrupted = true ↔ w.interrupted = true ∨ w.stopRequested = true := by
  simp [SubprocessAttempt.isInterrupted]

/-- Interrupts and stop requests that come in keep what holds at the program counter. -/
theorem At.later {pc : Option Pc} (h : At w pc) (hlife : v.lifecycle = w.lifecycle)
    (hcache : v.cleanupResult = w.cleanupResult) (hlog : v.log = w.log)
    (hinterrupted : w.isInterrupted = true → v.isInterrupted = true)
    (hstop : w.stopRequested = true → v.stopRequested = true)
    (hcreated : w.lifecycle = .created → v.stopRequested = w.stopRequested) : At v pc := by
  have fresh : Fresh w → Fresh v := fun hf => by
    refine ⟨by rw [hlog]; exact hf.evidence, by rw [hlog]; exact hf.cleanup, ?_⟩
    rw [hlife, hcache, hlog]
    rcases hf.lifecycle with ⟨hl, hc, hs, he⟩ | ⟨hl, hc, hs, he⟩
    · exact Or.inl ⟨hl, hc, (hcreated hl).trans hs, he⟩
    · exact Or.inr ⟨hl, hc, hstop hs, he⟩
  have running : Running w → Running v := fun hr =>
    ⟨hlife.trans hr.lifecycle, hcache.trans hr.uncached, by rw [hlog]; exact hr.cleanup,
      by rw [hlog]; exact hr.first⟩
  have cleaning : Cleaning w → Cleaning v := fun hc =>
    ⟨hlife.trans hc.lifecycle, by rw [hlog]; exact hc.cleanup, by rw [hlog]; exact hc.first⟩
  have sealed : ∀ cleanup exit, Sealed w cleanup exit → Sealed v cleanup exit := fun _ _ hs =>
    ⟨hcache.trans hs.cached, by rw [hlog]; exact hs.once, by rw [hlog]; exact hs.owned,
      fun he => hinterrupted (hs.interrupted he), hs.result⟩
  cases pc with
  | none => exact fresh h
  | some pc =>
      cases pc with
      | entry => exact fresh h
      | opening => exact ⟨running h.1, by rw [hlog]; exact h.2⟩
      | writerStart => exact ⟨running h.1, by rw [hlog]; exact h.2⟩
      | settling early =>
          exact ⟨running h.1, by rw [hlog]; exact h.2.1, fun he => hstop (h.2.2 he)⟩
      | active s => exact ⟨running h.1, by rw [hlog]; exact h.2⟩
      | owning ended =>
          exact ⟨running h.1, by rw [hlog]; exact h.2.1, fun he => hinterrupted (h.2.2 he)⟩
      | cleaning ended =>
          exact ⟨cleaning h.1, hcache.trans h.2.1, fun he => hinterrupted (h.2.2 he)⟩
      | caching ended result =>
          exact ⟨cleaning h.1, hcache.trans h.2.1, fun he => hinterrupted (h.2.2 he)⟩
      | timing ended cleanup =>
          exact ⟨cleaning h.1, hcache.trans h.2.1, fun he => hinterrupted (h.2.2 he)⟩
      | finalizing ended result =>
          exact ⟨cleaning h.1, hcache.trans h.2.1, fun he => hinterrupted (h.2.2 he)⟩
      | finishing cleanup exit =>
          exact ⟨by rw [hlife]; exact h.1, by rw [hlog]; exact h.2.1, sealed _ _ h.2.2⟩
      | done exit =>
          obtain ⟨⟨cleanup, hs⟩, hl⟩ := h
          exact ⟨⟨cleanup, sealed _ _ hs⟩, by rw [hlife, hlog]; exact hl⟩

/-- What a `stop` knows survives a step that does not end the attempt. -/
theorem StopAt.later {pc : StopPc} (h : StopAt w pc)
    (hfinal : v.lifecycle.isFinal = w.lifecycle.isFinal)
    (hcreated : v.lifecycle = .created → w.lifecycle = .created)
    (hcache : ∀ r, w.cleanupResult = some r → v.cleanupResult = some r)
    (hstop : w.stopRequested = true → v.stopRequested = true) : StopAt v pc := by
  cases pc with
  | entry => trivial
  | asleep => exact ⟨hfinal.trans h.1, hstop h.2.1, fun hc => h.2.2 (hcreated hc)⟩
  | woken => exact hfinal.trans h
  | returned result => exact hcache result h
  | assertionError => exact h

/-- An ended attempt has a cached cleanup. -/
theorem At.cached {pc : Option Pc} (h : At w pc) (hfinal : w.lifecycle.isFinal = true) :
    w.cleanupResult.isSome = true := by
  have running : Running w → False := fun hr => by simp [hr.lifecycle, Lifecycle.isFinal] at hfinal
  have cleaning : Cleaning w → False := fun hc => by
    simp [hc.lifecycle, Lifecycle.isFinal] at hfinal
  have fresh : Fresh w → w.cleanupResult.isSome = true := fun hf => by
    rcases hf.lifecycle with ⟨hl, -⟩ | ⟨-, hc, -⟩
    · simp [hl, Lifecycle.isFinal] at hfinal
    · exact hc
  cases pc with
  | none => exact fresh h
  | some pc =>
      cases pc with
      | entry => exact fresh h
      | finishing cleanup exit => simp [h.2.2.cached]
      | done exit =>
          obtain ⟨⟨cleanup, hs⟩, -⟩ := h
          simp [hs.cached]
      | opening => exact (running h.1).elim
      | writerStart => exact (running h.1).elim
      | settling early => exact (running h.1).elim
      | active s => exact (running h.1).elim
      | owning ended => exact (running h.1).elim
      | cleaning ended => exact (cleaning h.1).elim
      | caching ended result => exact (cleaning h.1).elim
      | timing ended cleanup => exact (cleaning h.1).elim
      | finalizing ended result => exact (cleaning h.1).elim

end Invariant

section Steps

theorem stopper_stops (w : SubprocessAttempt) (i : Nat) (pc : StopPc) (j : Nat) :
    (w.stopper i pc).stops j = if j = i then some pc else w.stops j := by
  simp [stopper, Function.update_apply]

/-- `notify_all` wakes every sleeper and nobody else. -/
theorem notifyAll_cases {i : Nat} {pc : StopPc} (h : w.notifyAll.stops i = some pc) :
    (w.stops i = some pc ∧ pc ≠ .asleep) ∨ (w.stops i = some .asleep ∧ pc = .woken) := by
  have h : (if w.stops i = some .asleep then some .woken else w.stops i) = some pc := h
  by_cases hs : w.stops i = some .asleep
  · rw [if_pos hs] at h
    exact Or.inr ⟨hs, (Option.some.inj h).symm⟩
  · rw [if_neg hs] at h
    exact Or.inl ⟨h, fun hpc => hs (hpc ▸ h)⟩

/-- A `stop` moves on. -/
theorem Inv.stopper (h : Inv w) (i : Nat) {pc : StopPc} (hpc : StopAt w pc) :
    Inv (w.stopper i pc) where
  caller := h.caller.later rfl rfl rfl id id fun _ => rfl
  stops j pc' hj := by
    rw [stopper_stops] at hj
    have hat : StopAt w pc' := by
      split at hj
      · exact Option.some.inj hj ▸ hpc
      · exact h.stops j pc' hj
    exact hat.later rfl id (fun _ => id) id
  ordered := h.ordered

theorem Inv.returnCached (h : Inv w) (i : Nat) (hfinal : w.lifecycle.isFinal = true) :
    Inv (w.returnCached i) := by
  obtain ⟨result, hresult⟩ := Option.isSome_iff_exists.mp (h.caller.cached hfinal)
  unfold SubprocessAttempt.returnCached
  rw [hresult]
  exact h.stopper i hresult

theorem Inv.waitFor (h : Inv w) (i : Nat) (hstop : w.stopRequested = true)
    (hcreated : w.lifecycle ≠ .created) : Inv (w.waitFor i) := by
  unfold SubprocessAttempt.waitFor
  split
  · next hfinal => exact h.returnCached i hfinal
  · next hfinal => exact h.stopper i ⟨by simpa using hfinal, hstop, hcreated⟩

/-- Before the first locked section of `run` and of any `stop`. -/
theorem At.created {pc : Option Pc} (h : At w pc) (hl : w.lifecycle = .created) :
    (pc = none ∨ pc = some .entry) ∧ Fresh w := by
  have running : Running w → False := fun hr => absurd hr.lifecycle (by simp [hl])
  have cleaning : Cleaning w → False := fun hc => absurd hc.lifecycle (by simp [hl])
  cases pc with
  | none => exact ⟨Or.inl rfl, h⟩
  | some pc =>
      cases pc with
      | entry => exact ⟨Or.inr rfl, h⟩
      | finishing cleanup exit => simp [At, hl] at h
      | done exit => simp [At, hl] at h
      | opening => exact (running h.1).elim
      | writerStart => exact (running h.1).elim
      | settling early => exact (running h.1).elim
      | active s => exact (running h.1).elim
      | owning ended => exact (running h.1).elim
      | cleaning ended => exact (cleaning h.1).elim
      | caching ended result => exact (cleaning h.1).elim
      | timing ended cleanup => exact (cleaning h.1).elim
      | finalizing ended result => exact (cleaning h.1).elim

theorem At.fresh {pc : Option Pc} (hpc : pc = none ∨ pc = some .entry) (h : Fresh w) : At w pc := by
  rcases hpc with rfl | rfl
  · exact h
  · exact h

/-- A `stop()` that comes first. -/
theorem Inv.stopFirst (h : Inv w) (hl : w.lifecycle = .created) :
    Inv (({ w with
      stopRequested := true
      cleanupResult := some .empty
      lifecycle := .stoppedBeforeRun }.note .stoppedBeforeRun).notifyAll) := by
  obtain ⟨hpc, hf⟩ := h.caller.created hl
  obtain ⟨-, hcache, hstop, -⟩ : w.lifecycle = .created ∧ w.cleanupResult = none ∧
      w.stopRequested = false ∧ Event.stoppedBeforeRun ∉ w.log := by
    simpa [hl] using hf.lifecycle
  refine ⟨At.fresh hpc ⟨?_, ?_, Or.inr ⟨rfl, rfl, rfl, ?_⟩⟩, fun j pc hj => ?_, h.ordered⟩
  · simpa [notifyAll, note] using hf.evidence
  · simpa [notifyAll, note] using hf.cleanup
  · simp [notifyAll, note]
  · rcases notifyAll_cases hj with ⟨hold, -⟩ | ⟨-, rfl⟩
    · have hat := h.stops j pc hold
      cases pc with
      | entry => trivial
      | asleep => exact absurd hl hat.2.2
      | woken => rfl
      | returned result => simp [StopAt, hcache] at hat
      | assertionError => exact hat
    · rfl

theorem inv_stopStep {i : Nat} {pc : StopPc} (h : Inv w) (hpc : w.stops i = some pc)
    (hv : w.stopStep i pc = some v) : Inv v := by
  cases pc with
  | entry =>
      simp only [stopStep] at hv
      split at hv
      · next hl =>
        obtain rfl := Option.some.inj hv
        exact (h.stopFirst hl).stopper i rfl
      · next hl =>
        obtain rfl := Option.some.inj hv
        exact h.returnCached i (by simp [hl, Lifecycle.isFinal])
      · next hcreated _ =>
        obtain rfl := Option.some.inj hv
        have hu : Inv { w with
            stopRequested := true, interrupted := w.interrupted || w.activeInterrupt } := by
          refine ⟨h.caller.later rfl rfl rfl (fun hi => ?_) (fun _ => rfl)
            (fun hl => absurd hl hcreated), fun j pc hj => ?_, h.ordered⟩
          · simp [SubprocessAttempt.isInterrupted]
          · exact (h.stops j pc hj).later rfl id (fun _ => id) fun _ => rfl
        exact hu.waitFor i rfl hcreated
  | woken =>
      obtain rfl := Option.some.inj hv
      have hfinal : w.lifecycle.isFinal = true := h.stops i _ hpc
      unfold SubprocessAttempt.waitFor
      rw [if_pos hfinal]
      exact h.returnCached i hfinal
  | asleep => cases hv
  | returned result => cases hv
  | assertionError => cases hv

/-- A step of `run` that does not end the attempt. -/
theorem Inv.ran (h : Inv w) (hat : At v v.caller) (hstops : v.stops = w.stops)
    (hfinal : v.lifecycle.isFinal = w.lifecycle.isFinal)
    (hcreated : v.lifecycle = .created → w.lifecycle = .created)
    (hcache : ∀ r, w.cleanupResult = some r → v.cleanupResult = some r)
    (hstop : v.stopRequested = w.stopRequested) (hordered : Ordered v.log) : Inv v where
  caller := hat
  stops i pc hi := (h.stops i pc (hstops ▸ hi)).later hfinal hcreated hcache fun hs =>
    hstop.trans hs
  ordered := hordered

/-- A step of `run` that only moves its program counter. -/
theorem Inv.goto (h : Inv w) {pc : Pc} (hat : At w (some pc)) : Inv (w.goto pc) :=
  h.ran (v := w.goto pc) (hat.later rfl rfl rfl id id fun _ => rfl) rfl rfl id (fun _ => id) rfl
    h.ordered
theorem inv_entry (h : Inv w) (hpc : w.caller = some .entry) (hv : w.runStep .entry .go = some v) :
    Inv v := by
  have hf : Fresh w := by
    have hat := h.caller
    rwa [hpc] at hat
  simp only [runStep] at hv
  split at hv
  · next hl =>
    obtain rfl := Option.some.inj hv
    obtain ⟨-, hcache, hstop, -⟩ : w.lifecycle = .stoppedBeforeRun ∧
        w.cleanupResult.isSome = true ∧ w.stopRequested = true ∧ _ := by
      simpa [hl] using hf.lifecycle
    obtain ⟨cleanup, hcleanup⟩ := Option.isSome_iff_exists.mp hcache
    refine h.goto ⟨⟨cleanup, hcleanup, ?_, fun he => absurd he hf.evidence,
      fun _ => by simp [SubprocessAttempt.isInterrupted, hstop], fun r hr => by cases hr⟩,
      Or.inr ⟨hl, rfl⟩⟩
    rw [List.count_eq_zero.mpr hf.cleanup]
    omega
  · next hl =>
    obtain rfl := Option.some.inj hv
    obtain ⟨-, hcache, -, hfirst⟩ : w.lifecycle = .created ∧ w.cleanupResult = none ∧
        w.stopRequested = false ∧ Event.stoppedBeforeRun ∉ w.log := by
      simpa [hl] using hf.lifecycle
    exact h.ran ⟨⟨rfl, hcache, hf.cleanup, hfirst⟩, hf.evidence⟩ rfl (by simp [SubprocessAttempt.goto, hl, Lifecycle.isFinal])
      (fun _ => hl) (fun _ => id) rfl h.ordered
  · next hstopped hcreated =>
    rcases hf.lifecycle with ⟨hl, -⟩ | ⟨hl, -⟩
    · exact absurd hl hcreated
    · exact absurd hl hstopped

theorem inv_active {s : Stage} {reply : Reply} (h : Inv w) (hpc : w.caller = some (.active s))
    (hv : w.active s reply = some v) : Inv v := by
  have hat := h.caller
  rw [hpc] at hat
  obtain ⟨hr, he⟩ := hat
  obtain ⟨hsame, hcaller⟩ := active_proceeds hv
  obtain ⟨hcleanup, hfirst, hevidence, hordered⟩ : Event.cleanupBegan ∉ v.log ∧
      Event.stoppedBeforeRun ∉ v.log ∧ Event.evidenceStarted ∈ v.log ∧ Ordered v.log := by
    rcases hsame.log with hlog | ⟨c, hlog⟩
    · rw [hlog]
      exact ⟨hr.cleanup, hr.first, he, h.ordered⟩
    · rw [hlog]
      exact ⟨by simpa using hr.cleanup, by simpa using hr.first, List.mem_cons_of_mem _ he,
        ⟨hr.cleanup, hr.first, he⟩, h.ordered⟩
  have hrunning : Running v :=
    ⟨hsame.lifecycle.trans hr.lifecycle, hsame.cleanupResult.trans hr.uncached, hcleanup, hfirst⟩
  refine h.ran ?_ hsame.stops (by rw [hsame.lifecycle]) (fun hl => hsame.lifecycle ▸ hl)
    (fun r hc => hsame.cleanupResult.trans hc) hsame.stopRequested hordered
  rcases hcaller with ⟨s', hs', -⟩ | ⟨ended, hended, hi⟩
  · rw [hs']
    exact ⟨hrunning, hevidence⟩
  · rw [hended]
    exact ⟨hrunning, hevidence, fun hint => hsame.isInterrupted.trans (hi hint)⟩

theorem finalized_none {ended : Ended} {result : AttemptResult} {caught : Option Thrown}
    (h : finalized ended result caught = .returned none) : ended = .interrupted := by
  unfold finalized at h
  split at h
  · split at h
    · rfl
    · cases h
    · cases h
  · split at h
    · cases h
    · split at h <;> cases h

theorem finalized_some {ended : Ended} {result r : AttemptResult} {caught : Option Thrown}
    (h : finalized ended result caught = .returned (some r)) : r.cleanup = result.cleanup := by
  unfold finalized at h
  split at h
  · split at h
    · cases h
    · cases h
      rfl
    · cases h
  · split at h
    · cases h
    · split at h
      · cases h
        rfl
      · cases h

/-- The run has finalized its evidence, or failed to. -/
theorem Inv.finalized (h : Inv w) {ended : Ended} {result : AttemptResult} {caught : Option Thrown}
    (hc : Cleaning w) (hcache : w.cleanupResult = some result.cleanup)
    (hi : ended = .interrupted → w.isInterrupted = true) :
    Inv (w.goto (.finishing result.cleanup (SubprocessAttempt.finalized ended result caught))) :=
  h.goto ⟨Or.inr hc.lifecycle, hc.first, hcache, Nat.le_of_eq hc.cleanup,
    fun _ => hc.cleanup, fun he => hi (finalized_none he), fun _ he => finalized_some he⟩

theorem evidence_cleanup (w : SubprocessAttempt) (now : Rat) (cleanup : CleanupResult)
    (ended : Ended) : (w.evidence now cleanup ended).cleanup = cleanup := by
  cases ended <;> rfl

theorem inv_finalizeOnce (h : Inv w) {ended : Ended} {result : AttemptResult}
    (hc : Cleaning w) (hcache : w.cleanupResult = some result.cleanup)
    (hi : ended = .interrupted → w.isInterrupted = true) : Inv (w.finalizeOnce ended result) := by
  unfold finalizeOnce
  split
  · exact h.finalized hc hcache hi
  · exact h.ran ⟨⟨hc.lifecycle, hc.cleanup, hc.first⟩, hcache, hi⟩ rfl rfl id (fun _ => id) rfl
      h.ordered

theorem inv_settling {early : Early} (h : Inv w) (hpc : w.caller = some (.settling early)) :
    Inv ((w.cache .empty).goto (.finishing .empty (early.exit .empty))) := by
  have hat := h.caller
  rw [hpc] at hat
  obtain ⟨hr, he, hstop⟩ := hat
  refine h.ran (v := (w.cache .empty).goto (.finishing .empty (early.exit .empty)))
    ⟨Or.inl hr.lifecycle, hr.first, ?_⟩ rfl rfl id
    (fun r hc => by simp [hr.uncached] at hc) rfl h.ordered
  refine ⟨by simp [SubprocessAttempt.goto, cache, hr.uncached], ?_, fun hev => absurd hev he,
    fun hexit => ?_, fun r hexit => ?_⟩
  · show w.log.count .cleanupBegan ≤ 1
    rw [List.count_eq_zero.mpr hr.cleanup]
    omega
  · cases early with
    | stopped => exact isInterrupted_iff.mpr (Or.inr (hstop rfl))
    | failed e => cases hexit
    | raised e => cases hexit
  · cases early with
    | stopped => cases hexit
    | failed e =>
        cases hexit
        rfl
    | raised e => cases hexit

/-- The run ends, and every sleeper wakes. -/
theorem inv_finishing {cleanup : CleanupResult} {exit : Exit} (h : Inv w)
    (hpc : w.caller = some (.finishing cleanup exit)) :
    Inv (({ w.cache cleanup with lifecycle := .finished }.notifyAll).goto (.done exit)) := by
  have hat := h.caller
  rw [hpc] at hat
  obtain ⟨hl, hfirst, hs⟩ := hat
  have hcache : ∀ r, w.cleanupResult = some r → (w.cache cleanup).cleanupResult = some r :=
    fun r hr => by simp [cache, hr]
  have hopen : w.lifecycle.isFinal = false := by
    rcases hl with hl | hl <;> simp [hl, Lifecycle.isFinal]
  refine ⟨⟨⟨cleanup, hcache _ hs.cached, hs.once, hs.owned, hs.interrupted, hs.result⟩,
    Or.inl ⟨rfl, hfirst⟩⟩, fun i pc hi => ?_, h.ordered⟩
  rcases notifyAll_cases hi with ⟨hold, hne⟩ | ⟨-, rfl⟩
  · have hat := h.stops i pc hold
    cases pc with
    | entry => trivial
    | asleep => exact (hne rfl).elim
    | woken => rfl
    | returned result => exact hcache result hat
    | assertionError => exact hat
  · rfl

/-- The evidence writer has started. -/
theorem inv_opened (h : Inv w) (hr : Running w) :
    Inv (({ w with evidenceStarted := true }.note .evidenceStarted).check
      (({ w with evidenceStarted := true }.note .evidenceStarted).stage .socketProbe)) := by
  have hrunning : Running ({ w with evidenceStarted := true }.note .evidenceStarted) :=
    ⟨hr.lifecycle, hr.uncached, by simpa [note] using hr.cleanup, by simpa [note] using hr.first⟩
  have hevidence : Event.evidenceStarted ∈ Event.evidenceStarted :: w.log := List.mem_cons_self
  unfold check
  split
  · next hi =>
    refine h.ran ⟨⟨hrunning.lifecycle, hrunning.uncached, hrunning.cleanup, hrunning.first⟩,
      hevidence, fun _ => hi⟩ rfl rfl id (fun _ => id) rfl h.ordered
  · exact h.ran ⟨⟨hrunning.lifecycle, hrunning.uncached, hrunning.cleanup, hrunning.first⟩,
      hevidence⟩ rfl rfl id (fun _ => id) rfl h.ordered

theorem inv_runStep {pc : Pc} {reply : Reply} (h : Inv w) (hpc : w.caller = some pc)
    (hv : w.runStep pc reply = some v) : Inv v := by
  have hat := h.caller
  rw [hpc] at hat
  unfold runStep at hv
  split at hv
  case h_1 => exact inv_entry h hpc hv
  case h_2 =>
    obtain rfl := Option.some.inj hv
    refine h.goto ?_
    split
    · next hstop => exact ⟨hat.1, hat.2, fun _ => hstop⟩
    · exact hat
  case h_3 =>
    obtain rfl := Option.some.inj hv
    exact inv_opened h hat.1
  case h_4 e =>
    obtain rfl := Option.some.inj hv
    refine h.goto ?_
    split
    · exact ⟨hat.1, hat.2, fun he => by cases he⟩
    · exact ⟨hat.1, hat.2, fun he => by cases he⟩
  case h_5 early =>
    obtain rfl := Option.some.inj hv
    have := inv_settling h hpc
    simpa [cache, hat.1.uncached] using this
  case h_6 => exact inv_active h hpc hv
  case h_7 ended =>
    split at hv
    · next hc => simp [hat.1.uncached] at hc
    · rw [if_neg (by simp [hat.1.lifecycle])] at hv
      obtain rfl := Option.some.inj hv
      refine h.ran ⟨⟨rfl, ?_, by simpa [SubprocessAttempt.goto, note] using hat.1.first⟩,
        hat.1.uncached, hat.2.2⟩ rfl
        (by simp [SubprocessAttempt.goto, note, hat.1.lifecycle, Lifecycle.isFinal])
        (fun hl => by cases hl) (fun _ => id) rfl h.ordered
      show (Event.cleanupBegan :: w.log).count .cleanupBegan = 1
      rw [List.count_cons_self, List.count_eq_zero.mpr hat.1.cleanup]
  case h_8 ended outcome =>
    obtain rfl := Option.some.inj hv
    exact h.goto hat
  case h_9 ended result =>
    obtain rfl := Option.some.inj hv
    exact h.ran ⟨⟨hat.1.lifecycle, hat.1.cleanup, hat.1.first⟩,
      by simp [SubprocessAttempt.goto, cache, hat.2.1], hat.2.2⟩ rfl rfl id
      (fun r hr => by simp [hat.2.1] at hr) rfl h.ordered
  case h_10 ended cleanup now =>
    obtain rfl := Option.some.inj hv
    refine inv_finalizeOnce h hat.1 ?_ hat.2.2
    rw [evidence_cleanup]
    exact hat.2.1
  case h_11 =>
    obtain rfl := Option.some.inj hv
    exact h.finalized hat.1 hat.2.1 hat.2.2
  case h_12 =>
    obtain rfl := Option.some.inj hv
    exact h.finalized hat.1 hat.2.1 hat.2.2
  case h_13 =>
    obtain rfl := Option.some.inj hv
    exact inv_finishing h hpc
  case h_14 => cases hv

/-- Every action keeps the attempt's invariant. -/
theorem step_inv {a : Action} (h : Inv w) (hv : w.step a = some v) : Inv v := by
  cases a with
  | run =>
      simp only [SubprocessAttempt.step] at hv
      split at hv
      · next hnone =>
        obtain rfl := Option.some.inj hv
        have hat := h.caller
        rw [Option.isNone_iff_eq_none.mp hnone] at hat
        exact h.goto hat
      · cases hv
  | runStep reply =>
      obtain ⟨pc, hpc, hv⟩ := Option.bind_eq_some_iff.mp hv
      exact inv_runStep h hpc hv
  | stop i =>
      simp only [SubprocessAttempt.step] at hv
      split at hv
      · obtain rfl := Option.some.inj hv
        exact h.stopper i trivial
      · cases hv
  | stopStep i =>
      obtain ⟨pc, hpc, hv⟩ := Option.bind_eq_some_iff.mp hv
      exact inv_stopStep h hpc hv
  | interrupt =>
      obtain rfl := Option.some.inj hv
      exact ⟨h.caller.later rfl rfl rfl (fun _ => by simp [SubprocessAttempt.isInterrupted]) id
        fun _ => rfl, fun i pc hi => (h.stops i pc hi).later rfl id (fun _ => id) id, h.ordered⟩

/-- The invariant holds in every state of every run of a new attempt. -/
theorem reaches_inv {plan : LiveCommandPlan}
    (run : attemptSystem.Reaches System.Any (create plan) w) : Inv w :=
  run.invariant (P := Inv) (fun _ _ _ h _ hv => step_inv h hv)
    { caller := ⟨by simp [create], by simp [create], Or.inl ⟨rfl, rfl, rfl, by simp [create]⟩⟩
      stops := fun _ _ hi => (by cases hi)
      ordered := trivial }

end Steps

section Termination

theorem Stage.rank_pos (s : Stage) : 0 < s.rank := by
  cases s <;> simp only [Stage.rank] <;> first | omega | (split <;> omega)

theorem finalizeOnce_bound (w : SubprocessAttempt) (ended : Ended) (result : AttemptResult) :
    (w.finalizeOnce ended result).isInterrupted = w.isInterrupted ∧
      (w.finalizeOnce ended result).remaining < 3 := by
  unfold finalizeOnce
  split
  · exact ⟨rfl, by simp [SubprocessAttempt.remaining, SubprocessAttempt.goto, Pc.rank]⟩
  · exact ⟨rfl, by simp [SubprocessAttempt.remaining, SubprocessAttempt.goto, Pc.rank]⟩

/-- Every step of an interrupted run brings it nearer to its end. -/
theorem runStep_bound {pc : Pc} {reply : Reply} (hi : w.isInterrupted = true)
    (hv : w.runStep pc reply = some v) : v.isInterrupted = true ∧ v.remaining < pc.rank := by
  have moved : ∀ {u : SubprocessAttempt} (pc' : Pc), u.isInterrupted = w.isInterrupted →
      pc'.rank < pc.rank →
      (u.goto pc').isInterrupted = true ∧ (u.goto pc').remaining < pc.rank :=
    fun pc' hu hrank => ⟨hu.trans hi, hrank⟩
  unfold runStep at hv
  split at hv
  case h_1 =>
    split at hv <;> (obtain rfl := Option.some.inj hv; exact moved _ rfl (by simp [Pc.rank]))
  case h_2 =>
    obtain rfl := Option.some.inj hv
    refine moved _ rfl ?_
    split <;> simp [Pc.rank]
  case h_3 =>
    obtain rfl := Option.some.inj hv
    have hu : ({ w with evidenceStarted := true }.note .evidenceStarted).isInterrupted = true := hi
    unfold check
    rw [if_pos hu]
    exact moved _ rfl (by simp [Pc.rank])
  case h_4 =>
    obtain rfl := Option.some.inj hv
    exact moved _ rfl (by simp [Pc.rank])
  case h_6 =>
    obtain ⟨hsame, hcaller⟩ := active_proceeds hv
    refine ⟨hsame.isInterrupted.trans hi, ?_⟩
    unfold SubprocessAttempt.remaining
    rcases hcaller with ⟨s', hs', hrank⟩ | ⟨ended, hended, -⟩
    · have := hrank hi
      simp only [hs', Pc.rank]
      omega
    · simp only [hended, Pc.rank]
      exact Nat.lt_add_of_pos_left (Stage.rank_pos _)
  case h_7 =>
    split at hv
    · obtain rfl := Option.some.inj hv
      exact moved _ rfl (by simp [Pc.rank])
    · split at hv <;> (obtain rfl := Option.some.inj hv; exact moved _ rfl (by simp [Pc.rank]))
  case h_10 ended cleanup now =>
    obtain rfl := Option.some.inj hv
    obtain ⟨hsame, hrank⟩ := finalizeOnce_bound w ended (w.evidence now cleanup ended)
    exact ⟨hsame.trans hi, hrank⟩
  case h_14 => cases hv
  all_goals
    obtain rfl := Option.some.inj hv
    exact moved _ rfl (by simp [Pc.rank])

def Action.isRunStep : Action → Bool
  | .runStep _ => true
  | _ => false

theorem waitFor_frame (w : SubprocessAttempt) (i : Nat) :
    (w.waitFor i).caller = w.caller ∧ (w.waitFor i).isInterrupted = w.isInterrupted := by
  unfold SubprocessAttempt.waitFor
  split <;> exact ⟨rfl, rfl⟩

/-- A `stop` leaves the run where it is. -/
theorem stopStep_frame {i : Nat} {pc : StopPc} (hv : w.stopStep i pc = some v) :
    v.caller = w.caller ∧ (w.isInterrupted = true → v.isInterrupted = true) := by
  cases pc with
  | entry =>
      simp only [stopStep] at hv
      split at hv
      · obtain rfl := Option.some.inj hv
        exact ⟨rfl, fun _ => isInterrupted_iff.mpr (Or.inr rfl)⟩
      · obtain rfl := Option.some.inj hv
        exact ⟨rfl, id⟩
      · obtain rfl := Option.some.inj hv
        obtain ⟨hcaller, hi⟩ := waitFor_frame { w with
          stopRequested := true, interrupted := w.interrupted || w.activeInterrupt } i
        exact ⟨hcaller, fun _ => hi.trans (isInterrupted_iff.mpr (Or.inr rfl))⟩
  | woken =>
      obtain rfl := Option.some.inj hv
      obtain ⟨hcaller, hi⟩ := waitFor_frame w i
      exact ⟨hcaller, fun h => hi.trans h⟩
  | asleep => cases hv
  | returned result => cases hv
  | assertionError => cases hv

theorem step_bound {a : Action} (hi : w.isInterrupted = true) (hv : w.step a = some v) :
    v.isInterrupted = true ∧ v.remaining + (if a.isRunStep then 1 else 0) ≤ w.remaining := by
  cases a with
  | run =>
      simp only [SubprocessAttempt.step] at hv
      split at hv
      · next hnone =>
        obtain rfl := Option.some.inj hv
        refine ⟨hi, ?_⟩
        simp [remaining, Option.isNone_iff_eq_none.mp hnone, SubprocessAttempt.goto, Pc.rank, Action.isRunStep]
      · cases hv
  | runStep reply =>
      obtain ⟨pc, hpc, hv⟩ := Option.bind_eq_some_iff.mp hv
      obtain ⟨hi', hrank⟩ := runStep_bound hi hv
      refine ⟨hi', ?_⟩
      rw [show w.remaining = pc.rank by simp [remaining, hpc]]
      exact hrank
  | stop i =>
      simp only [SubprocessAttempt.step] at hv
      split at hv
      · obtain rfl := Option.some.inj hv
        exact ⟨hi, Nat.le_refl _⟩
      · cases hv
  | stopStep i =>
      obtain ⟨pc, -, hv⟩ := Option.bind_eq_some_iff.mp hv
      obtain ⟨hcaller, hi'⟩ := stopStep_frame hv
      exact ⟨hi' hi, by simp [remaining, hcaller, Action.isRunStep]⟩
  | interrupt =>
      obtain rfl := Option.some.inj hv
      exact ⟨isInterrupted_iff.mpr (Or.inl rfl), Nat.le_refl _⟩

/-- An interrupted run has few steps left, whatever else happens in between. -/
theorem exec_bound {acts : List Action} (hi : w.isInterrupted = true)
    (hv : attemptSystem.exec w acts = some v) :
    v.remaining + acts.countP Action.isRunStep ≤ w.remaining := by
  induction acts generalizing w with
  | nil =>
      obtain rfl := Option.some.inj hv
      exact Nat.le_refl _
  | cons a rest ih =>
      obtain ⟨u, hu, hrest⟩ := Option.bind_eq_some_iff.mp hv
      obtain ⟨hi', hbound⟩ := step_bound hi hu
      have := ih hi' hrest
      rw [List.countP_cons]
      omega

theorem remaining_le (w : SubprocessAttempt) : w.remaining ≤ 19 := by
  unfold remaining
  split
  · next pc _ =>
    cases pc with
    | active s =>
        have : s.rank ≤ 9 := by
          cases s <;> simp only [Stage.rank] <;> first | omega | (split <;> split <;> omega) | (split <;> omega)
        simp only [Pc.rank]
        omega
    | _ => simp [Pc.rank]
  · exact Nat.le_refl _

/-- No stage of `_active_lifecycle` is stuck. -/
theorem active_enabled (w : SubprocessAttempt) (s : Stage) : ∃ reply v, w.active s reply = some v := by
  cases s with
  | readinessHead => exact ⟨.tick false false false, _, rfl⟩
  | drainHead seen => exact ⟨.tick false false false, _, rfl⟩
  | drainWait seen => exact ⟨.tick false false false, _, rfl⟩
  | commanding => exact ⟨.code none, _, rfl⟩
  | publishing phase seen after => 
      cases phase <;> exact ⟨.raise ⟨.other, "x", by decide⟩, _, rfl⟩
  | _ => exact ⟨.raise ⟨.other, "x", by decide⟩, _, rfl⟩

/-- The run takes a step until it has returned or raised. -/
theorem run_enabled {pc : Pc} (hpc : w.caller = some pc) (hdone : ∀ exit, pc ≠ .done exit) :
    ∃ reply v, w.step (.runStep reply) = some v := by
  have enabled : ∃ reply v, w.runStep pc reply = some v := by
    cases pc with
    | entry =>
        refine ⟨.go, ?_⟩
        simp only [runStep]
        split <;> exact ⟨_, rfl⟩
    | active s => exact active_enabled w s
    | owning ended =>
        refine ⟨.go, ?_⟩
        simp only [runStep]
        split
        · exact ⟨_, rfl⟩
        · split <;> exact ⟨_, rfl⟩
    | cleaning ended => exact ⟨.cleanup (.ok .empty), _, rfl⟩
    | timing ended cleanup => exact ⟨.clock 0, _, rfl⟩
    | done exit => exact absurd rfl (hdone exit)
    | _ => exact ⟨.go, _, rfl⟩
  obtain ⟨reply, v, hv⟩ := enabled
  exact ⟨reply, v, by simp [SubprocessAttempt.step, hpc, hv]⟩

end Termination

section Settled

theorem returnCached_returns {result : CleanupResult} (h : w.cleanupResult = some result) (i : Nat) :
    (w.returnCached i).stops i = some (.returned result) := by
  unfold SubprocessAttempt.returnCached
  rw [h, stopper_stops, if_pos rfl]

/-- Once the attempt has ended, the next step of every `stop()` returns. -/
theorem Inv.stop_returns (h : Inv w) (hfinal : w.lifecycle.isFinal = true) {i : Nat} {pc : StopPc}
    (hpc : w.stops i = some pc) : (∃ r, pc = .returned r) ∨
      ∃ v r, w.step (.stopStep i) = some v ∧ v.stops i = some (.returned r) := by
  obtain ⟨result, hresult⟩ := Option.isSome_iff_exists.mp (h.caller.cached hfinal)
  have returns : ∀ u : SubprocessAttempt, u.cleanupResult = some result →
      w.stopStep i pc = some (u.returnCached i) →
      ∃ v r, w.step (.stopStep i) = some v ∧ v.stops i = some (.returned r) := fun u hu hv =>
    ⟨_, result, by simp [SubprocessAttempt.step, hpc, hv], returnCached_returns hu i⟩
  have hat := h.stops i pc hpc
  cases pc with
  | entry =>
      refine Or.inr ?_
      cases hl : w.lifecycle with
      | finished =>
          refine returns { w with
            stopRequested := true, interrupted := w.interrupted || w.activeInterrupt } hresult ?_
          simp [stopStep, SubprocessAttempt.waitFor, hl, Lifecycle.isFinal]
      | stoppedBeforeRun => exact returns w hresult (by simp [stopStep, hl])
      | created => simp [hl, Lifecycle.isFinal] at hfinal
      | running => simp [hl, Lifecycle.isFinal] at hfinal
      | cleaning => simp [hl, Lifecycle.isFinal] at hfinal
  | asleep => exact absurd hfinal (by simp [hat.1])
  | woken =>
      exact Or.inr (returns w hresult (by simp [stopStep, SubprocessAttempt.waitFor, hfinal]))
  | returned r => exact Or.inl ⟨r, rfl⟩
  | assertionError => exact hat.elim

/-- A sleeping `stop()` waits for a run that has been told to stop. -/
theorem Inv.asleep (h : Inv w) {i : Nat} (hpc : w.stops i = some .asleep) :
    w.isInterrupted = true ∧ ∃ pc, w.caller = some pc ∧ ∀ exit, pc ≠ .done exit := by
  obtain ⟨hopen, hstop, hcreated⟩ := h.stops i _ hpc
  refine ⟨isInterrupted_iff.mpr (Or.inr hstop), ?_⟩
  have hat := h.caller
  have fresh : ¬ Fresh w := fun hf => by
    rcases hf.lifecycle with ⟨hl, -⟩ | ⟨hl, -⟩
    · exact hcreated hl
    · simp [hl, Lifecycle.isFinal] at hopen
  cases hcaller : w.caller with
  | none =>
      rw [hcaller] at hat
      exact (fresh hat).elim
  | some pc =>
      refine ⟨pc, rfl, fun exit hdone => ?_⟩
      rw [hcaller, hdone] at hat
      rcases hat.2 with ⟨hl, -⟩ | ⟨hl, -⟩ <;> simp [hl, Lifecycle.isFinal] at hopen

theorem Inv.cleanup_le (h : Inv w) : w.log.count .cleanupBegan ≤ 1 := by
  have hat := h.caller
  have absent : Event.cleanupBegan ∉ w.log → w.log.count .cleanupBegan ≤ 1 := fun hno => by
    rw [List.count_eq_zero.mpr hno]
    omega
  cases hcaller : w.caller with
  | none =>
      rw [hcaller] at hat
      exact absent hat.cleanup
  | some pc =>
      rw [hcaller] at hat
      cases pc with
      | entry => exact absent hat.cleanup
      | opening => exact absent hat.1.cleanup
      | writerStart => exact absent hat.1.cleanup
      | settling early => exact absent hat.1.cleanup
      | active s => exact absent hat.1.cleanup
      | owning ended => exact absent hat.1.cleanup
      | cleaning ended => exact Nat.le_of_eq hat.1.cleanup
      | caching ended result => exact Nat.le_of_eq hat.1.cleanup
      | timing ended cleanup => exact Nat.le_of_eq hat.1.cleanup
      | finalizing ended result => exact Nat.le_of_eq hat.1.cleanup
      | finishing cleanup exit => exact hat.2.2.once
      | done exit =>
          obtain ⟨⟨cleanup, hs⟩, -⟩ := hat
          exact hs.once

/-- In every run of an attempt: cleanup happens at most once, and exactly once
when the evidence writer had started; a run that has ended leaves the lifecycle
in a final state, reports the cached cleanup and returns nothing only after an
interrupt; every `stop()` that returns gives the cached cleanup, a sleeping one
waits for an interrupted run with few steps left, and all return once the
lifecycle is final; children are launched only before cleanup and not after a
`stop()` that came first. -/
theorem lifecycle_settles {plan : LiveCommandPlan}
    (run : attemptSystem.Reaches System.Any (create plan) w) :
    w.log.count .cleanupBegan ≤ 1 ∧
    (∀ exit, w.caller = some (.done exit) →
      (Event.evidenceStarted ∈ w.log → w.log.count .cleanupBegan = 1) ∧
      (w.lifecycle = .finished ∧ Event.stoppedBeforeRun ∉ w.log ∨
        w.lifecycle = .stoppedBeforeRun ∧ exit = .returned none) ∧
      (exit = .returned none → w.isInterrupted = true) ∧
      ∀ r, exit = .returned (some r) → w.cleanupResult = some r.cleanup) ∧
    (∀ i pc, w.stops i = some pc → pc ≠ .assertionError ∧
      (∀ r, pc = .returned r → w.cleanupResult = some r) ∧
      (w.lifecycle.isFinal = true → (∃ r, pc = .returned r) ∨
        ∃ v r, w.step (.stopStep i) = some v ∧ v.stops i = some (.returned r)) ∧
      (pc = .asleep → w.isInterrupted = true ∧
        ∃ pc, w.caller = some pc ∧ ∀ exit, pc ≠ .done exit)) ∧
    ((∀ pc, w.caller = some pc → (∀ exit, pc ≠ .done exit) →
        ∃ reply v, w.step (.runStep reply) = some v) ∧
      (w.isInterrupted = true → ∀ acts v, attemptSystem.exec w acts = some v →
        acts.countP Action.isRunStep ≤ 19)) ∧
    ∀ newer child older, w.log = newer ++ .launched child :: older →
      Event.cleanupBegan ∉ older ∧ Event.stoppedBeforeRun ∉ older := by
  have h := reaches_inv run
  refine ⟨h.cleanup_le, fun exit hexit => ?_, fun i pc hpc => ?_, ⟨?_, ?_⟩, ?_⟩
  · have hat := h.caller
    rw [hexit] at hat
    obtain ⟨⟨cleanup, hs⟩, hl⟩ := hat
    exact ⟨hs.owned, hl, hs.interrupted, fun r hr => by rw [hs.result r hr]; exact hs.cached⟩
  · refine ⟨fun he => ?_, fun r hr => ?_, fun hfinal => h.stop_returns hfinal hpc, fun hs => ?_⟩
    · subst he
      exact h.stops i _ hpc
    · exact h.stops i (.returned r) (hr ▸ hpc)
    · exact h.asleep (hs ▸ hpc)
  · exact fun pc hpc hdone => run_enabled hpc hdone
  · intro hi acts v hv
    have := exec_bound hi hv
    have := remaining_le w
    omega
  · intro newer child older hlog
    have hordered := h.ordered
    rw [hlog] at hordered
    exact ⟨hordered.older.1.1, hordered.older.1.2.1⟩

/-- Two `stop()` calls come in while the first child is being started. -/
def stoppedTwice : List Action :=
  [.run, .runStep .go, .runStep .go, .runStep .go, .runStep (.answer false), .runStep .go,
    .runStep .go, .stop 0, .stopStep 0, .stop 1, .stopStep 1, .runStep .go,
    .runStep (.tick false false false), .runStep .go, .runStep (.cleanup (.ok .empty)),
    .runStep .go, .runStep (.clock 0), .runStep .go, .runStep .go, .stopStep 0]

theorem lifecycle_settles_stoppedTwice :
    ∃ w, attemptSystem.exec (create ⟨true, true, true⟩) stoppedTwice = some w ∧
      Event.launched .xvfb ∈ w.log ∧ w.caller = some (.done (.returned none)) ∧
      w.log.count .cleanupBegan = 1 ∧ w.isInterrupted = true ∧
      w.cleanupResult = some .empty ∧ ∃ v r, w.step (.stopStep 1) = some v ∧
        v.stops 1 = some (.returned r) := by
  have hexec : (attemptSystem.exec (create ⟨true, true, true⟩) stoppedTwice).any (fun w =>
      (Event.launched .xvfb ∈ w.log ∧ w.caller = some (.done (.returned none)) ∧
        Event.evidenceStarted ∈ w.log) ∧ w.lifecycle.isFinal = true ∧
        w.stops 0 = some (.returned .empty) ∧ w.stops 1 = some .woken) = true := by
    decide +kernel
  obtain ⟨w, hw, hall⟩ := (Option.any_eq_true ..).mp hexec
  obtain ⟨⟨hlaunched, hdone, hevidence⟩, hfinal, hfirst, hsecond⟩ := of_decide_eq_true hall
  obtain ⟨-, hruns, hstops, -⟩ := lifecycle_settles (System.reaches_of_exec hw)
  obtain ⟨honce, -, hinterrupted, -⟩ := hruns _ hdone
  rcases (hstops 1 _ hsecond).2.2.1 hfinal with ⟨r, hr⟩ | hreturns
  · cases hr
  · exact ⟨w, hw, hlaunched, hdone, honce hevidence, hinterrupted rfl,
      (hstops 0 _ hfirst).2.1 _ rfl, hreturns⟩

end Settled

end HccastWired.Live.SubprocessAttempt
