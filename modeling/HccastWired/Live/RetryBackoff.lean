import HccastWired.Live.StatusTruth
import HccastWired.Live.SupervisorSafety

/-!
# Failed attempts and the waits between them

A journal of what the worker does about attempts decides how long the supervisor owes a
wait. The supervisor never tries again before that wait ran out, and publishes exactly it.
-/

namespace HccastWired.Live

open Foundation

/-- The wait after so many failed attempts in a row. -/
def backoffDelay : Nat → Rat
  | 0 => 0
  | 1 => 2
  | 2 => 4
  | 3 => 8
  | 4 => 16
  | _ => 30

/-- What is seen of the supervisor from outside. A failed attempt comes with its generation
and with the time for which it streamed. -/
inductive Mark
  | generationBegan
  | attempting (generation : Int)
  | failed (generation : Int) (streamed : Rat)
  | waiting (delay : Rat) (phase : RuntimePhase) (retryCount : Nat)
  | ranOut
deriving DecidableEq

/-- What stands between a failed attempt and the next one. -/
inductive Owed
  | nothing
  | wait
  | waiting
deriving DecidableEq

/-- The current generation, its failed attempts that count, and what is owed for the last. -/
structure Backoff where
  generation : Int
  failures : Nat
  owed : Owed
deriving DecidableEq

namespace Backoff

def start : Backoff := ⟨0, 0, .nothing⟩

/-- A failure of an earlier generation does not count, and one that streamed for long enough
counts as the first. -/
def add (b : Backoff) : Mark → Backoff
  | .generationBegan => ⟨b.generation + 1, 0, .nothing⟩
  | .attempting _ => b
  | .failed generation streamed =>
      if generation = b.generation then
        ⟨b.generation, if 60 ≤ streamed then 1 else b.failures + 1, .wait⟩
      else b
  | .waiting _ _ _ => { b with owed := .waiting }
  | .ranOut => { b with owed := .nothing }

/-- A wait is the one that is owed, and an attempt is made where nothing is owed. -/
def Fits (b : Backoff) : Mark → Prop
  | .waiting delay phase retryCount =>
      b.owed = .wait ∧ 1 ≤ b.failures ∧ delay = backoffDelay b.failures ∧
        phase = .retrying ∧ retryCount = min b.failures 5
  | .attempting generation => generation = b.generation ∧ b.owed = .nothing
  | _ => True

/-- A step that may show nothing. -/
def see (b : Backoff) : Option Mark → Backoff
  | none => b
  | some mark => b.add mark

def after (journal : List Mark) : Backoff := journal.foldl add start

end Backoff

/-- What a step of the worker shows, with the status that it leaves. -/
def observeWork (k : Worker) (reply : Reply) (k' : Worker) (status : RuntimeStatus) :
    Option Mark :=
  match k.pc, reply, k'.pc with
  | .ready, _, .creating _ => some (.attempting k.appliedGeneration)
  | .creating _, .created (.error _), _ => some (.failed k.appliedGeneration 0)
  | .running _ _, _, .ending _ (some r) =>
      if r.classification = .failure then
        some (.failed k.appliedGeneration r.streamingDuration)
      else none
  | .stopping _ _, _, .ending _ (some r) =>
      if r.classification = .failure then
        some (.failed k.appliedGeneration r.streamingDuration)
      else none
  | .failed _, _, .retryWait delay => some (.waiting delay status.phase status.retryCount)
  | .retryWait _, .waited false, _ => some .ranOut
  | _, _, _ => none

/-- What a step shows. -/
def observe (w : Supervisor) (a : Action) (v : Supervisor) : Option Mark :=
  if v.generation ≠ w.generation then some .generationBegan
  else
    match a, w.worker, v.worker with
    | .work reply, some k, some k' => observeWork k reply k' v.status
    | _, _, _ => none

/-- A supervisor with the journal of its run, the oldest mark first. -/
structure Journaled where
  supervisor : Supervisor
  journal : List Mark

/-- The supervisor, watched. -/
def journaledSystem : System Journaled Action where
  step x a := (x.supervisor.step a).map fun v => ⟨v, x.journal ++ (observe x.supervisor a v).toList⟩

/-- `WaitStrategy.wait` returns true only when it was interrupted. -/
def HonestWait (x : Journaled) (a : Action) : Prop :=
  a = .work (.waited true) → ∀ k ∈ x.supervisor.worker, x.supervisor.outdated k = true

/-- Every wait and every attempt of the journal fits what was before it. -/
def Paced (journal : List Mark) : Prop :=
  ∀ before mark later, journal = before ++ mark :: later → (Backoff.after before).Fits mark

/-! ## What each program counter stands for -/

section Invariant

variable {w v : Supervisor} {k : Worker} {b : Backoff}

/-- The retry index from which the next delay is taken. -/
def nextIndex (k : Worker) (r : AttemptResult) : Nat :=
  if retryResetSeconds ≤ r.streamingDuration then 0 else k.retryIndex

/-- The result of an attempt is still to be dealt with. -/
def Taken (k : Worker) (b : Backoff) : Option AttemptResult → Prop
  | none => b.owed = .nothing ∧ k.retryIndex = min b.failures 4
  | some r =>
      if r.classification = .failure then
        b.owed = .wait ∧ 1 ≤ b.failures ∧ nextIndex k r = min (b.failures - 1) 4
      else b.owed = .nothing

/-- An attempt can be made or is being made. -/
structure Free (w : Supervisor) (k : Worker) (b : Backoff) : Prop where
  owed : b.owed = .nothing
  index : k.retryIndex = min b.failures 4
  mode : w.config.mode ≠ .stopped

/-- A failed attempt is followed by its wait. -/
structure Owes (k : Worker) (b : Backoff) (owed : Owed) : Prop where
  owed : b.owed = owed
  failures : 1 ≤ b.failures
  index : k.retryIndex = min (b.failures - 1) 4

/-- What holds at each program counter in the worker's own generation, while the supervisor
is open. -/
def PaceAt (w : Supervisor) (k : Worker) (b : Backoff) : Pc → Prop
  | .reconciling => Taken k b (w.takeResult k)
  | .settling _ => Taken k b (w.takeResult k)
  | .waiting => b.owed = .nothing ∨ ∃ cleanup ∈ w.unresolvedCleanup, cleanup.success = false
  | .completed _ => b.owed = .nothing
  | .failed delay => Owes k b .wait ∧ delay = backoffDelay b.failures
  | .retryWait _ => Owes k b .waiting
  | .retried => Free w k b
  | .ready => Free w k b
  | .creating _ => Free w k b
  | .installing _ _ => Free w k b
  | .launching _ _ => Free w k b
  | .running _ _ => Free w k b
  | .stopping _ _ => Free w k b
  | .ending _ result => Taken k b result
  | _ => True

structure WorkerPace (w : Supervisor) (k : Worker) (b : Backoff) : Prop where
  applied : k.appliedGeneration ≤ w.generation
  pending : ∀ g ∈ k.pendingGeneration, g ≤ k.appliedGeneration
  later : k.appliedGeneration < w.generation → b.failures = 0 ∧ b.owed = .nothing
  current : w.closing = false → k.appliedGeneration = w.generation → PaceAt w k b k.pc

structure Pace (w : Supervisor) (b : Backoff) : Prop where
  generation : b.generation = w.generation
  active : w.closing = false → 1 ≤ b.failures → w.config.mode ≠ .stopped
  unbegun : w.worker = none → b.failures = 0 ∧ b.owed = .nothing ∧ 0 ≤ w.generation
  worker : ∀ k ∈ w.worker, WorkerPace w k b

/-! ## Steps of the worker -/

/-- The worker goes on under its invariant, and what is seen of it fits. -/
structure Paces (w v : Supervisor) (b : Backoff) (mark : Option Mark) : Prop where
  fits : ∀ m ∈ mark, b.Fits m
  generation : (b.see mark).generation = v.generation
  active : v.closing = false → 1 ≤ (b.see mark).failures → v.config.mode ≠ .stopped
  worker : ∃ k', v.worker = some k' ∧ WorkerPace v k' (b.see mark)

theorem observe_work {k' : Worker} {reply : Reply} (hw : w.worker = some k)
    (hv : v.worker = some k') (hgen : v.generation = w.generation) :
    observe w (.work reply) v = observeWork k reply k' v.status := by
  simp [observe, hw, hv, hgen]

theorem observe_began {a : Action} (hchanged : v.generation ≠ w.generation) :
    observe w a v = some .generationBegan :=
  if_pos hchanged

/-- The step shows nothing, and the generation stays. -/
theorem paces_quiet {k' : Worker} (hgen : b.generation = w.generation)
    (hactive : w.closing = false → 1 ≤ b.failures → w.config.mode ≠ .stopped) (h : WorkerPace w k b)
    (hgeneration : v.generation = w.generation) (hmode : v.config.mode = w.config.mode)
    (hclosing : v.closing = false → w.closing = false) (hworker : v.worker = some k')
    (happlied : k'.appliedGeneration = k.appliedGeneration)
    (hpending : ∀ g ∈ k'.pendingGeneration, g ≤ k'.appliedGeneration)
    (hat : w.closing = false → k.appliedGeneration = w.generation → PaceAt w k b k.pc →
      PaceAt v k' b k'.pc) : Paces w v b none where
  fits m hm := by cases hm
  generation := hgen.trans hgeneration.symm
  active hopen hone := by
    rw [hmode]
    exact hactive (hclosing hopen) hone
  worker := by
    refine ⟨k', hworker, ?_⟩
    constructor
    · rw [happlied, hgeneration]
      exact h.applied
    · exact hpending
    · intro hlater
      rw [happlied, hgeneration] at hlater
      exact h.later hlater
    · intro hopen hcurrent
      rw [happlied, hgeneration] at hcurrent
      exact hat (hclosing hopen) hcurrent (h.current (hclosing hopen) hcurrent)

/-- The worker begins a new round because a command has come in. -/
theorem paces_outdated {k' : Worker} (hgen : b.generation = w.generation)
    (hactive : w.closing = false → 1 ≤ b.failures → w.config.mode ≠ .stopped) (h : WorkerPace w k b)
    (hout : w.outdated k = true) (happlied : k'.appliedGeneration = k.appliedGeneration)
    (hpending : k'.pendingGeneration = k.pendingGeneration) :
    Paces w (w.reconcile k') b none := by
  apply @paces_quiet w (w.reconcile k') k b { k' with pc := .reconciling } hgen hactive h rfl rfl
    id rfl happlied
  · change ∀ g ∈ k'.pendingGeneration, g ≤ k'.appliedGeneration
    rw [hpending, happlied]
    exact h.pending
  · intro hopen hcurrent
    obtain hclosed | hchanged := outdated_iff.mp hout
    · rw [hopen] at hclosed
      cases hclosed
    · exact absurd hcurrent.symm hchanged

/-- A step in which nothing is seen. -/
theorem paces_silent {reply : Reply} (hw : w.worker = some k) (hgen : b.generation = w.generation)
    (h : Paces w v b none)
    (hmark : ∀ k' ∈ v.worker, observeWork k reply k' v.status = none) :
    Paces w v b (observe w (.work reply) v) := by
  obtain ⟨k', hworker, -⟩ := h.worker
  rw [observe_work hw hworker (h.generation.symm.trans hgen), hmark k' hworker]
  exact h

/-- A step in which something is seen. -/
theorem paces_seen {k' : Worker} {reply : Reply} {mark : Option Mark} (hw : w.worker = some k)
    (h : Paces w v b mark) (hworker : v.worker = some k') (hgen : v.generation = w.generation)
    (hmark : observeWork k reply k' v.status = mark) :
    Paces w v b (observe w (.work reply) v) := by
  rw [observe_work hw hworker hgen, hmark]
  exact h

/-- The delay is the one that the number of failures asks for. -/
theorem delay_of_index {failures index : Nat} (hone : 1 ≤ failures)
    (hindex : index = min (failures - 1) 4) :
    retryDelays.getD (min index (retryDelays.length - 1)) 0 = backoffDelay failures := by
  subst hindex
  obtain ⟨before, rfl⟩ := Nat.exists_eq_add_of_le hone
  match before with
  | 0 => rfl
  | 1 => rfl
  | 2 => rfl
  | 3 => rfl
  | n + 4 =>
      have hmin : min (min (1 + (n + 4) - 1) 4) (retryDelays.length - 1) = 4 := by
        have hlength : retryDelays.length = 5 := rfl
        omega
      rw [hmin, show 1 + (n + 4) = n + 5 by omega]
      rfl

/-- A failed attempt of the worker's generation is counted, and its wait is owed. -/
theorem taken_failed {r : AttemptResult} (hfree : Free w k b)
    (hgen : k.appliedGeneration = b.generation) :
    Taken k (b.see (if r.classification = .failure then
      some (.failed k.appliedGeneration r.streamingDuration) else none)) (some r) := by
  rw [Taken]
  split
  · next hfailure =>
    simp only [Backoff.see, Backoff.add, hgen, if_true, nextIndex]
    by_cases hlong : 60 ≤ r.streamingDuration
    · have hreset : retryResetSeconds ≤ r.streamingDuration := hlong
      simp [hlong, hreset]
    · have hreset : ¬ retryResetSeconds ≤ r.streamingDuration := hlong
      rw [if_neg hlong, if_neg hreset, Nat.add_sub_cancel]
      exact ⟨trivial, Nat.le_add_left 1 b.failures, hfree.index⟩
  · exact hfree.owed

/-- A failure shows itself at the end of an attempt. -/
theorem paces_failed {k' : Worker} {streamed : Rat} (hgen : b.generation = w.generation)
    (hactive : w.closing = false → 1 ≤ b.failures → w.config.mode ≠ .stopped) (h : WorkerPace w k b)
    (hmode : w.closing = false → k.appliedGeneration = w.generation → w.config.mode ≠ .stopped)
    (hgeneration : v.generation = w.generation) (hconfig : v.config = w.config)
    (hclosing : v.closing = w.closing) (hworker : v.worker = some k')
    (happlied : k'.appliedGeneration = k.appliedGeneration)
    (hpending : ∀ g ∈ k'.pendingGeneration, g ≤ k'.appliedGeneration)
    (hat : w.closing = false → k.appliedGeneration = w.generation →
      PaceAt v k' (b.add (.failed k.appliedGeneration streamed)) k'.pc) :
    Paces w v b (some (.failed k.appliedGeneration streamed)) where
  fits m hm := by
    obtain rfl := Option.some.inj hm
    trivial
  generation := by
    rw [Backoff.see, Backoff.add, hgeneration, ← hgen]
    split <;> rfl
  active hopen hone := by
    rw [hclosing] at hopen
    rw [hconfig]
    by_cases hcurrent : k.appliedGeneration = w.generation
    · exact hmode hopen hcurrent
    · rw [Backoff.see, Backoff.add, if_neg (fun heq => hcurrent (heq.trans hgen))] at hone
      exact hactive hopen hone
  worker := by
    refine ⟨k', hworker, ?_⟩
    constructor
    · rw [happlied, hgeneration]
      exact h.applied
    · exact hpending
    · intro hlater
      rw [happlied, hgeneration] at hlater
      have hother : k.appliedGeneration ≠ b.generation := by
        rw [hgen]
        omega
      rw [Backoff.see, Backoff.add, if_neg hother]
      exact h.later hlater
    · intro hopen hcurrent
      rw [happlied, hgeneration] at hcurrent
      rw [hclosing] at hopen
      exact hat hopen hcurrent

/-! ### One step -/

/-- The worker has taken up the current generation. -/
theorem paces_settled {k' : Worker} (hgen : b.generation = v.generation)
    (hactive : v.closing = false → 1 ≤ b.failures → v.config.mode ≠ .stopped)
    (hworker : v.worker = some k') (happlied : k'.appliedGeneration = v.generation)
    (hpending : ∀ g ∈ k'.pendingGeneration, g ≤ k'.appliedGeneration)
    (hat : v.closing = false → PaceAt v k' b k'.pc) : Paces w v b none where
  fits m hm := by cases hm
  generation := hgen
  active := hactive
  worker := by
    refine ⟨k', hworker, Int.le_of_eq happlied, hpending, ?_, fun hopen _ => hat hopen⟩
    intro hlater
    rw [happlied] at hlater
    exact absurd hlater (Int.lt_irrefl _)

/-- The section goes on with a result that is still to be dealt with. -/
theorem paces_proceed {result : Option AttemptResult} (hgen : b.generation = w.generation)
    (hactive : w.closing = false → 1 ≤ b.failures → w.config.mode ≠ .stopped)
    (happlied : k.appliedGeneration = w.generation) (hopen : w.closing = false)
    (htaken : Taken k b result) : Paces v (w.proceed k result) b none := by
  unfold Supervisor.proceed
  dsimp only
  split
  · next hstopped =>
    refine paces_settled hgen hactive rfl happlied ?_ ?_
    · exact fun g hg => by cases hg
    · intro _
      left
      have hzero : ¬ 1 ≤ b.failures := fun hone => hactive hopen hone hstopped
      cases result with
      | none => exact htaken.1
      | some r =>
          rw [Taken] at htaken
          split at htaken
          · exact absurd htaken.2.1 hzero
          · exact htaken
  · next hmode =>
    cases result with
    | none =>
        refine paces_settled hgen hactive rfl happlied ?_ ?_
        · exact fun g hg => by cases hg
        · exact fun _ => ⟨htaken.1, htaken.2, hmode⟩
    | some r =>
        rw [Taken] at htaken
        dsimp only
        split
        · next hcompleted =>
          rw [if_neg hcompleted] at htaken
          refine paces_settled hgen hactive rfl happlied ?_ ?_
          · exact fun g hg => by cases hg
          · exact fun _ => htaken
        · next hfailure =>
          rw [if_pos (not_not.mp hfailure)] at htaken
          obtain ⟨howed, hone, hindex⟩ := htaken
          refine paces_settled hgen hactive rfl happlied ?_ ?_
          · exact fun g hg => by cases hg
          · exact fun _ => ⟨⟨howed, hone, hindex⟩, delay_of_index hone hindex⟩

theorem paces_settle {baseline : CleanupResult} (hgen : b.generation = w.generation)
    (hactive : w.closing = false → 1 ≤ b.failures → w.config.mode ≠ .stopped)
    (h : WorkerPace w k b) (hpc : k.pc = .settling baseline) :
    Paces w (w.settle k baseline) b none := by
  have hzero : w.generation ≠ k.appliedGeneration → b.failures = 0 ∧ b.owed = .nothing :=
    fun hchanged => h.later (lt_of_le_of_ne h.applied (Ne.symm hchanged))
  unfold Supervisor.settle
  dsimp only
  split
  · next hclosing =>
    obtain ⟨-, hgeneration, hkept, -, -, -, -, hconfig⟩ := publishClosed_frame w
      (w.withUnresolved (k.pendingCleanup.merge baseline))
    refine paces_settled (hgen.trans hgeneration.symm) ?_ rfl hgeneration.symm ?_ ?_
    · intro hopen
      rw [← hkept, show (w.publishClosed _).closing = false from hopen] at hclosing
      cases hclosing
    · exact fun g hg => (h.pending g hg).trans h.applied
    · exact fun _ => trivial
  · next hopened =>
    have hopen : w.closing = false := by simpa using hopened
    split
    · refine paces_settled hgen hactive rfl rfl ?_ ?_
      · exact fun g hg => by cases hg
      · intro _
        right
        exact ⟨_, rfl, withUnresolved_failed ‹_›⟩
    · refine paces_proceed hgen hactive rfl hopen ?_
      by_cases hcurrent : k.appliedGeneration = w.generation
      · have hat := h.current hopen hcurrent
        rw [hpc] at hat
        change Taken _ b (w.takeResult k)
        rw [if_neg (not_not.mpr hcurrent.symm)]
        exact hat
      · obtain ⟨hnone, hnothing⟩ := hzero (Ne.symm hcurrent)
        have hresult : w.takeResult k = none := by
          rw [Supervisor.takeResult, if_neg]
          intro hpending
          have hle := h.pending w.generation hpending
          exact hcurrent (Int.le_antisymm h.applied hle)
        change Taken _ b (w.takeResult k)
        rw [hresult, if_pos (Ne.symm hcurrent)]
        exact ⟨hnothing, by rw [hnone]; rfl⟩

/-- A free worker goes from one step of an attempt to the next. -/
theorem paces_free {k' : Worker} (hgen : b.generation = w.generation)
    (hactive : w.closing = false → 1 ≤ b.failures → w.config.mode ≠ .stopped)
    (h : WorkerPace w k b)
    (hfree : w.closing = false → k.appliedGeneration = w.generation → Free w k b)
    (hgeneration : v.generation = w.generation) (hconfig : v.config = w.config)
    (hclosing : v.closing = w.closing) (hworker : v.worker = some k')
    (happlied : k'.appliedGeneration = k.appliedGeneration)
    (hindex : k'.retryIndex = k.retryIndex)
    (hpending : k'.pendingGeneration = k.pendingGeneration)
    (hat : Free v k' b → PaceAt v k' b k'.pc) : Paces w v b none := by
  refine paces_quiet hgen hactive h hgeneration (by rw [hconfig]) (fun hopen => hclosing ▸ hopen)
    hworker happlied ?_ ?_
  · rw [hpending, happlied]
    exact h.pending
  · intro hopen hcurrent _
    obtain ⟨howed, hretry, hmode⟩ := hfree hopen hcurrent
    exact hat ⟨howed, hindex.trans hretry, hconfig ▸ hmode⟩

/-- An exception leaves the loop. -/
theorem paces_die {error : Raised} (hgen : b.generation = w.generation)
    (hactive : w.closing = false → 1 ≤ b.failures → w.config.mode ≠ .stopped)
    (h : WorkerPace w k b) : Paces w (w.die k error) b none :=
  paces_quiet hgen hactive h rfl rfl id rfl rfl h.pending fun _ _ _ => trivial

/-- The attempt has ended, and its result shows whether it failed. -/
theorem paces_ended {r : AttemptResult} {cleanup : CleanupResult} {attempt : Nat}
    {events : List Event} (hgen : b.generation = w.generation)
    (hactive : w.closing = false → 1 ≤ b.failures → w.config.mode ≠ .stopped)
    (h : WorkerPace w k b)
    (hfree : w.closing = false → k.appliedGeneration = w.generation → Free w k b) :
    Paces w (({ w with log := events }).finishAttempt k attempt (some r) cleanup) b
      (if r.classification = .failure then
        some (.failed k.appliedGeneration r.streamingDuration) else none) := by
  by_cases hfailure : r.classification = .failure
  · rw [if_pos hfailure]
    refine paces_failed hgen hactive h (fun hopen hcurrent => (hfree hopen hcurrent).mode)
      rfl rfl rfl rfl rfl h.pending ?_
    intro hopen hcurrent
    have htaken := taken_failed (r := r) (hfree hopen hcurrent) (hcurrent.trans hgen.symm)
    rw [if_pos hfailure] at htaken
    exact htaken
  · rw [if_neg hfailure]
    refine paces_quiet hgen hactive h rfl rfl id rfl rfl h.pending ?_
    intro hopen hcurrent _
    change Taken _ b (some r)
    rw [Taken, if_neg hfailure]
    exact (hfree hopen hcurrent).owed

/-- The wait that is owed begins. -/
theorem paces_waiting {k' : Worker} {delay : Rat} (hgen : b.generation = w.generation)
    (hactive : w.closing = false → 1 ≤ b.failures → w.config.mode ≠ .stopped)
    (hpending : ∀ g ∈ k.pendingGeneration, g ≤ k.appliedGeneration)
    (hcurrent : w.generation = k.appliedGeneration) (howes : Owes k b .wait)
    (hdelay : delay = backoffDelay b.failures) (hgeneration : v.generation = w.generation)
    (hconfig : v.config = w.config) (hclosing : v.closing = w.closing)
    (hworker : v.worker = some k') (hk' : k' = { k with pc := .retryWait delay }) :
    Paces w v b (some (.waiting delay .retrying (k.retryIndex + 1))) where
  fits m hm := by
    obtain rfl := Option.some.inj hm
    obtain ⟨howed, hone, hindex⟩ := howes
    refine ⟨howed, hone, hdelay, rfl, ?_⟩
    rw [hindex]
    omega
  generation := hgen.trans hgeneration.symm
  active hopen hone := by
    rw [hclosing] at hopen
    rw [hconfig]
    exact hactive hopen hone
  worker := by
    subst hk'
    refine ⟨_, hworker, ?_, hpending, ?_, ?_⟩
    · rw [hgeneration]
      exact Int.le_of_eq hcurrent.symm
    · intro hlater
      rw [hgeneration, hcurrent] at hlater
      exact absurd hlater (Int.lt_irrefl _)
    · exact fun _ _ => ⟨rfl, howes.failures, howes.index⟩

/-- The wait ran out. -/
theorem paces_ranOut {k' : Worker} {delay : Rat} (hgen : b.generation = w.generation)
    (hactive : w.closing = false → 1 ≤ b.failures → w.config.mode ≠ .stopped)
    (h : WorkerPace w k b) (hpc : k.pc = .retryWait delay)
    (hk' : k' = { k with
      retryIndex := min (k.retryIndex + 1) (retryDelays.length - 1), pc := .retried }) :
    Paces w (w.withWorker k') b (some .ranOut) where
  fits m hm := by
    obtain rfl := Option.some.inj hm
    trivial
  generation := hgen
  active := hactive
  worker := by
    subst hk'
    refine ⟨_, rfl, h.applied, h.pending, fun hlater => ⟨(h.later hlater).1, rfl⟩, ?_⟩
    intro hopen hcurrent
    have hat := h.current hopen hcurrent
    rw [hpc] at hat
    obtain ⟨-, hone, hindex⟩ := hat
    refine ⟨rfl, ?_, hactive hopen hone⟩
    have hlength : retryDelays.length = 5 := rfl
    change min (k.retryIndex + 1) (retryDelays.length - 1) = min b.failures 4
    rw [hindex, hlength]
    omega

/-- An attempt begins where nothing is owed. -/
theorem paces_attempting {k' : Worker} (hgen : b.generation = w.generation)
    (hactive : w.closing = false → 1 ≤ b.failures → w.config.mode ≠ .stopped)
    (h : WorkerPace w k b) (hcurrent : w.generation = k.appliedGeneration) (hfree : Free w k b)
    (hk' : k' = { k with pc := .creating w.config }) :
    Paces w (w.withWorker k') b (some (.attempting k.appliedGeneration)) where
  fits m hm := by
    obtain rfl := Option.some.inj hm
    exact ⟨(hgen.trans hcurrent).symm, hfree.owed⟩
  generation := hgen
  active := hactive
  worker := by
    subst hk'
    exact ⟨_, rfl, h.applied, h.pending, h.later,
      fun _ _ => ⟨hfree.owed, hfree.index, hfree.mode⟩⟩

/-- The creation of an attempt has failed. -/
theorem paces_createRaised {e : Raised} (hgen : b.generation = w.generation)
    (hactive : w.closing = false → 1 ≤ b.failures → w.config.mode ≠ .stopped)
    (h : WorkerPace w k b)
    (hfree : w.closing = false → k.appliedGeneration = w.generation → Free w k b) :
    Paces w ((w.note (.createRaised k.appliedGeneration)).reconcile { k with
        pendingResult := some (.ofException e .empty)
        pendingGeneration := some k.appliedGeneration }) b
      (some (.failed k.appliedGeneration 0)) := by
  refine paces_failed hgen hactive h (fun hopen hcurrent => (hfree hopen hcurrent).mode) rfl rfl rfl
    rfl rfl ?_ ?_
  · intro g hg
    obtain rfl := Option.some.inj hg
    exact Int.le_refl _
  · intro hopen hcurrent
    have htaken := @taken_failed w k b (.ofException e .empty) (hfree hopen hcurrent)
      (hcurrent.trans hgen.symm)
    change Taken k (b.add (.failed k.appliedGeneration 0))
      (if some k.appliedGeneration = some w.generation then some (.ofException e .empty) else none)
    rw [if_pos (congrArg some hcurrent)]
    exact htaken

/-- The next round begins with the result of the attempt. -/
theorem paces_clearAttempt {attempt : Nat} {result : Option AttemptResult}
    (hgen : b.generation = w.generation)
    (hactive : w.closing = false → 1 ≤ b.failures → w.config.mode ≠ .stopped)
    (h : WorkerPace w k b) (hpc : k.pc = .ending attempt result) :
    Paces w (w.clearAttempt k attempt result) b none := by
  have next : ∀ u : Supervisor, u.generation = w.generation → u.config = w.config →
      u.closing = w.closing → Paces w (u.reconcile { k with
        pendingResult := result
        pendingGeneration := if result.isSome then some k.appliedGeneration else none }) b
          none := by
    intro u hgeneration hconfig hclosing
    refine paces_quiet hgen hactive h hgeneration (congrArg LiveConfig.mode hconfig)
      (fun hopen => hclosing ▸ hopen) rfl rfl ?_ ?_
    · intro g hg
      split at hg
      · obtain rfl := Option.some.inj hg
        exact Int.le_refl _
      · cases hg
    · intro hopen hcurrent hat
      rw [hpc] at hat
      change Taken k b (if (if result.isSome then some k.appliedGeneration else none) =
        some u.generation then result else none)
      rw [hgeneration, ← hcurrent]
      cases result with
      | none => exact hat
      | some r =>
          rw [Option.isSome_some, if_pos rfl, if_pos rfl]
          exact hat
  unfold Supervisor.clearAttempt
  dsimp only
  split <;> split <;> exact next _ rfl rfl rfl

/-- The worker closes the supervisor after its own exception. -/
theorem paces_workerFailed {error : Raised} (hgen : b.generation = w.generation)
    (h : WorkerPace w k b) :
    (w.workerFailed k error).generation ≠ w.generation ∧
      Paces w (w.workerFailed k error) b (some .generationBegan) := by
  obtain ⟨-, hgeneration, -, hclosing, -⟩ :=
    interruptAttempt_frame ({ w with closing := true } : Supervisor).bump
  have hnext : (w.workerFailed k error).generation = w.generation + 1 := hgeneration
  have hclosed : (w.workerFailed k error).closing = true := hclosing
  have happlied := h.applied
  constructor
  · omega
  constructor
  · intro m hm
    obtain rfl := Option.some.inj hm
    trivial
  · change b.generation + 1 = _
    omega
  · intro hopen
    rw [hclosed] at hopen
    cases hopen
  · refine ⟨_, rfl, ?_, h.pending, fun _ => ⟨rfl, rfl⟩, ?_⟩
    · change k.appliedGeneration ≤ _
      omega
    · intro hopen
      rw [hclosed] at hopen
      cases hopen

/-- The attempt is installed unless a command has come in. -/
theorem paces_install {attempt : Nat} {config : LiveConfig} {now : Except Raised UtcTime}
    (hgen : b.generation = w.generation)
    (hactive : w.closing = false → 1 ≤ b.failures → w.config.mode ≠ .stopped)
    (h : WorkerPace w k b)
    (hfree : w.closing = false → k.appliedGeneration = w.generation → Free w k b) :
    Paces w (w.install k attempt config now) b none := by
  unfold Supervisor.install
  dsimp only
  split
  · next hout => exact paces_outdated hgen hactive h hout rfl rfl
  · split
    · exact paces_quiet hgen hactive h rfl rfl id rfl rfl h.pending fun _ _ _ => trivial
    · exact paces_free hgen hactive h hfree rfl rfl rfl rfl rfl rfl rfl id

/-- Every step of the worker keeps the invariant, and what is seen of it fits. -/
theorem paces_work {reply : Reply} (hw : w.worker = some k) (hgen : b.generation = w.generation)
    (hactive : w.closing = false → 1 ≤ b.failures → w.config.mode ≠ .stopped)
    (h : WorkerPace w k b) (hhonest : reply = .waited true → w.outdated k = true)
    (hv : w.work k k.pc reply = some v) : Paces w v b (observe w (.work reply) v) := by
  have hat : w.closing = false → k.appliedGeneration = w.generation → PaceAt w k b k.pc :=
    h.current
  -- a command has come in, or the worker goes on
  have houtdated : ∀ {next : Supervisor}, (∀ k' ∈ (w.reconcile k).worker,
      observeWork k reply k' (w.reconcile k).status = none) →
      (¬ w.outdated k = true → Paces w next b (observe w (.work reply) next)) →
      Paces w (if w.outdated k then w.reconcile k else next) b
        (observe w (.work reply) (if w.outdated k then w.reconcile k else next)) := by
    intro next hsilent hnext
    split
    · next hout => exact paces_silent hw hgen (paces_outdated hgen hactive h hout rfl rfl) hsilent
    · next hout => exact hnext hout
  unfold Supervisor.work at hv
  split at hv
  case h_1 outcome hpc =>
    rw [hpc] at hat
    obtain rfl := Option.some.inj hv
    refine paces_silent hw hgen ?_ fun k' _ => by simp [observeWork, hpc]
    exact paces_quiet hgen hactive h rfl rfl id rfl rfl h.pending fun hopen hcurrent _ =>
      hat hopen hcurrent
  case h_2 baseline _ hpc =>
    obtain rfl := Option.some.inj hv
    exact paces_silent hw hgen (paces_settle hgen hactive h hpc) fun k' _ => by
      simp [observeWork, hpc]
  case h_3 hpc =>
    split at hv
    · next hout =>
      obtain rfl := Option.some.inj hv
      exact paces_silent hw hgen (paces_outdated hgen hactive h hout rfl rfl) fun k' _ => by
        simp [observeWork, hpc]
    · cases hv
  case h_4 result _ hpc =>
    rw [hpc] at hat
    obtain rfl := Option.some.inj hv
    apply houtdated
    · exact fun k' _ => by simp [observeWork, hpc]
    · intro _
      refine paces_silent hw hgen ?_ fun k' _ => by simp [observeWork, hpc]
      exact paces_quiet hgen hactive h rfl rfl id rfl rfl h.pending fun hopen hcurrent _ =>
        Or.inl (hat hopen hcurrent)
  case h_5 delay now hpc =>
    rw [hpc] at hat
    obtain rfl := Option.some.inj hv
    apply houtdated
    · intro k' hk'
      obtain rfl := Option.some.inj hk'
      simp [observeWork, hpc]
    · intro hgo
      obtain ⟨hopen, hcurrent⟩ := not_outdated hgo
      obtain ⟨⟨howed, hone, hindex⟩, hdelay⟩ := hat hopen hcurrent.symm
      cases now with
      | error e =>
          refine paces_silent hw hgen (paces_die hgen hactive h) ?_
          intro k' hk'
          obtain rfl := Option.some.inj hk'
          simp [observeWork, hpc]
      | ok t =>
          refine paces_seen hw (paces_waiting hgen hactive h.pending hcurrent
            ⟨howed, hone, hindex⟩ hdelay rfl rfl rfl rfl rfl) rfl rfl ?_
          simp [observeWork, hpc, Supervisor.withWorker, Supervisor.note]
  case h_6 delay hpc =>
    obtain rfl := Option.some.inj hv
    refine paces_silent hw hgen (paces_outdated hgen hactive h (hhonest rfl) rfl rfl) ?_
    intro k' hk'
    obtain rfl := Option.some.inj hk'
    simp [observeWork, hpc]
  case h_7 delay hpc =>
    obtain rfl := Option.some.inj hv
    refine paces_seen hw (paces_ranOut hgen hactive h hpc rfl) rfl rfl ?_
    simp [observeWork, hpc]
  case h_8 _ hpc =>
    rw [hpc] at hat
    obtain rfl := Option.some.inj hv
    apply houtdated
    · exact fun k' _ => by simp [observeWork, hpc]
    · intro _
      refine paces_silent hw hgen ?_ fun k' _ => by simp [observeWork, hpc]
      exact paces_free hgen hactive h hat rfl rfl rfl rfl rfl rfl rfl id
  case h_9 _ hpc =>
    rw [hpc] at hat
    obtain rfl := Option.some.inj hv
    apply houtdated
    · intro k' hk'
      obtain rfl := Option.some.inj hk'
      simp [observeWork, hpc]
    · intro hgo
      obtain ⟨hopen, hcurrent⟩ := not_outdated hgo
      refine paces_seen hw (paces_attempting hgen hactive h hcurrent
        (hat hopen hcurrent.symm) rfl) rfl rfl ?_
      simp [observeWork, hpc]
  case h_10 config attempt hpc =>
    rw [hpc] at hat
    obtain rfl := Option.some.inj hv
    refine paces_silent hw hgen ?_ fun k' _ => by simp [observeWork, hpc]
    exact paces_free hgen hactive h hat rfl rfl rfl rfl rfl rfl rfl id
  case h_11 config e hpc =>
    rw [hpc] at hat
    obtain rfl := Option.some.inj hv
    refine paces_seen hw (paces_createRaised hgen hactive h hat) rfl rfl ?_
    simp [observeWork, hpc]
  case h_12 attempt config now hpc =>
    rw [hpc] at hat
    obtain rfl := Option.some.inj hv
    exact paces_silent hw hgen (paces_install hgen hactive h hat) fun k' _ => by
      simp [observeWork, hpc]
  case h_13 attempt interrupt hpc =>
    rw [hpc] at hat
    obtain rfl := Option.some.inj hv
    refine paces_silent hw hgen ?_ fun k' _ => by simp [observeWork, hpc]
    exact paces_free hgen hactive h hat rfl rfl rfl rfl rfl rfl rfl id
  case h_14 attempt interrupt result hpc =>
    rw [hpc] at hat
    obtain rfl := Option.some.inj hv
    refine paces_seen hw (paces_ended hgen hactive h hat) rfl rfl ?_
    simp [observeWork, hpc]
  case h_15 attempt interrupt hpc =>
    rw [hpc] at hat
    obtain rfl := Option.some.inj hv
    refine paces_silent hw hgen ?_ ?_
    · exact paces_free hgen hactive h hat rfl rfl rfl rfl rfl rfl rfl id
    · intro k' hk'
      obtain rfl := Option.some.inj hk'
      simp [observeWork, hpc]
  case h_16 attempt interrupt e hpc =>
    rw [hpc] at hat
    obtain rfl := Option.some.inj hv
    refine paces_silent hw hgen ?_ ?_
    · exact paces_free hgen hactive h hat rfl rfl rfl rfl rfl rfl rfl id
    · intro k' hk'
      obtain rfl := Option.some.inj hk'
      simp [observeWork, hpc]
  case h_17 attempt error outcome hpc =>
    rw [hpc] at hat
    obtain rfl := Option.some.inj hv
    cases error with
    | none =>
        refine paces_silent hw hgen ?_ ?_
        · refine paces_quiet hgen hactive h rfl rfl id rfl rfl h.pending ?_
          intro hopen hcurrent _
          obtain ⟨howed, hindex, -⟩ := hat hopen hcurrent
          exact ⟨howed, hindex⟩
        · intro k' hk'
          obtain rfl := Option.some.inj hk'
          simp [observeWork, hpc]
    | some e =>
        refine paces_seen hw (paces_ended hgen hactive h hat) rfl rfl ?_
        simp [observeWork, hpc]
  case h_18 attempt result _ hpc =>
    obtain rfl := Option.some.inj hv
    exact paces_silent hw hgen (paces_clearAttempt hgen hactive h hpc) fun k' _ => by
      simp [observeWork, hpc]
  case h_19 error _ hpc =>
    obtain rfl := Option.some.inj hv
    obtain ⟨hchanged, hpaces⟩ := @paces_workerFailed w k b error hgen h
    rw [observe_began hchanged]
    exact hpaces
  case h_20 error outcome hpc =>
    obtain rfl := Option.some.inj hv
    refine paces_silent hw hgen ?_ fun k' _ => by simp [observeWork, hpc]
    exact paces_quiet hgen hactive h rfl rfl id rfl rfl h.pending fun _ _ _ => trivial
  case h_21 result _ hpc =>
    obtain rfl := Option.some.inj hv
    refine paces_silent hw hgen ?_ fun k' _ => by simp [observeWork, hpc]
    obtain ⟨-, hgeneration, hclosing, -, -, -, -, hconfig⟩ := publishClosed_frame w result
    exact paces_quiet hgen hactive h hgeneration (congrArg LiveConfig.mode hconfig)
      (fun hopen => hclosing ▸ hopen) rfl rfl h.pending fun _ _ _ => trivial
  case h_22 => cases hv
  case h_23 => cases hv
  case h_24 => cases hv
  case h_25 error e hpc =>
    obtain rfl := Option.some.inj hv
    refine paces_silent hw hgen ?_ fun k' _ => by simp [observeWork, hpc]
    exact paces_quiet hgen hactive h rfl rfl id rfl rfl h.pending fun _ _ _ => trivial
  case h_26 error e hpc =>
    obtain rfl := Option.some.inj hv
    refine paces_silent hw hgen ?_ fun k' _ => by simp [observeWork, hpc]
    exact paces_quiet hgen hactive h rfl rfl id rfl rfl h.pending fun _ _ _ => trivial
  case h_27 result e hpc =>
    obtain rfl := Option.some.inj hv
    refine paces_silent hw hgen ?_ fun k' _ => by simp [observeWork, hpc]
    exact paces_quiet hgen hactive h rfl rfl id rfl rfl h.pending fun _ _ _ => trivial
  case h_28 =>
    obtain rfl := Option.some.inj hv
    refine paces_silent hw hgen (paces_die hgen hactive h) ?_
    intro k' hk'
    obtain rfl := Option.some.inj hk'
    simp [observeWork]
  case h_29 => cases hv

/-! ## Steps of the clients -/

theorem Pace.began {a : Action} (h : Pace w b) (hgen : v.generation = w.generation + 1)
    (hworker : v.worker = w.worker) : Pace v (b.see (observe w a v)) := by
  rw [observe_began (by omega)]
  have hfresh : (b.see (some .generationBegan)).failures = 0 := rfl
  constructor
  · change b.generation + 1 = v.generation
    rw [hgen, h.generation]
  · intro _ hone
    rw [hfresh] at hone
    cases hone
  · intro hnone
    rw [hworker] at hnone
    obtain ⟨-, -, hstart⟩ := h.unbegun hnone
    exact ⟨rfl, rfl, by omega⟩
  · intro k hk
    rw [hworker] at hk
    have hold := h.worker k hk
    have happlied := hold.applied
    refine ⟨by omega, hold.pending, fun _ => ⟨rfl, rfl⟩, ?_⟩
    intro _ hcurrent
    omega

/-- A command that leaves the worker and the generation alone. -/
structure Aside (w v : Supervisor) : Prop where
  generation : v.generation = w.generation
  mode : v.config.mode = w.config.mode
  closing : v.closing = w.closing
  worker : v.worker = w.worker
  unresolved : v.unresolvedCleanup = w.unresolvedCleanup

theorem Pace.aside (h : Pace w b) (hv : Aside w v) : Pace v b := by
  have hopen : v.closing = false → w.closing = false := fun hopen => hv.closing ▸ hopen
  have hfree : ∀ {k : Worker}, Free w k b → Free v k b := fun hfree =>
    ⟨hfree.owed, hfree.index, hv.mode ▸ hfree.mode⟩
  constructor
  · exact h.generation.trans hv.generation.symm
  · intro hc hone
    rw [hv.mode]
    exact h.active (hopen hc) hone
  · intro hnone
    rw [hv.generation]
    exact h.unbegun (hv.worker ▸ hnone)
  · intro k hk
    have hold := h.worker k (hv.worker ▸ hk)
    have htake : v.takeResult k = w.takeResult k := by
      rw [Supervisor.takeResult, Supervisor.takeResult, hv.generation]
    constructor
    · rw [hv.generation]
      exact hold.applied
    · exact hold.pending
    · rw [hv.generation]
      exact hold.later
    · intro hc hcurrent
      have hat := hold.current (hopen hc) (hcurrent.trans hv.generation)
      cases hpc : k.pc <;> rw [hpc] at hat <;> simp only [PaceAt] at hat ⊢
      case reconciling => rwa [htake]
      case settling => rwa [htake]
      case waiting => rwa [hv.unresolved]
      all_goals first | exact hat | exact hfree hat

/-- What a command does to the worker: nothing, or it begins a generation. -/
def Commanded (w v : Supervisor) : Prop :=
  Aside w v ∨ (v.generation = w.generation + 1 ∧ v.worker = w.worker)

theorem Pace.commanded {a : Action} (h : Pace w b) (hcommand : ∀ reply, a ≠ .work reply)
    (hv : Commanded w v) : Pace v (b.see (observe w a v)) := by
  obtain haside | ⟨hgen, hworker⟩ := hv
  · have hnone : observe w a v = none := by
      unfold observe
      rw [if_neg (not_not.mpr haside.generation)]
      split
      · next reply _ _ _ _ => exact absurd rfl (hcommand reply)
      · rfl
    rw [hnone]
    exact h.aside haside
  · exact h.began hgen hworker

theorem commanded_bump (u : Supervisor) (status : RuntimeStatus)
    (hgen : u.generation = w.generation) (hworker : u.worker = w.worker) :
    Commanded w { u.bump.interruptAttempt with status } := by
  obtain ⟨-, hnext, -, -, -, -, hkept, -⟩ := interruptAttempt_frame u.bump
  exact Or.inr ⟨hnext.trans (congrArg (· + 1) hgen), hkept.trans hworker⟩

theorem commanded_refl (w : Supervisor) : Commanded w w :=
  Or.inl ⟨rfl, rfl, rfl, rfl, rfl⟩

theorem commanded_selectMode (w : Supervisor) (mode : DesiredMode) (outcome : SaveOutcome) :
    Commanded w (w.selectMode mode outcome) := by
  unfold Supervisor.selectMode Supervisor.save
  split
  · exact commanded_refl w
  · cases outcome with
    | saved => exact commanded_bump { w with
        store := { w.config with mode := mode }, config := { w.config with mode := mode } } _ rfl rfl
    | notSaved => exact commanded_refl w
    | replacedNotSaved => exact Or.inl ⟨rfl, rfl, rfl, rfl, rfl⟩

theorem commanded_updateConfig {replacement : Option LiveConfig} (outcome : SaveOutcome)
    (hmode : replacement.all (·.mode = w.config.mode) = true) :
    Commanded w (w.updateConfig replacement outcome) := by
  unfold Supervisor.updateConfig Supervisor.save
  split
  · exact commanded_refl w
  cases replacement with
  | none => exact commanded_refl w
  | some replacement =>
      have hmode : replacement.mode = w.config.mode := by simpa using hmode
      dsimp only
      split
      · exact commanded_refl w
      · cases outcome with
        | saved =>
            dsimp only
            split
            · exact commanded_bump
                { w with store := replacement, config := replacement } _ rfl rfl
            · exact Or.inl ⟨rfl, hmode, rfl, rfl, rfl⟩
        | notSaved => exact commanded_refl w
        | replacedNotSaved => exact Or.inl ⟨rfl, rfl, rfl, rfl, rfl⟩

theorem commanded_restart (w : Supervisor) : Commanded w w.restart := by
  unfold Supervisor.restart
  split
  · exact commanded_refl w
  split
  · exact commanded_refl w
  · exact commanded_bump w _ rfl rfl

theorem aside_publishClosed (w : Supervisor) (result : CleanupResult) :
    Aside w (w.publishClosed result) := by
  obtain ⟨-, hgeneration, hclosing, -, -, hworker, -, hconfig⟩ := publishClosed_frame w result
  refine ⟨hgeneration, congrArg LiveConfig.mode hconfig, hclosing, hworker, ?_⟩
  unfold Supervisor.publishClosed
  dsimp only
  split <;> rfl

theorem commanded_beginClose (w : Supervisor) (id : Nat) : Commanded w (w.beginClose id) := by
  obtain haside | hbegan := commanded_bump { w with closing := true }
    { ({ w with closing := true } : Supervisor).bump.interruptAttempt.status with
      phase := .stopping, nextRetryAt := none } (rfl : _ = w.generation) rfl
  · have hgen := haside.generation
    obtain ⟨-, hnext, -⟩ := interruptAttempt_frame ({ w with closing := true } : Supervisor).bump
    have hnext : _ = w.generation + 1 := hnext
    have : w.generation + 1 = w.generation := hnext.symm.trans hgen
    omega
  · unfold Supervisor.beginClose
    split <;> split
    · exact Or.inl ⟨rfl, rfl, rfl, rfl, rfl⟩
    · exact Or.inl ⟨rfl, rfl, rfl, rfl, rfl⟩
    · exact Or.inr hbegan
    · exact Or.inr hbegan

theorem commanded_joined {id : Nat} {next : Supervisor} (hnext : Commanded w next)
    (hv : w.joined id next = some v) : Commanded w v := by
  unfold Supervisor.joined at hv
  split at hv
  · obtain rfl := Option.some.inj hv
    exact hnext
  · obtain rfl := Option.some.inj hv
    exact Or.inl ⟨rfl, rfl, rfl, rfl, rfl⟩
  · cases hv

theorem commanded_closeStep {id : Nat} {outcome : Except Raised CleanupResult} {pc : ClosePc}
    (hv : w.closeStep id outcome pc = some v) : Commanded w v := by
  have published : ∀ result, Commanded w ((w.publishClosed result).closed id (.returned result)) :=
    fun result => by
      obtain ⟨hgeneration, hmode, hclosing, hworker, hunresolved⟩ := aside_publishClosed w result
      exact Or.inl ⟨hgeneration, hmode, hclosing, hworker, hunresolved⟩
  cases pc with
  | closeLock =>
      simp only [Supervisor.closeStep] at hv
      split at hv
      · obtain rfl := Option.some.inj hv
        exact Or.inl ⟨rfl, rfl, rfl, rfl, rfl⟩
      · cases hv
  | «section» =>
      obtain rfl := Option.some.inj hv
      exact commanded_beginClose w id
  | joinReturn result =>
      refine @commanded_joined w v id (w.closed id (.returned result)) ?_ hv
      exact Or.inl ⟨rfl, rfl, rfl, rfl, rfl⟩
  | reconciling =>
      obtain rfl := Option.some.inj hv
      exact Or.inl ⟨rfl, rfl, rfl, rfl, rfl⟩
  | publishing result =>
      obtain rfl := Option.some.inj hv
      exact published result
  | join =>
      refine @commanded_joined w v id (w.closer id .collect) ?_ hv
      exact Or.inl ⟨rfl, rfl, rfl, rfl, rfl⟩
  | collect =>
      simp only [Supervisor.closeStep] at hv
      split at hv
      · obtain rfl := Option.some.inj hv
        exact Or.inl ⟨rfl, rfl, rfl, rfl, rfl⟩
      · obtain rfl := Option.some.inj hv
        exact published _
  | returned result => cases hv
  | raised => cases hv

theorem commanded_publish (w : Supervisor) (k : Worker) (event : AttemptEvent) :
    Commanded w (w.publish k event) := by
  unfold Supervisor.publish
  split
  · exact commanded_refl w
  · exact Or.inl ⟨rfl, rfl, rfl, rfl, rfl⟩

/-- The worker begins, in a supervisor that had none. -/
theorem pace_start {spawned : Bool} (hinv : Inv w) (h : Pace w b) :
    Pace (w.start spawned) (b.see (observe w (.start spawned) (w.start spawned))) := by
  have hcommand : ∀ reply, Action.start spawned ≠ .work reply := fun reply heq => by cases heq
  unfold Supervisor.start
  split
  · exact h.commanded hcommand (commanded_refl w)
  next hfirst =>
  obtain ⟨-, hstarted⟩ : w.closing = false ∧ w.started = false := by simpa using hfirst
  obtain ⟨hu, -⟩ := hinv.unbegun hstarted
  obtain ⟨hfailures, howed, hstart⟩ := h.unbegun hu.worker
  have fresh : ∀ u : Supervisor, ∀ pc, u.generation = w.generation → u.config = w.config →
      u.closing = w.closing → u.worker = some { pc := pc } →
      Pace u (b.see (observe w (.start spawned) u)) := by
    intro u pc hgen hconfig hclosing hworker
    have hnone : observe w (.start spawned) u = none := by
      unfold observe
      rw [if_neg (not_not.mpr hgen)]
    rw [hnone]
    constructor
    · exact h.generation.trans hgen.symm
    · intro hopen hone
      rw [hconfig]
      exact h.active (hclosing ▸ hopen) hone
    · intro hnoworker
      rw [hworker] at hnoworker
      cases hnoworker
    · intro k hk
      rw [hworker] at hk
      obtain rfl := Option.some.inj hk
      refine ⟨?_, ?_, fun _ => ⟨hfailures, howed⟩, ?_⟩
      · change (-1 : Int) ≤ u.generation
        omega
      · intro g hg
        cases hg
      · intro _ hcurrent
        have hcurrent : (-1 : Int) = u.generation := hcurrent
        omega
  split
  · exact fresh _ _ rfl rfl rfl rfl
  · exact fresh _ _ rfl rfl rfl rfl

/-- Every step keeps the invariant, and what it shows fits. -/
theorem pace_step {a : Action} (hinv : Inv w) (h : Pace w b)
    (hhonest : a = .work (.waited true) → ∀ k ∈ w.worker, w.outdated k = true)
    (hv : w.step a = some v) :
    Pace v (b.see (observe w a v)) ∧ ∀ mark ∈ observe w a v, b.Fits mark := by
  -- a command shows at most that a generation began
  have command : (∀ reply, a ≠ .work reply) → ∀ mark ∈ observe w a v, b.Fits mark := by
    intro hcommand mark hmark
    unfold observe at hmark
    split at hmark
    · obtain rfl := Option.some.inj hmark
      trivial
    · split at hmark
      · exact absurd rfl (hcommand _)
      · cases hmark
  cases a with
  | work reply =>
      obtain ⟨k, hk, hv⟩ := Option.bind_eq_some_iff.mp hv
      have hpaces := paces_work hk h.generation h.active (h.worker k hk)
        (fun hreply => hhonest (congrArg Action.work hreply) k hk) hv
      obtain ⟨k', hworker, hwork⟩ := hpaces.worker
      refine ⟨⟨hpaces.generation, hpaces.active, ?_, ?_⟩, hpaces.fits⟩
      · intro hnone
        rw [hworker] at hnone
        cases hnone
      · intro k'' hk''
        obtain rfl := Option.some.inj (hworker.symm.trans hk'')
        exact hwork
  | start spawned =>
      obtain rfl := Option.some.inj hv
      exact ⟨pace_start hinv h, command fun reply heq => by cases heq⟩
  | selectMode mode outcome =>
      obtain rfl := Option.some.inj hv
      have hcommand : ∀ reply, Action.selectMode mode outcome ≠ .work reply :=
        fun reply heq => by cases heq
      exact ⟨h.commanded hcommand (commanded_selectMode w mode outcome), command hcommand⟩
  | updateConfig replacement outcome =>
      have hcommand : ∀ reply, Action.updateConfig replacement outcome ≠ .work reply :=
        fun reply heq => by cases heq
      simp only [Supervisor.step] at hv
      split at hv
      · next hmode =>
        obtain rfl := Option.some.inj hv
        exact ⟨h.commanded hcommand (commanded_updateConfig outcome hmode), command hcommand⟩
      · cases hv
  | restart =>
      obtain rfl := Option.some.inj hv
      have hcommand : ∀ reply, Action.restart ≠ .work reply := fun reply heq => by cases heq
      exact ⟨h.commanded hcommand (commanded_restart w), command hcommand⟩
  | close id =>
      have hcommand : ∀ reply, Action.close id ≠ .work reply := fun reply heq => by cases heq
      simp only [Supervisor.step] at hv
      split at hv
      · obtain rfl := Option.some.inj hv
        exact ⟨h.commanded hcommand (Or.inl ⟨rfl, rfl, rfl, rfl, rfl⟩), command hcommand⟩
      · cases hv
  | closeStep id outcome =>
      have hcommand : ∀ reply, Action.closeStep id outcome ≠ .work reply :=
        fun reply heq => by cases heq
      obtain ⟨pc, -, hv⟩ := Option.bind_eq_some_iff.mp hv
      exact ⟨h.commanded hcommand (commanded_closeStep hv), command hcommand⟩
  | publish attempt event =>
      have hcommand : ∀ reply, Action.publish attempt event ≠ .work reply :=
        fun reply heq => by cases heq
      simp only [Supervisor.step] at hv
      split at hv
      · obtain ⟨k, -, rfl⟩ := Option.map_eq_some_iff.mp hv
        exact ⟨h.commanded hcommand (commanded_publish w k event), command hcommand⟩
      · cases hv

end Invariant

/-! ## Whole runs -/

theorem Backoff.after_see (journal : List Mark) (mark : Option Mark) :
    after (journal ++ mark.toList) = (after journal).see mark := by
  unfold after
  rw [List.foldl_append]
  cases mark <;> rfl

theorem Paced.add {journal : List Mark} {mark : Option Mark} (h : Paced journal)
    (hfits : ∀ m ∈ mark, (Backoff.after journal).Fits m) : Paced (journal ++ mark.toList) := by
  cases mark with
  | none => simpa using h
  | some mark =>
      intro before m later hsplit
      obtain ⟨rest, rfl, hrest⟩ | ⟨rest, rfl, hrest⟩ := List.append_eq_append_iff.mp hsplit
      · -- the mark stands at the end
        obtain rfl : rest = [] := by
          have hlength := congrArg List.length hrest
          simp only [Option.toList_some, List.length_cons, List.length_nil,
            List.length_append] at hlength
          exact List.eq_nil_of_length_eq_zero (by omega)
        obtain ⟨rfl, -⟩ := List.cons.inj hrest
        rw [List.append_nil]
        exact hfits mark rfl
      · cases rest with
        | nil =>
            obtain ⟨rfl, -⟩ := List.cons.inj hrest
            simpa using hfits m rfl
        | cons first rest =>
            obtain ⟨rfl, -⟩ := List.cons.inj hrest
            exact h before m rest rfl

/-- What is kept along every run. -/
structure Watched (x : Journaled) : Prop where
  inv : Inv x.supervisor
  pace : Pace x.supervisor (Backoff.after x.journal)
  paced : Paced x.journal

theorem reaches_watched {config : LiveConfig} {x : Journaled}
    (run : journaledSystem.Reaches HonestWait ⟨.create config, []⟩ x) : Watched x := by
  refine run.invariant (P := Watched) ?_ ?_
  · intro x a y h hhonest hstep
    obtain ⟨v, hv, rfl⟩ := Option.map_eq_some_iff.mp hstep
    obtain ⟨hpace, hfits⟩ := pace_step h.inv h.pace hhonest hv
    refine ⟨step_inv h.inv hv, ?_, h.paced.add hfits⟩
    rw [Backoff.after_see]
    exact hpace
  · constructor
    · exact reaches_inv .refl
    · constructor
      · rfl
      · intro _ hone
        cases hone
      · exact fun _ => ⟨rfl, rfl, Int.le_refl _⟩
      · intro k hk
        cases hk
    · intro before mark later hsplit
      cases before <;> cases hsplit

/-- The worker has the result of an attempt to deal with. -/
def Pc.dealing : Pc → Bool
  | .ending _ _ | .reconciling | .settling _ | .failed _ => true
  | _ => false

/-- The worker does not run its loop. -/
def Pc.outside : Pc → Bool
  | .unstarted | .dying _ | .lastReconcile _ | .lastPublish _ | .exited => true
  | _ => false

/-- Where the worker can be while a wait is owed. -/
theorem PaceAt.owing {w : Supervisor} {k : Worker} {b : Backoff} {pc : Pc} (h : PaceAt w k b pc)
    (howed : b.owed = .wait) : pc.dealing = true ∨ pc.outside = true ∨
      (pc = .waiting ∧ ∃ cleanup ∈ w.unresolvedCleanup, cleanup.success = false) := by
  have notFree : Free w k b → False := fun hfree => by
    have hnothing := hfree.owed
    rw [howed] at hnothing
    cases hnothing
  cases pc with
  | waiting =>
      obtain hnothing | hfailed := h
      · rw [howed] at hnothing
        cases hnothing
      · exact Or.inr (Or.inr ⟨rfl, hfailed⟩)
  | completed result =>
      have hnothing : b.owed = .nothing := h
      rw [howed] at hnothing
      cases hnothing
  | retryWait delay =>
      have hwaiting := Owes.owed h
      rw [howed] at hwaiting
      cases hwaiting
  | ending attempt result => exact Or.inl rfl
  | reconciling => exact Or.inl rfl
  | settling baseline => exact Or.inl rfl
  | failed delay => exact Or.inl rfl
  | unstarted => exact Or.inr (Or.inl rfl)
  | dying error => exact Or.inr (Or.inl rfl)
  | lastReconcile error => exact Or.inr (Or.inl rfl)
  | lastPublish result => exact Or.inr (Or.inl rfl)
  | exited => exact Or.inr (Or.inl rfl)
  | _ => exact (notFree h).elim

/-- Every wait is the one that the failed attempts of its generation ask for, is published as
such, and ran out before the next attempt. A wait that is owed is on its way, except where the
cleanup after the attempt failed or the worker itself did. A command interrupts the wait. -/
theorem retry_backoff {config : LiveConfig} {x : Journaled}
    (run : journaledSystem.Reaches HonestWait ⟨.create config, []⟩ x) :
    Paced x.journal ∧ (Backoff.after x.journal).generation = x.supervisor.generation ∧
    ∀ k ∈ x.supervisor.worker,
      (x.supervisor.outdated k = false → (Backoff.after x.journal).owed = .wait →
        k.pc.dealing = true ∨ k.pc.outside = true ∨
          (k.pc = .waiting ∧ ∃ cleanup ∈ x.supervisor.unresolvedCleanup,
            cleanup.success = false)) ∧
      (x.supervisor.outdated k = true → ∀ delay, k.pc = .retryWait delay →
        HonestWait x (.work (.waited true)) ∧
          journaledSystem.step x (.work (.waited true)) =
            some ⟨x.supervisor.reconcile k, x.journal⟩) := by
  have h := reaches_watched run
  refine ⟨h.paced, h.pace.generation, fun k hk => ⟨fun hin howed => ?_, fun hout delay hpc => ?_⟩⟩
  · obtain ⟨hopen, hcurrent⟩ := not_outdated (Bool.eq_false_iff.mp hin)
    exact ((h.pace.worker k hk).current hopen hcurrent.symm).owing howed
  · constructor
    · intro _ k' hk'
      obtain rfl := Option.some.inj (hk.symm.trans hk')
      exact hout
    · have hstep : x.supervisor.step (.work (.waited true)) = some (x.supervisor.reconcile k) := by
        simp only [Supervisor.step]
        rw [show x.supervisor.worker = some k from hk, Option.bind_some, hpc]
        rfl
      have hmark : observe x.supervisor (.work (.waited true)) (x.supervisor.reconcile k) = none := by
        rw [@observe_work x.supervisor (x.supervisor.reconcile k) k
          { k with pc := .reconciling } _ hk rfl rfl]
        simp [observeWork, hpc]
      simp [journaledSystem, hstep, hmark]

/-- Whether a wait that was interrupted had a reason. -/
def honestWait (x : Journaled) : Action → Bool
  | .work (.waited true) => x.supervisor.worker.all x.supervisor.outdated
  | _ => true

/-- An execution in which no wait was interrupted for nothing. -/
theorem reaches_of_honest {x y : Journaled} {acts : List Action}
    (h : (journaledSystem.guard honestWait).exec x acts = some y) :
    journaledSystem.Reaches HonestWait x y := by
  refine (System.reaches_of_guard h).weaken ?_
  intro x a hhonest hwaited k hk
  subst hwaited
  have hall : x.supervisor.worker.all x.supervisor.outdated = true := hhonest
  rw [show x.supervisor.worker = some k from hk] at hall
  exact hall

/-- The first attempt raises, and its cleanup ends as given. -/
def failOnce (cleanup : Except Raised CleanupResult) : List Action :=
  [.start true, .work (.cleanup (.ok .empty)), .work (.locked (.ok 0))] ++ runAttempt 0 ++
    [.work (.ran (.error ⟨"gadget busy", gadget_busy⟩)), .work (.cleanup cleanup),
      .work (.locked (.ok 0)), .work (.cleanup (.ok .empty)), .work (.locked (.ok 0))]

/-- Two failed attempts in a row. -/
def failTwice : List Action :=
  failOnce (.ok .empty) ++
    [.work (.locked (.ok 0)), .work (.waited false), .work (.locked (.ok 0))] ++ runAttempt 1 ++
    [.work (.ran (.error ⟨"gadget busy", gadget_busy⟩)), .work (.cleanup (.ok .empty)),
      .work (.locked (.ok 0)), .work (.cleanup (.ok .empty)), .work (.locked (.ok 0)),
      .work (.locked (.ok 0))]

theorem retry_backoff_twice : ∃ x,
    (journaledSystem.guard honestWait).exec
      ⟨.create ⟨.desktop, "", 30, 4000, "user", false⟩, []⟩ failTwice = some x ∧
    x.journal = [.attempting 0, .failed 0 0, .waiting 2 .retrying 1, .ranOut, .attempting 0,
      .failed 0 0, .waiting 4 .retrying 2] ∧ Paced x.journal := by
  have hexec : ((journaledSystem.guard honestWait).exec
      ⟨.create ⟨.desktop, "", 30, 4000, "user", false⟩, []⟩ failTwice).any (fun x =>
        x.journal = [.attempting 0, .failed 0 0, .waiting 2 .retrying 1, .ranOut, .attempting 0,
          .failed 0 0, .waiting 4 .retrying 2]) = true := by decide +kernel
  obtain ⟨x, hx, hjournal⟩ := (Option.any_eq_true ..).mp hexec
  exact ⟨x, hx, of_decide_eq_true hjournal, (retry_backoff (reaches_of_honest hx)).1⟩

/-- After a cleanup that failed the worker stands still, and the failed attempt never gets
its wait. -/
theorem failed_cleanup_no_wait : ¬ ∀ (config : LiveConfig) (x : Journaled),
    journaledSystem.Reaches HonestWait ⟨.create config, []⟩ x →
    ∀ k ∈ x.supervisor.worker, x.supervisor.outdated k = false →
      (Backoff.after x.journal).owed = .wait → k.pc ≠ .waiting := by
  intro hall
  have hexec : ((journaledSystem.guard honestWait).exec
      ⟨.create ⟨.desktop, "", 30, 4000, "user", false⟩, []⟩
      (failOnce (.error ⟨"gadget busy", gadget_busy⟩))).any (fun x =>
        x.supervisor.worker.any (fun k => x.supervisor.outdated k = false ∧
          (Backoff.after x.journal).owed = .wait ∧ k.pc = .waiting)) = true := by decide +kernel
  obtain ⟨x, hx, hwaits⟩ := (Option.any_eq_true ..).mp hexec
  obtain ⟨k, hk, hwaits⟩ := (Option.any_eq_true ..).mp hwaits
  obtain ⟨hin, howed, hpc⟩ := of_decide_eq_true hwaits
  exact hall _ x (reaches_of_honest hx) k hk hin howed hpc

end HccastWired.Live
