import HccastWired.Foundation.System
import HccastWired.Live.Model

/-!
# The supervisor of live attempts

One worker thread reconciles, creates an attempt, runs it and cleans up after
it; clients' commands change mode, configuration and generation under the
condition's lock. The worker's program counter names the external call it is
inside or the locked section it is about to enter, so that commands can land
between any two of them. What the factory, the attempts, the store and the
clock do is part of each action; the log keeps what happened, newest first.
-/

namespace HccastWired.Live

open Foundation

/-- `_RETRY_DELAYS`. -/
def retryDelays : List Rat := [2, 4, 8, 16, 30]

def retryResetSeconds : Rat := 60

/-- Where the worker is: inside an external call, or before a locked section. -/
inductive Pc where
  | unstarted
  | reconciling
  | settling (baseline : CleanupResult)
  | waiting
  | completed (result : AttemptResult)
  | failed (delay : Rat)
  | retryWait (delay : Rat)
  | retried
  | ready
  | creating (config : LiveConfig)
  | installing (attempt : Nat) (config : LiveConfig)
  | launching (attempt : Nat) (interrupt : Nat)
  | running (attempt : Nat) (interrupt : Nat)
  | stopping (attempt : Nat) (error : Option Raised)
  | ending (attempt : Nat) (result : Option AttemptResult)
  | dying (error : Raised)
  | lastReconcile (error : Raised)
  | lastPublish (result : CleanupResult)
  | exited
  deriving DecidableEq

/-- The worker thread with the local variables of `_worker_main`. -/
structure Worker where
  pc : Pc
  appliedGeneration : Int := -1
  retryIndex : Nat := 0
  pendingCleanup : CleanupResult := .empty
  pendingResult : Option AttemptResult := none
  pendingGeneration : Option Int := none
  attempt : Option Nat := none

/-- Where a `close()` call is. -/
inductive ClosePc where
  | closeLock
  | section
  | joinReturn (result : CleanupResult)
  | reconciling
  | publishing (result : CleanupResult)
  | join
  | collect
  | returned (result : CleanupResult)
  | raised
  deriving DecidableEq

/-- What the supervisor looks like when an attempt becomes the current one. -/
structure Installation where
  attempt : Nat
  appliedGeneration : Int
  generation : Int
  mode : DesiredMode
  closing : Bool
  deriving DecidableEq

/-- What happened: worker and cleanup steps, attempts and generation changes. -/
inductive Event where
  | workerBegan
  | reconcileCalled
  | reconcileReturned (success : Bool)
  | cleanupFailed
  | generationChanged
  | createRaised (generation : Int)
  | installed (installation : Installation)
  | runStarted (attempt : Nat)
  | runEnded (attempt : Nat)
  | ended (attempt : Nat) (generation : Int) (result : Option AttemptResult)
      (cleanup : CleanupResult)
  | retryWaiting (delay : Rat)
  deriving DecidableEq

/-- How `store.save` ends: `os.replace` may have taken place before it raises. -/
inductive SaveOutcome where
  | saved | notSaved | replacedNotSaved
  deriving DecidableEq, Repr

structure Supervisor where
  store : LiveConfig
  config : LiveConfig
  generation : Int := 0
  closing : Bool := false
  started : Bool := false
  worker : Option Worker := none
  currentAttempt : Option Nat := none
  attemptInterrupt : Option Nat := none
  lastCleanup : Option CleanupResult := none
  unresolvedCleanup : Option CleanupResult := none
  closedResult : Option CleanupResult := none
  status : RuntimeStatus
  isSet : Nat → Bool := fun _ => false
  nextInterrupt : Nat := 0
  closeLock : Option Nat := none
  closers : Nat → Option ClosePc := fun _ => none
  log : List Event := []

/-- How the worker's external call or locked section ends. A locked section
that reads the clock gets the time, or the clock raises. -/
inductive Reply where
  | locked (now : Except Raised UtcTime)
  | cleanup (outcome : Except Raised CleanupResult)
  | created (outcome : Except Raised Nat)
  | ran (outcome : Except Raised (Option AttemptResult))
  | waited (interrupted : Bool)
  | launch
  | raise (error : Raised)

inductive Action where
  | start (spawned : Bool)
  | selectMode (mode : DesiredMode) (outcome : SaveOutcome)
  | updateConfig (replacement : Option LiveConfig) (outcome : SaveOutcome)
  | restart
  | close (id : Nat)
  | closeStep (id : Nat) (outcome : Except Raised CleanupResult)
  | publish (attempt : Nat) (event : AttemptEvent)
  | work (reply : Reply)

namespace Supervisor

/-- `LiveSupervisor.__init__` on the stored configuration. -/
def create (config : LiveConfig) : Supervisor where
  store := config
  config := config
  status := { desiredMode := config.mode, phase := .starting }

def note (w : Supervisor) (e : Event) : Supervisor := { w with log := e :: w.log }

def withWorker (w : Supervisor) (k : Worker) : Supervisor := { w with worker := some k }

/-- `self._generation += 1`. -/
def bump (w : Supervisor) : Supervisor :=
  ({ w with generation := w.generation + 1 }).note .generationChanged

/-- `_interrupt_attempt_locked`. -/
def interruptAttempt (w : Supervisor) : Supervisor :=
  match w.attemptInterrupt with
  | some i => { w with isSet := Function.update w.isSet i true }
  | none => w

/-- `_publish_cleanup_error_locked`. -/
def publishCleanupError (w : Supervisor) (result : CleanupResult) : Supervisor :=
  { w with status := { w.status with
      desiredMode := w.config.mode
      phase := .error
      nextRetryAt := none
      attemptStartedAt := none
      lastError := some result.errorText } }

/-- `_publish_closed_locked`. -/
def publishClosed (w : Supervisor) (result : CleanupResult) : Supervisor :=
  let w := { w with lastCleanup := some result, closedResult := some result }
  if result.success then
    { w with status := { w.status with
        phase := .stopped, nextRetryAt := none, attemptStartedAt := none, lastError := none } }
  else w.publishCleanupError result

/-- The worker enters `reconcile_stopped`. -/
def reconcile (w : Supervisor) (k : Worker) : Supervisor :=
  (w.note .reconcileCalled).withWorker { k with pc := .reconciling }

/-- The worker's exception leaves `_worker_main`. -/
def die (w : Supervisor) (k : Worker) (error : Raised) : Supervisor :=
  w.withWorker { k with pc := .dying error }

/-- The test before every step of the loop: `self._closing or self._generation != applied`. -/
def outdated (w : Supervisor) (k : Worker) : Bool :=
  w.closing || w.generation ≠ k.appliedGeneration

def withUnresolved (w : Supervisor) (checked : CleanupResult) : CleanupResult :=
  match w.unresolvedCleanup with
  | some unresolved => unresolved.merge checked
  | none => checked

/-- The `result` taken over from the attempt that has just ended. -/
def takeResult (w : Supervisor) (k : Worker) : Option AttemptResult :=
  if k.pendingGeneration = some w.generation then k.pendingResult else none

/-- The rest of the locked section once the device is known to be stopped. -/
def proceed (w : Supervisor) (k : Worker) (result : Option AttemptResult) : Supervisor :=
  let k := { k with pendingCleanup := .empty, pendingResult := none, pendingGeneration := none }
  let status := match result with
    | some r => { w.status with
        product := orElse r.product w.status.product
        version := orElse r.version w.status.version
        lastError := r.error }
    | none => w.status
  if w.config.mode = .stopped then
    ({ w with status := { desiredMode := .stopped, phase := .stopped } }).withWorker
      { k with pc := .waiting }
  else match result with
    | none => ({ w with status }).withWorker { k with pc := .ready }
    | some r =>
        if r.classification ≠ .failure then
          ({ w with status }).withWorker { k with pc := .completed r }
        else
          let retryIndex := if retryResetSeconds ≤ r.streamingDuration then 0 else k.retryIndex
          ({ w with status }).withWorker { k with
            retryIndex := retryIndex
            pc := .failed (retryDelays.getD (min retryIndex (retryDelays.length - 1)) 0) }

/-- The locked section after `reconcile_stopped`. -/
def settle (w : Supervisor) (k : Worker) (baseline : CleanupResult) : Supervisor :=
  let checked := k.pendingCleanup.merge baseline
  let k := { k with
    retryIndex := if w.generation ≠ k.appliedGeneration then 0 else k.retryIndex
    appliedGeneration := w.generation }
  if w.closing then
    (w.publishClosed (w.withUnresolved checked)).withWorker { k with pc := .exited }
  else if checked.success = false then
    let checked := w.withUnresolved checked
    ((({ w with
      unresolvedCleanup := some checked
      lastCleanup := some checked }).publishCleanupError checked).note .cleanupFailed).withWorker
      { k with
        pendingCleanup := .empty, pendingResult := none, pendingGeneration := none, pc := .waiting }
  else
    ({ w with unresolvedCleanup := none, lastCleanup := some checked }).proceed k (w.takeResult k)

/-- The locked section of a completed attempt, then its wait. -/
def reportCompleted (w : Supervisor) (k : Worker) (result : AttemptResult) : Supervisor :=
  if w.outdated k then w.reconcile k
  else
    ({ w with status := { w.status with
      phase := .error
      lastError := orElse result.error (some "attempt ended unexpectedly")
      nextRetryAt := none } }).withWorker { k with pc := .waiting }

/-- The locked section of a failed attempt, up to the retry wait. -/
def reportRetry (w : Supervisor) (k : Worker) (delay : Rat)
    (now : Except Raised UtcTime) : Supervisor :=
  if w.outdated k then w.reconcile k
  else match now with
    | .error e => w.die k e
    | .ok t =>
        (({ w with status := { w.status with
          phase := .retrying
          retryCount := k.retryIndex + 1
          nextRetryAt := some (t + delay)
          attemptStartedAt := none } }).note (.retryWaiting delay)).withWorker
          { k with pc := .retryWait delay }

/-- The attempt becomes the current one, unless a command came in between. -/
def install (w : Supervisor) (k : Worker) (attempt : Nat) (config : LiveConfig)
    (now : Except Raised UtcTime) : Supervisor :=
  if w.outdated k then w.reconcile k
  else
    let interrupt := w.nextInterrupt
    let w := ({ w with
      currentAttempt := some attempt
      attemptInterrupt := some interrupt
      isSet := Function.update w.isSet interrupt false
      nextInterrupt := w.nextInterrupt + 1 }).note
        (.installed ⟨attempt, k.appliedGeneration, w.generation, w.config.mode, w.closing⟩)
    match now with
    | .error e => w.die k e
    | .ok t =>
        ({ w with status :=
          { desiredMode := config.mode
            phase := .starting
            retryCount := k.retryIndex
            attemptStartedAt := some t } }).withWorker { k with pc := .launching attempt interrupt }

/-- An attempt has ended with its own cleanup. -/
def finishAttempt (w : Supervisor) (k : Worker) (attempt : Nat) (result : Option AttemptResult)
    (cleanup : CleanupResult) : Supervisor :=
  (w.note (.ended attempt k.appliedGeneration result cleanup)).withWorker { k with
    pendingCleanup := cleanup, pc := .ending attempt result }

/-- The locked section after an attempt, then the next round. -/
def clearAttempt (w : Supervisor) (k : Worker) (attempt : Nat) (result : Option AttemptResult) :
    Supervisor :=
  let w := if w.currentAttempt = some attempt
    then { w with currentAttempt := none, attemptInterrupt := none } else w
  let w := if result.isSome && !w.outdated k
    then { w with status := { w.status with phase := .stopping } } else w
  w.reconcile { k with
    pendingResult := result
    pendingGeneration := if result.isSome then some k.appliedGeneration else none }

/-- The locked section of `_worker_entry`'s handler. -/
def workerFailed (w : Supervisor) (k : Worker) (error : Raised) : Supervisor :=
  let w := ({ w with closing := true }).bump.interruptAttempt
  (({ w with status := { w.status with
    phase := .error
    nextRetryAt := none
    attemptStartedAt := none
    lastError := some ("supervisor worker failed: " ++ error.1) } }).note
      .reconcileCalled).withWorker { k with pc := .lastReconcile error }

/-- `_reconcile_stopped` of an outcome. -/
def reconciled (outcome : Except Raised CleanupResult) : CleanupResult :=
  match outcome with
  | .ok result => result
  | .error e => .ofException "reconcile-stopped" (by decide) e

/-- `_stop_attempt` of an outcome. -/
def stopped (outcome : Except Raised CleanupResult) : CleanupResult :=
  match outcome with
  | .ok result => result
  | .error e => .ofException "stop-attempt" (by decide) e

/-- One step of the worker; `none` when the reply does not answer its program
counter, or when the wait's condition is false. -/
def work (w : Supervisor) (k : Worker) : Pc → Reply → Option Supervisor
  | .reconciling, .cleanup outcome =>
      let baseline := reconciled outcome
      some ((w.note (.reconcileReturned baseline.success)).withWorker
        { k with pc := .settling baseline })
  | .settling baseline, .locked _ => some (w.settle k baseline)
  | .waiting, .locked _ => if w.outdated k then some (w.reconcile k) else none
  | .completed result, .locked _ => some (w.reportCompleted k result)
  | .failed delay, .locked now => some (w.reportRetry k delay now)
  | .retryWait _, .waited true => some (w.reconcile k)
  | .retryWait _, .waited false =>
      some (w.withWorker { k with
        retryIndex := min (k.retryIndex + 1) (retryDelays.length - 1), pc := .retried })
  | .retried, .locked _ =>
      some (if w.outdated k then w.reconcile k else w.withWorker { k with pc := .ready })
  | .ready, .locked _ =>
      some (if w.outdated k then w.reconcile k
        else w.withWorker { k with pc := .creating w.config })
  | .creating config, .created (.ok attempt) =>
      some (w.withWorker { k with attempt := some attempt, pc := .installing attempt config })
  | .creating _, .created (.error e) =>
      some ((w.note (.createRaised k.appliedGeneration)).reconcile { k with
        pendingResult := some (.ofException e .empty)
        pendingGeneration := some k.appliedGeneration })
  | .installing attempt config, .locked now => some (w.install k attempt config now)
  | .launching attempt interrupt, .launch =>
      some ((w.note (.runStarted attempt)).withWorker { k with pc := .running attempt interrupt })
  | .running attempt _, .ran (.ok (some result)) =>
      some ((w.note (.runEnded attempt)).finishAttempt k attempt (some result) result.cleanup)
  | .running attempt _, .ran (.ok none) =>
      some ((w.note (.runEnded attempt)).withWorker { k with pc := .stopping attempt none })
  | .running attempt _, .ran (.error e) =>
      some ((w.note (.runEnded attempt)).withWorker { k with pc := .stopping attempt (some e) })
  | .stopping attempt error, .cleanup outcome =>
      let cleanup := stopped outcome
      some (w.finishAttempt k attempt (error.map (AttemptResult.ofException · cleanup)) cleanup)
  | .ending attempt result, .locked _ => some (w.clearAttempt k attempt result)
  | .dying error, .locked _ => some (w.workerFailed k error)
  | .lastReconcile error, .cleanup outcome =>
      let reconciliation := reconciled outcome
      some ((w.note (.reconcileReturned reconciliation.success)).withWorker { k with
        pc := .lastPublish
          ((CleanupResult.ofException "supervisor-worker" (by decide) error).merge
            reconciliation) })
  | .lastPublish result, .locked _ =>
      some ((w.publishClosed result).withWorker { k with pc := .exited })
  | .unstarted, _ => none
  | .exited, _ => none
  | .running _ _, _ => none
  | .dying _, .raise _ => some (w.withWorker { k with pc := .exited })
  | .lastReconcile _, .raise _ => some (w.withWorker { k with pc := .exited })
  | .lastPublish _, .raise _ => some (w.withWorker { k with pc := .exited })
  | _, .raise e => some (w.die k e)
  | _, _ => none

/-- `start`. -/
def start (w : Supervisor) (spawned : Bool) : Supervisor :=
  if w.closing || w.started then w
  else if spawned then
    ((({ w with started := true }).note .workerBegan).reconcile { pc := .reconciling })
  else ({ w with started := true }).withWorker { pc := .unstarted }

/-- `store.save(replacement)`, then the rest of the command if it returns. -/
def save (w : Supervisor) (replacement : LiveConfig) (outcome : SaveOutcome)
    (next : Supervisor → Supervisor) : Supervisor :=
  match outcome with
  | .saved => next { w with store := replacement, config := replacement }
  | .notSaved => w
  | .replacedNotSaved => { w with store := replacement }

def selectMode (w : Supervisor) (mode : DesiredMode) (outcome : SaveOutcome) : Supervisor :=
  if w.closing then w
  else w.save { w.config with mode := mode } outcome fun w =>
    let w := w.bump.interruptAttempt
    { w with status := { w.status with
      desiredMode := mode
      phase := if mode = .stopped then .stopping else .starting
      nextRetryAt := none
      lastError := none } }

/-- `update_config` with the replacement that validation returned, if it did. -/
def updateConfig (w : Supervisor) (replacement : Option LiveConfig) (outcome : SaveOutcome) :
    Supervisor :=
  if w.closing then w
  else match replacement with
    | none => w
    | some replacement =>
        if replacement = w.config then w
        else w.save replacement outcome fun w =>
          if replacement.mode ≠ .stopped then
            let w := w.bump.interruptAttempt
            { w with status := { w.status with
              desiredMode := replacement.mode
              phase := .starting
              nextRetryAt := none
              lastError := none } }
          else w

def restart (w : Supervisor) : Supervisor :=
  if w.closing then w
  else if w.config.mode = .stopped then w
  else
    let w := w.bump.interruptAttempt
    { w with status := { w.status with
      phase := .starting, nextRetryAt := none, lastError := none } }

def closer (w : Supervisor) (id : Nat) (pc : ClosePc) : Supervisor :=
  { w with closers := Function.update w.closers id (some pc) }

/-- `close` returns or raises: the close lock is free again. -/
def closed (w : Supervisor) (id : Nat) (pc : ClosePc) : Supervisor :=
  ({ w with closeLock := none }).closer id pc

/-- `close` has not returned before: it stops the current work. -/
def announceClose (w : Supervisor) : Supervisor :=
  let w := ({ w with closing := true }).bump.interruptAttempt
  { w with status := { w.status with phase := .stopping, nextRetryAt := none } }

/-- The first locked section of `close`. -/
def beginClose (w : Supervisor) (id : Nat) : Supervisor :=
  match w.closedResult with
  | some result =>
      if w.worker.isSome then w.closer id (.joinReturn result) else w.closed id (.returned result)
  | none =>
      if w.worker.isSome then w.announceClose.closer id .join
      else (w.announceClose.note .reconcileCalled).closer id .reconciling

/-- `worker.join()`: blocks until the worker has exited; raises if it never ran. -/
def joined (w : Supervisor) (id : Nat) (next : Supervisor) : Option Supervisor :=
  match w.worker.map Worker.pc with
  | some .exited => some next
  | some .unstarted => some (w.closed id .raised)
  | _ => none

/-- One step of a `close()` call. -/
def closeStep (w : Supervisor) (id : Nat) (outcome : Except Raised CleanupResult) :
    ClosePc → Option Supervisor
  | .closeLock =>
      if w.closeLock = none then some (({ w with closeLock := some id }).closer id .section)
      else none
  | .section => some (w.beginClose id)
  | .joinReturn result => w.joined id (w.closed id (.returned result))
  | .reconciling =>
      let result := reconciled outcome
      some ((w.note (.reconcileReturned result.success)).closer id (.publishing result))
  | .publishing result => some ((w.publishClosed result).closed id (.returned result))
  | .join => w.joined id (w.closer id .collect)
  | .collect =>
      match w.closedResult with
      | some result => some (w.closed id (.returned result))
      | none =>
          let result := CleanupResult.ofException "supervisor-worker" (by decide)
            ⟨"worker exited without cleanup result", by decide⟩
          some ((w.publishClosed result).closed id (.returned result))
  | .returned _ => none
  | .raised => none

/-- `_publish_attempt_event`; the callback reads the worker's variables when it is called. -/
def publish (w : Supervisor) (k : Worker) (event : AttemptEvent) : Supervisor :=
  if w.outdated k || w.currentAttempt ≠ k.attempt then w
  else { w with status := { w.status with
    phase := event.phase
    product := orElse event.product w.status.product
    version := orElse event.version w.status.version } }

def step (w : Supervisor) : Action → Option Supervisor
  | .start spawned => some (w.start spawned)
  | .selectMode mode outcome => some (w.selectMode mode outcome)
  | .updateConfig replacement outcome =>
      if replacement.all (·.mode = w.config.mode) then some (w.updateConfig replacement outcome)
      else none
  | .restart => some w.restart
  | .close id => if (w.closers id).isNone then some (w.closer id .closeLock) else none
  | .closeStep id outcome => (w.closers id).bind (w.closeStep id outcome)
  | .publish attempt event =>
      -- the callback exists once `run` has been called with it
      if .runStarted attempt ∈ w.log then w.worker.map (w.publish · event) else none
  | .work reply => w.worker.bind fun k => w.work k k.pc reply

end Supervisor

/-- The supervisor under every interleaving and every outcome. -/
def supervisorSystem : System Supervisor Action where
  step := Supervisor.step

end HccastWired.Live
