import HccastWired.Foundation.Binary64
import HccastWired.Foundation.Finally
import HccastWired.Live.Model

/-!
# The checkpoint runner

`main` runs one bounded attempt in a thread of its own, for a soak together with a
telemetry process and a page server that it owns. Every call outside is an answer; before
each of them the attempt's thread makes any number of moves.
-/

namespace HccastWired.Live

open Foundation

namespace Checkpoint

/-! ## The bench -/

/-- Where the attempt's thread is. -/
inductive WorkerStage
  | absent
  | started
  | running
  | settled
  | ended
deriving DecidableEq

inductive WorkerMove
  | begins
  /-- `publish`, whose `emit` may raise. -/
  | publishes (event : AttemptEvent) (emitted : Bool) (now : Rat)
  | settles (outcome : Except String AttemptResult)
  | ends

/-- What the attempt's thread writes; `runs` counts the calls of `attempt.run`. -/
structure Worker where
  stage : WorkerStage
  product : Option String
  version : Option String
  streamingStarted : Option Rat
  finished : Bool
  result : Option AttemptResult
  error : Option String
  runs : Nat

structure TelemetryResult where
  returncode : Option Int
  success : Bool
  error : Option String
deriving DecidableEq

/-- `TelemetryRecorder`, with its process. -/
structure Telemetry where
  result : Option TelemetryResult
  logClosed : Bool
deriving DecidableEq

/-- `DemoPageServer`. -/
structure DemoServer where
  thread : Bool
  closed : Bool
deriving DecidableEq

/-- What has been asked for an attempt. `released` is set by `attempt.stop` and by
`reconcile_stopped` and is reset when the attempt begins; `cleanup` is the last one that
was returned. -/
structure AttemptLedger where
  created : Bool
  begun : Bool
  stopped : Bool
  released : Bool
  healthRaised : Bool
  cleanup : Option CleanupResult
deriving DecidableEq

/-- What has been asked of the helpers; `closePolls` are the answers to the polls with
which the recorder's `close` begins. -/
structure HelperLedger where
  told : Bool
  closeCalled : Bool
  closePolls : List Bool
deriving DecidableEq

/-- The program holds neither of the ledgers. -/
structure Bench where
  index : Nat
  worker : Worker
  interrupted : Bool
  server : Option DemoServer
  telemetry : Option Telemetry
  attempt : AttemptLedger
  helpers : HelperLedger

def Bench.initial : Bench where
  index := 0
  worker := ⟨.absent, none, none, none, false, none, none, 0⟩
  interrupted := false
  server := none
  telemetry := none
  attempt := ⟨false, false, false, false, false, none⟩
  helpers := ⟨false, false, []⟩

/-- What `launcher.stop` raises. -/
inductive LauncherError
  | caught (text : String)
  | other (text : String)

/-- The answers of one run, each at the position at which it is asked for. -/
structure Answers where
  moves : Nat → List WorkerMove
  clock : Nat → Rat
  externalInterrupt : Nat → Bool
  create : Nat → Except String Unit
  stop : Nat → Except String CleanupResult
  reconcile : Nat → Except String CleanupResult
  bindServer : Nat → Except String Unit
  startServerThread : Nat → Except String Unit
  serverAlive : Nat → Bool
  shutdown : Nat → Except String Unit
  closeSocket : Nat → Except String Unit
  startTelemetry : Nat → Except String Unit
  poll : Nat → Except String (Option Int)
  launcherStop : Nat → Except LauncherError Int
  flush : Nat → Except String Unit
  closeLog : Nat → Except String Unit

/-- A move that the thread cannot make changes nothing. -/
def Worker.move (w : Worker) : WorkerMove → Worker
  | .begins => if w.stage = .started then { w with stage := .running, runs := w.runs + 1 } else w
  | .publishes event emitted now =>
      if w.stage = .running then
        { w with
          product := event.product <|> w.product
          version := event.version <|> w.version
          streamingStarted :=
            if emitted && event.phase = .streaming && w.streamingStarted.isNone then some now
            else w.streamingStarted }
      else w
  | .settles outcome =>
      if w.stage = .running then
        match outcome with
        | .ok result => { w with stage := .settled, result := some result, finished := true }
        | .error text => { w with stage := .settled, error := some text, finished := true }
      else w
  | .ends => if w.stage = .settled then { w with stage := .ended } else w

/-- `thread.is_alive()`. -/
def Worker.alive (w : Worker) : Bool :=
  w.stage ≠ .absent && w.stage ≠ .ended

abbrev CheckpointCall (α : Type) : Type := Task Bench String α

variable (env : Answers)

/-- The attempt's thread moves, and the next answer is asked for. -/
def tick : CheckpointCall Nat := do
  let b ← Call.get
  Call.update fun b => { b with
    index := b.index + 1
    worker := (env.moves b.index).foldl Worker.move b.worker }
  pure b.index

def noteAttempt (f : AttemptLedger → AttemptLedger) : CheckpointCall Unit :=
  Call.update fun b => { b with attempt := f b.attempt }

def noteHelpers (f : HelperLedger → HelperLedger) : CheckpointCall Unit :=
  Call.update fun b => { b with helpers := f b.helpers }

/-! ## The helpers of a soak -/

/-- `DemoPageServer()`. -/
def openServer : CheckpointCall Unit := do
  let i ← tick env
  Task.ofAnswer (env.bindServer i)
  Call.update fun b => { b with server := some ⟨false, false⟩ }

/-- `DemoPageServer.start`. -/
def startServer : CheckpointCall Unit := do
  let b ← Call.get
  match b.server with
  | none => pure ()
  | some server =>
      if server.closed then Task.raise "demo HTTP server is closed"
      else if server.thread then pure ()
      else do
        Call.update fun b =>
          { b with server := b.server.map fun server => { server with thread := true } }
        let i ← tick env
        Task.ofAnswer (env.startServerThread i)

/-- `DemoPageServer.poll_failure`. -/
def pollServer : CheckpointCall (Option String) := do
  let i ← tick env
  let b ← Call.get
  pure (if b.server.any fun server => server.thread && env.serverAlive i then none
    else some "demo-server-exited")

/-- `DemoPageServer.close`. -/
def closeServer : CheckpointCall Unit := do
  noteHelpers fun l => { l with closeCalled := true }
  let b ← Call.get
  match b.server with
  | none => pure ()
  | some server =>
      if server.closed then pure ()
      else do
        Task.when server.thread (do
          let i ← tick env
          Task.ofAnswer (env.shutdown i))
        let i ← tick env
        Task.ofAnswer (env.closeSocket i)
        Task.when server.thread (do
          let i ← tick env
          Task.refuse (env.serverAlive i) "demo HTTP server did not stop")
        Call.update fun b => { b with server := b.server.map fun _ => ⟨false, true⟩ }

/-- `TelemetryRecorder.start`, which leaves no process where it raises. -/
def startTelemetry : CheckpointCall Unit := do
  let i ← tick env
  Task.ofAnswer (env.startTelemetry i)
  Call.update fun b => { b with telemetry := some ⟨none, false⟩ }

/-- `TelemetryRecorder.poll_failure`. -/
def pollTelemetry : CheckpointCall (Option String) := do
  let i ← tick env
  match env.poll i with
  | .error text => do
      noteAttempt fun l => { l with healthRaised := true }
      Task.raise text
  | .ok none => pure none
  | .ok (some code) => pure (some ("telemetry-exited:" ++ toString code))

/-- `-signal.SIGTERM`. -/
def sigterm : Int := -15

/-- The process is told to stop; what the launcher's own errors say is kept. -/
def stopProcess : CheckpointCall (Option Int × Option String) := do
  noteHelpers fun l => { l with told := true }
  let i ← tick env
  match env.launcherStop i with
  | .ok code => pure (some code, none)
  | .error (.caught text) => pure (none, some text)
  | .error (.other text) => Task.raise text

/-- `flush`, `fsync` and `close` of the log. -/
def closeLog : CheckpointCall Unit := do
  let _ ← Task.finallyDo (do
      let b ← Call.get
      Task.refuse (b.telemetry.any (·.logClosed)) "I/O operation on closed file"
      let i ← tick env
      Task.ofAnswer (env.flush i)) (do
    let b ← Call.get
    Task.when (!b.telemetry.any (·.logClosed)) (do
      Call.update fun b =>
        { b with telemetry := b.telemetry.map fun t => { t with logClosed := true } }
      let i ← tick env
      Task.ofAnswer (env.closeLog i)))
  pure ()

def telemetryResult (controlledStop : Bool) (code : Option Int) (error : Option String) :
    TelemetryResult :=
  let success := error.isNone && (code = some 0 || (controlledStop && code = some sigterm))
  { returncode := code
    success
    error :=
      match error with
      | some text => some text
      | none =>
          if success then none
          else some ("tegrastats exited " ++ (code.map toString).getD "None") }

/-- `TelemetryRecorder.close`. -/
def closeTelemetry : CheckpointCall TelemetryResult := do
  let b ← Call.get
  match b.telemetry.bind (·.result) with
  | some result => pure result
  | none => do
      let i ← tick env
      noteHelpers fun l => { l with closePolls := l.closePolls ++ [(env.poll i).toOption.isSome] }
      let polled ← Task.ofAnswer (env.poll i)
      let ((code, error), ()) ← Task.finallyDo (stopProcess env) (closeLog env)
      let result := telemetryResult polled.isNone code error
      Call.update fun b =>
        { b with telemetry := b.telemetry.map fun t => { t with result := some result } }
      pure result

/-! ## One attempt -/

structure Durations where
  streamingSeconds : Rat
  totalDeadline : Rat
  shutdownGrace : Rat

/-- What `run_once` returns; a soak adds its telemetry. -/
structure CheckpointResult where
  terminalReason : String
  streamingObserved : Bool
  product : Option String
  version : Option String
  workerAlive : Bool
  workerError : Option String
  attemptResult : Option AttemptResult
  cleanup : CleanupResult
  telemetry : Option TelemetryResult
deriving DecidableEq

/-- `factory.create`. -/
def createAttempt : CheckpointCall Unit := do
  let i ← tick env
  Task.ofAnswer (env.create i)
  noteAttempt fun l => { l with created := true }

/-- `thread.start()`. -/
def startWorker : CheckpointCall Unit :=
  Call.update fun b => { b with
    worker := { b.worker with stage := .started }
    attempt := { b.attempt with begun := true, released := false } }

/-- `attempt.stop()`. -/
def stopAttempt : CheckpointCall CleanupResult := do
  noteAttempt fun l => { l with stopped := true, released := true }
  let i ← tick env
  let cleanup ← Task.ofAnswer (env.stop i)
  noteAttempt fun l => { l with cleanup := some cleanup }
  pure cleanup

/-- `factory.reconcile_stopped()`. -/
def reconcileStopped : CheckpointCall CleanupResult := do
  noteAttempt fun l => { l with released := true }
  let i ← tick env
  let cleanup ← Task.ofAnswer (env.reconcile i)
  noteAttempt fun l => { l with cleanup := some cleanup }
  pure cleanup

def interrupt : CheckpointCall Unit :=
  Call.update fun b => { b with interrupted := true }

/-- The polling loop of `run_once`, with a number of rounds that it may take. -/
def pollLoop (d : Durations) (healthFailure : CheckpointCall (Option String)) (started : Rat) :
    Nat → CheckpointCall String
  | 0 => Task.unfinished
  | rounds + 1 => do
      let _ ← tick env
      let b ← Call.get
      if b.worker.finished then pure "attempt-returned"
      else do
        let i ← tick env
        let now := env.clock i
        if env.externalInterrupt i then do
          interrupt
          pure "external-interrupt"
        else
          match ← healthFailure with
          | some failure => do
              interrupt
              pure failure
          | none => do
              let b ← Call.get
              if b.worker.streamingStarted.any fun at_ =>
                  decide (d.streamingSeconds ≤ roundBinary64 (now - at_)) then do
                interrupt
                pure "streaming-window-complete"
              else if d.totalDeadline ≤ roundBinary64 (now - started) then do
                interrupt
                pure "total-deadline"
              else pollLoop d healthFailure started rounds

/-- `thread.join`, where the condition holds. -/
def join (condition : Bench → Bool) : CheckpointCall Unit := do
  let _ ← tick env
  let b ← Call.get
  Task.when (condition b) (do
    let _ ← tick env
    pure ())

def runOnce (d : Durations) (healthFailure : CheckpointCall (Option String)) (rounds : Nat) :
    CheckpointCall CheckpointResult :=
  if min (min d.streamingSeconds d.totalDeadline) d.shutdownGrace ≤ 0 then
    Task.raise "checkpoint durations must be positive"
  else do
    createAttempt env
    let i ← tick env
    startWorker
    let reason ← pollLoop env d healthFailure (env.clock i) rounds
    join env (fun b => b.interrupted)
    let cleanup ← stopAttempt env
    join env (fun b => b.worker.alive)
    let _ ← tick env
    let b ← Call.get
    let reason := if b.worker.alive then "worker-stuck" else reason
    let _ ← tick env
    let b ← Call.get
    pure
      { terminalReason := reason
        streamingObserved := b.worker.streamingStarted.isSome
        product := b.worker.product
        version := b.worker.version
        workerAlive := b.worker.alive
        workerError := b.worker.error
        attemptResult := b.worker.result
        cleanup
        telemetry := none }

/-- The health check of a soak: `server.poll_failure() or telemetry.poll_failure()`. -/
def soakHealth : CheckpointCall (Option String) := do
  match ← pollServer env with
  | some failure => pure (some failure)
  | none => pollTelemetry env

def runDemoSoak (d : Durations) (rounds : Nat) : CheckpointCall CheckpointResult := do
  let (result, telemetryResult, ()) ← Task.finallyDo (do
      startServer env
      runOnce env d (soakHealth env) rounds)
    (Task.finallyDo (closeTelemetry env) (closeServer env))
  pure { result with
    telemetry := some telemetryResult
    terminalReason :=
      if !telemetryResult.success && !("telemetry-exited:".isPrefixOf result.terminalReason) then
        "telemetry-failed"
      else result.terminalReason }

/-! ## The operations -/

inductive Operation
  | reconcileOnly
  | runOnce
  | runKioskOnce
  | runDemoSoak
  | verifyStopped
deriving DecidableEq

/-- `_operation_policy`. -/
def operationPolicy : Operation → Durations
  | .runDemoSoak => ⟨1200, 1380, 20⟩
  | _ => ⟨20, 180, 15⟩

/-- The exit code for a result. -/
def verdict (result : CheckpointResult) : Nat :=
  if result.cleanup.success && !result.workerAlive && result.telemetry.all (·.success) then 0
  else 1

def main (operation : Operation) (rounds : Nat) : CheckpointCall Nat :=
  match operation with
  | .reconcileOnly | .verifyStopped => do
      let cleanup ← reconcileStopped env
      pure (if cleanup.success then 0 else 1)
  | .runOnce | .runKioskOnce => do
      let result ← runOnce env (operationPolicy operation) (pure none) rounds
      pure (verdict result)
  | .runDemoSoak => do
      match ← Task.settle (do
        openServer env
        startTelemetry env
        runDemoSoak env (operationPolicy operation) rounds) with
      | .ok result => pure (verdict result)
      | .error _ => do
          let b ← Call.get
          Task.when b.telemetry.isSome (do
            let _ ← closeTelemetry env
            pure ())
          Task.when b.server.isSome (closeServer env)
          let _ ← reconcileStopped env
          pure 1

end Checkpoint

end HccastWired.Live
