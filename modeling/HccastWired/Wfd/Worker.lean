import HccastWired.Foundation.Timers
import HccastWired.Wfd.RawAlignment

/-!
# The worker's main loop

One thread dispatches timers, state changes of the sink, signals and the failure of the raw
input, in any order; the streaming thread goes on beside it. The log keeps what happened,
newest first.
-/

namespace HccastWired.Wfd

open Foundation Telemetry

/-- `pb_runtime_rejection`. -/
def runtimeRejection (continuous secondsExplicit adopted raw list selfTest : Bool) :
    Option String :=
  if !continuous then none
  else if secondsExplicit then some "continuous-and-seconds-are-exclusive"
  else if !adopted || !raw || list || selfTest then
    some "continuous-requires-adopted-raw-session"
  else none

/-- `pb_runtime_seconds`. -/
def runtimeSeconds (continuous : Bool) (seconds : Nat) : Nat := if continuous then 0 else seconds

/-- The options that `main` accepts. -/
structure Options where
  geometry : Geometry
  list : Bool
  selfTest : Bool
  continuous : Bool
  secondsExplicit : Bool
  adopted : Bool
  raw : Bool
  seconds : Nat
  connectTimeout : Nat
  calibration : Option (Nat × Nat)
  seconds_bounds : 1 ≤ seconds ∧ seconds ≤ 14400
  timeout_bounds : 1 ≤ connectTimeout ∧ connectTimeout ≤ 120
  runtime : runtimeRejection continuous secondsExplicit adopted raw list selfTest = none
  calibrated : calibrationRejection calibration.isSome calibration.isSome
    ((calibration.map Prod.fst).getD 0) ((calibration.map Prod.snd).getD 0) raw adopted continuous
    secondsExplicit list selfTest = none
  exclusive : (list && selfTest) = false
  alone : (adopted && (list || selfTest)) = false

namespace Options

/-- The length of the discovery, self-test or streaming window, in microseconds. -/
def windowUs (o : Options) : Nat := o.seconds * 1000000

def window (o : Options) : Option (Int × Int) :=
  o.calibration.map fun c => (Int.ofNat c.1, Int.ofNat c.2)

end Options

/-- The timer handles of the worker. -/
inductive Callback
  | start
  | run
  | choose
  | drain
  | telemetry
  | teardown
  | calibration
deriving DecidableEq

inductive SinkState
  | disconnected
  | streaming
  | error
  | other
deriving DecidableEq

/-- What the main loop has done. -/
inductive Event
  | streamingBegan (now : Nat)
  | windowElapsed (now : Nat) (decoded : Nat)
  | cohortComplete
  | finishCalled (status : Int)
  | finished (status : Int) (reason : String)
  | deadlinePassed (now : Nat)
deriving DecidableEq

structure Worker where
  input : RawInput
  now : Nat := 0
  timers : Timers Callback := {}
  sink : Bool := false
  started : Bool := false
  streaming : Bool := false
  closing : Bool := false
  decoded : Nat := 0
  exitStatus : Int := 0
  drainDeadline : Nat := 0
  calibrationDeadline : Nat := 0
  quit : Bool := false
  returned : Option Int := none
  states : List SinkState := []
  log : List Event := []

/-- What the callbacks learn from outside. -/
structure Reply where
  matching : Nat
  accepted : Bool
  active : Bool
  teardown : Bool
deriving DecidableEq

namespace Worker

def note (w : Worker) (e : Event) : Worker := { w with log := e :: w.log }

def forget (w : Worker) (c : Callback) : Worker := { w with timers := w.timers.forget c }

def clearTimer (w : Worker) (c : Callback) : Worker := { w with timers := w.timers.clear c }

def arm (w : Worker) (c : Callback) (delay : Nat) : Worker :=
  { w with timers := w.timers.arm c (w.now + delay) }

/-- A call on the metrics under their lock. -/
def measure (w : Worker) (call : ProbeCall) : Worker :=
  { w with input := { w.input with
    metrics := w.input.metrics.call (UInt64.ofNat w.now) call } }

/-- The timers that `finish` clears. -/
def clearAll (w : Worker) : Worker :=
  ((((w.clearTimer .start).clearTimer .run).clearTimer .choose).clearTimer .telemetry).clearTimer
    .calibration

/-- A failed end invalidates the calibration. -/
def abort (w : Worker) (status : Int) (reason : String) : Worker :=
  if status ≠ 0 then w.measure (.abort reason) else w

/-- The teardown of the receiver, if it is asked for one, and the drain of the network. -/
def armDrain (w : Worker) (teardown : Bool) : Worker :=
  let w := if w.sink && teardown then w.arm .teardown 1000000 else w
  ({ w with drainDeadline := w.now + 3000000 }).arm .drain 100000

/-- What `finish` does the first time. -/
def terminate (w : Worker) (status : Int) (reason : String) (teardown : Bool) : Worker :=
  ((({ w.note (.finished status reason) with
    closing := true
    exitStatus := status
    input := { w.input with stopping := true } }).clearAll).abort status reason).armDrain teardown

def finish (w : Worker) (status : Int) (reason : String) (teardown : Bool) : Worker :=
  let w := w.note (.finishCalled status)
  if w.closing then w else w.terminate status reason teardown

/-- Whether a source goes on after its callback, and when it is due again. -/
inductive Outcome
  | remove
  | goOn (delay : Nat)
deriving DecidableEq

/-- `g_main_loop_quit`. -/
def quitLoop (w : Worker) : Worker := { w.forget .drain with quit := true }

def drainComplete (o : Options) (w : Worker) (reply : Reply) : Worker × Outcome :=
  if w.timers.handle .teardown ≠ 0 then (w, .goOn 100000)
  else if o.adopted then (w.quitLoop, .remove)
  else if o.selfTest || !reply.active then (w.quitLoop, .remove)
  else if w.drainDeadline ≤ w.now then
    (({ w.note (.deadlinePassed w.now) with
      exitStatus := if w.exitStatus = 0 then 6 else w.exitStatus }).quitLoop, .remove)
  else (w, .goOn 100000)

def runComplete (o : Options) (w : Worker) (reply : Reply) : Worker × Outcome :=
  let w := (w.note (.windowElapsed w.now w.decoded)).forget .run
  if o.selfTest && decide (w.decoded = 0) then
    (w.finish 5 "self-test-produced-no-decoded-frames" reply.teardown, .remove)
  else
    (w.finish 0 (if o.selfTest then "source-encode-decode-window-complete"
      else if o.list then "discovery-window-complete" else "stream-window-complete")
      reply.teardown, .remove)

def startExpired (w : Worker) (reply : Reply) : Worker × Outcome :=
  ((w.forget .start).finish 3 "connection-deadline" reply.teardown, .remove)

/-- `pb_wfd_telemetry_calibration_closed`: ready, and complete. -/
def calibrationClosed (w : Worker) : Bool × Bool :=
  (w.input.metrics.cohort.closed && w.input.metrics.eos .encoderOut,
    w.input.metrics.cohortProblem.isNone)

/-- The first look behind the end of the window bounds the drain. -/
def requestEos (w : Worker) : Worker :=
  if w.input.calibrationEos = 1 then
    { w with
      input := { w.input with calibrationEos := 2 }
      calibrationDeadline := min w.calibrationDeadline (w.now + 5000000) }
  else w

def calibrationProgress (w : Worker) (reply : Reply) : Worker × Outcome :=
  let w := w.requestEos
  if w.calibrationClosed.1 then
    if w.calibrationClosed.2 then
      (((w.note .cohortComplete).forget .calibration).finish 0 "calibration-cohort-complete"
        reply.teardown, .remove)
    else
      ((w.forget .calibration).finish 5 "calibration-cohort-incomplete" reply.teardown, .remove)
  else if w.calibrationDeadline ≤ w.now then
    ((w.forget .calibration).finish 5 "calibration-window-or-drain-deadline" reply.teardown,
      .remove)
  else (w, .goOn 50000)

def choosePeer (w : Worker) (reply : Reply) : Worker × Outcome :=
  if reply.matching = 0 then (w, .goOn 2000000)
  else if 1 < reply.matching then
    ((w.forget .choose).finish 2 "ambiguous-peer-use-address" reply.teardown, .remove)
  else
    let w := { w with sink := true, started := true }
    let w := if reply.accepted then w else w.finish 4 "start-stream-rejected" reply.teardown
    (w.forget .choose, .remove)

def callback (o : Options) (w : Worker) (reply : Reply) : Callback → Worker × Outcome
  | .start => w.startExpired reply
  | .run => w.runComplete o reply
  | .choose => w.choosePeer reply
  | .drain => w.drainComplete o reply
  | .telemetry => (w, .goOn 1000000)
  | .teardown => (w.forget .teardown, .remove)
  | .calibration => w.calibrationProgress reply

/-- A source is dispatched, and goes on or is removed. -/
def dispatch (o : Options) (w : Worker) (s : Source Callback) (reply : Reply) : Worker :=
  match w.callback o reply s.callback with
  | (v, .remove) => { v with timers := v.timers.remove s.id }
  | (v, .goOn delay) => { v with timers := v.timers.again s.id (v.now + delay) }

/-- `handle_state` of the first `STREAMING`. -/
def beginStreaming (o : Options) (w : Worker) : Worker :=
  let w := ({ w with streaming := true }.note (.streamingBegan w.now)).clearTimer .start
  match o.calibration with
  | some (warmupMs, durationMs) =>
      let w := w.measure .streaming
      ({ w with
        calibrationDeadline := w.now + (warmupMs + durationMs + 5000) * 1000 }).arm .calibration
          50000
  | none =>
      if runtimeSeconds o.continuous o.seconds ≠ 0 then
        w.arm .run (runtimeSeconds o.continuous o.seconds * 1000000)
      else w

def handleState (o : Options) (w : Worker) (state : SinkState) (teardown : Bool) : Worker :=
  if w.closing = false ∧ state = .streaming ∧ w.streaming = false then w.beginStreaming o
  else if w.closing = false ∧
      (state = .error ∨ (state = .disconnected ∧ w.started = true)) then
    if w.input.calibrationEos ≠ 0 ∧ w.calibrationClosed.1 = true ∧ w.calibrationClosed.2 = true then
      (w.note .cohortComplete).finish 0 "calibration-cohort-complete-after-eos" teardown
    else w.finish 4 "sink-disconnected-or-error" teardown
  else w

/-- `input_failure`. -/
def inputFailure (w : Worker) (teardown : Bool) : Worker :=
  ({ w with input := { w.input with failureSources := w.input.failureSources - 1 } }).finish 5
    (if w.input.inputFailed = 2 then "raw-input-push-failed" else "raw-input-eof-or-read-error")
    teardown

end Worker

/-- What `main` meets before it runs the loop. -/
inductive Setup
  | argumentError
  | pipelineError
  | networkError
  | ready (adoptionAccepted teardown : Bool)
deriving DecidableEq

/-- The worker before any timer is armed. -/
def Worker.create (o : Options) (byte : Nat → UInt8) : Worker :=
  { input := RawInput.start byte o.window }

/-- The telemetry timer, but for a discovery. -/
def Worker.armTelemetry (o : Options) (w : Worker) : Worker :=
  if o.list then w else w.arm .telemetry 1000000

/-- `adopt_existing`. -/
def Worker.adoptExisting (o : Options) (w : Worker) (accepted teardown : Bool) : Worker :=
  let w := ({ w with sink := true, started := true }).arm .start (o.connectTimeout * 1000000)
  if accepted then w else w.finish 4 "adopt-connection-rejected" teardown

/-- The timers of the mode. -/
def Worker.armMode (o : Options) (w : Worker) (accepted teardown : Bool) : Worker :=
  if o.selfTest then w.arm .run o.windowUs
  else if o.adopted then w.adoptExisting o accepted teardown
  else if o.list then w.arm .run o.windowUs
  else (w.arm .start (o.connectTimeout * 1000000)).arm .choose 2000000

/-- `main` up to the loop, or the status that it returns early. -/
def main (o : Options) (byte : Nat → UInt8) : Setup → Except Int Worker
  | .argumentError => .error 2
  | .pipelineError => .error 5
  | .networkError => .error 2
  | .ready adoptionAccepted teardown =>
      .ok (((Worker.create o byte).armTelemetry o).armMode o adoptionAccepted teardown)

/-- What happens next to the worker. -/
inductive WorkerAction
  | tick (elapsed : Nat)
  | stream (a : Action)
  | decode
  | sinkState (state : SinkState)
  | signal (teardown : Bool)
  | testBus (endOfStream teardown : Bool)
  | dispatchFailure (teardown : Bool)
  | dispatchState (state : SinkState) (teardown : Bool)
  | dispatch (id : Nat) (reply : Reply)
  | leave

/-- What the other threads do to the raw input. -/
def besideLoop : Action → Bool
  | .inputFailure => false
  | .stop => false
  | .calibrationProgress => false
  | .probe _ .streaming => false
  | .probe _ (.abort _) => false
  | _ => true

namespace Worker

/-- `main` behind the loop. -/
def leave (w : Worker) : Worker :=
  { (((w.clearTimer .telemetry).clearTimer .calibration).clearTimer .teardown) with
    input := { w.input with stopping := true }
    returned := some w.exitStatus }

/-- One step of a worker whose `main` has not returned. -/
def step (o : Options) (w : Worker) (a : WorkerAction) : Option Worker :=
  if w.returned.isSome then none
  else
    match a with
    | .tick elapsed => some { w with now := w.now + elapsed }
    | .stream a =>
        if besideLoop a then
          (w.input.step o.geometry a).map fun input => { w with input }
        else none
    | .decode => some { w with decoded := w.decoded + 1 }
    | .sinkState state => if w.sink then some { w with states := w.states ++ [state] } else none
    | .signal teardown => some (w.finish 130 "signal" teardown)
    | .testBus endOfStream teardown =>
        if o.selfTest then
          some (w.finish 5
            (if endOfStream then "unexpected-self-test-eos" else "self-test-pipeline-error")
            teardown)
        else none
    | .dispatchFailure teardown =>
        if w.input.failureSources = 0 then none else some (w.inputFailure teardown)
    | .dispatchState state teardown =>
        if state ∈ w.states then
          some (({ w with states := w.states.erase state }).handleState o state teardown)
        else none
    | .dispatch id reply =>
        (w.timers.sources.find? fun s => decide (s.id = id ∧ s.due ≤ w.now)).map
          (w.dispatch o · reply)
    | .leave => if w.quit then some w.leave else none

end Worker

def workerSystem (o : Options) : System Worker WorkerAction where
  step := Worker.step o

end HccastWired.Wfd
