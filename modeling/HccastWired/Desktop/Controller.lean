import HccastWired.Foundation.Coroutine
import HccastWired.Desktop.StateStore

/-!
# The desktop controller

Commands, ticks, session changes and a close are tasks that take turns with the tasks they
create: the guarded operation, the stream, its cleanup and the heartbeat. A task gives up
control where the code awaits; the network, the media and the clock answer as they like.
-/

namespace HccastWired.Desktop.Controller

open Foundation

abbrev TaskId := Nat

inductive Status
  | stopped
  | discovering
  | connecting
  | streaming
  | retrying
  | error
deriving DecidableEq, Repr

/-- A receiver that a discovery has found. -/
structure Peer where
  id : String
  name : String
  peerAddress : String
deriving DecidableEq

inductive Exn
  | cancelled
  | error (text : String)
deriving DecidableEq

/-- A call of the network or of the media, or a sleep, that is awaited. -/
inductive Await
  | discover
  | connect (candidate : String)
  | release
  | keepAlive
  | start (link : PyValue) (profile : Profile)
  | ready
  | wait
  | close
  | sleep (seconds : Nat)
deriving DecidableEq

/-- `release` tells whether the network is restored. -/
def Await.Reply : Await → Type
  | .discover => List Peer
  | .connect _ => PyValue
  | .release => Bool
  | _ => Unit

inductive Verb
  | about
  | stop
  | restoreDefaults
  | start
  | discover
  | select
  | applyProfile
  | confirmProfile
  | revertProfile
  | other (text : String)
deriving DecidableEq

/-- What a guarded operation does. -/
inductive Action
  | stop (message : String)
  | restoreDefaults
  | start
  | discover
  | changeProfile (profile : Profile)
  | revert
deriving DecidableEq

inductive Kind
  | command (verb : Verb) (payload : PyValue)
  | tick
  | sessionChanged (active : Bool)
  | shutdown
  | guard (action : Action) (generation : Nat)
  | stream (generation : Nat)
  | cleanup
  | heartbeat (generation : Nat)
deriving DecidableEq

/-- The tasks of others, which call the controller. -/
def Kind.isRequest : Kind → Bool
  | .command _ _ => true
  | .tick => true
  | .sessionChanged _ => true
  | .shutdown => true
  | _ => false

/-- A task: `cancel` was called on it, and its outcome once it is done. -/
structure TaskRecord where
  kind : Kind
  cancelled : Bool
  outcome : Option (Except Exn Unit)

/-- What a call finds of the controller. -/
structure Gate where
  kind : Option Kind
  desired : Bool
  sessionUnlocked : Bool
  closed : Bool
  generation : Nat
deriving DecidableEq

/-- The history of the controller, which the code does not keep. -/
inductive Event
  | called (task : TaskId) (call : Await) (gate : Gate)
  | returned (task : TaskId) (call : Await)
  | created (task created : TaskId) (kind : Kind)
  /-- `desired` has changed to this. -/
  | switched (task : TaskId) (desired : Bool)
  | saved (task : TaskId) (operation : StoreOperation) (before after : StateStore)

/-- The attributes of `Controller` that it assigns itself; of the receiver the name. -/
structure Attributes where
  status : Status
  message : String
  candidates : List Peer
  receiver : Option String
  streamTask : Option TaskId
  operation : Option TaskId
  trialProfile : Option Profile
  desired : Bool
  resumeAfterUnlock : Bool
  sessionUnlocked : Bool
  closed : Bool
  nextHeartbeat : Rat
  stableSince : Option Rat
  stableRecorded : Bool
  reverting : Bool
  generation : Nat
  transitionLock : Bool
  streamCleanup : Option TaskId
  heartbeatTask : Option TaskId

/-- `self.desired = self.resume_after_unlock = False; self._generation += 1`. -/
def Attributes.invalidate (a : Attributes) : Attributes :=
  { a with desired := false, resumeAfterUnlock := false, generation := a.generation + 1 }

/-- The controller, its store, the tasks in the order of their creation, and the history,
newest first. -/
structure State extends Attributes where
  host : Host
  tasks : List TaskRecord
  log : List Event

namespace State

abbrev store (s : State) : StateStore :=
  s.host.store

def kindOf (s : State) (task : TaskId) : Option Kind :=
  (s.tasks[task]?).map TaskRecord.kind

/-- `task.done()`. -/
def done (s : State) (task : TaskId) : Bool :=
  (s.tasks[task]?).any fun r => r.outcome.isSome

/-- `task and not task.done()`. -/
def unfinished (s : State) (task : Option TaskId) : Bool :=
  task.any fun task => !s.done task

def isCancelled (s : State) (task : TaskId) : Bool :=
  (s.tasks[task]?).any TaskRecord.cancelled

def setCancelled (s : State) (task : TaskId) (cancelled : Bool) : State :=
  { s with tasks := s.tasks.modify task fun r => { r with cancelled := cancelled } }

def setOutcome (s : State) (task : TaskId) (outcome : Except Exn Unit) : State :=
  { s with tasks := s.tasks.modify task fun r => { r with outcome := some outcome } }

/-- `_can_stream`. -/
def canStream (s : State) (generation : Nat) : Bool :=
  generation = s.generation && s.desired && s.sessionUnlocked && !s.closed

def gate (s : State) (task : TaskId) : Gate :=
  ⟨s.kindOf task, s.desired, s.sessionUnlocked, s.closed, s.generation⟩

def record (s : State) (e : Event) : State :=
  { s with log := e :: s.log }

/-- `self.store.pending`. -/
def pending (s : State) : Option Trial :=
  s.store.pending

end State

section Effects

inductive Op
  | read
  | write (f : Attributes → Attributes)
  | clock
  | store (operation : StoreOperation)
  | create (kind : Kind)
  | cancel (task : TaskId)
  /-- A task that was created takes its first turn. -/
  | begin
  | call (call : Await)
  /-- Wait for a task; a cancelled `shield` leaves it alone. -/
  | join (task : TaskId) (shield : Bool)
  | acquire

def Answer : Op → Type
  | .read => State
  | .write _ => Unit
  | .clock => Rat
  | .store _ => Except Exn Bool
  | .create _ => TaskId
  | .cancel _ => Unit
  | .begin => Except Exn Unit
  | .call c => Except Exn c.Reply
  | .join _ _ => Except Exn Unit
  | .acquire => Except Exn Unit

/-- How the surroundings answer. Another process can replace the settings' file. -/
structure Move where
  clock : Rat
  edit : Option PathNode
  faults : FileOp → Bool
  discovered : Except Exn (List Peer)
  link : Except Exn PyValue
  restored : Except Exn Bool
  done : Except Exn Unit

def Move.reply (m : Move) : (call : Await) → Except Exn call.Reply
  | .discover => m.discovered
  | .connect _ => m.link
  | .release => m.restored
  | .keepAlive => m.done
  | .start _ _ => m.done
  | .ready => m.done
  | .wait => m.done
  | .close => m.done
  | .sleep _ => m.done

/-- `str(error)` of what a store raises. -/
def storeText : StoreError → String
  | .value message => message
  | .runtime message => message
  | .os => "[Errno]"
  | .overflow => "int too large to convert to float"
  | .recursion => "maximum recursion depth exceeded"

/-- A call of the store, with the truth of what it returns. -/
def storeCall (enc : Encoding) (faults : FileOp → Bool) : StoreOperation → StoreCall Bool
  | .confirmTrial now => StateStore.confirmTrial enc faults now
  | operation => operation.run enc faults >>= fun _ => pure true

def Host.edited (h : Host) (edit : Option PathNode) : Host :=
  { h with path := edit.getD h.path }

def saveStep (enc : Encoding) (task : TaskId) (m : Move) (operation : StoreOperation) (s : State) :
    Except Exn Bool × State :=
  let host := Host.edited s.host m.edit
  let call := storeCall enc m.faults operation
  (((call host).1).mapError fun e => .error (storeText e),
    { s with host := call.final host, log := .saved task operation s.store (call.final host).store :: s.log })

def writeStep (task : TaskId) (f : Attributes → Attributes) (s : State) : State :=
  let t : State := { s with toAttributes := f s.toAttributes }
  if t.desired = s.desired then t else t.record (.switched task t.desired)

def beginStep (task : TaskId) (s : State) : Except Exn Unit × State :=
  if s.isCancelled task then (.error .cancelled, s.setCancelled task false) else (.ok (), s)

/-- A cancellation is thrown into the call, which answers it as any other time. -/
def callStep (task : TaskId) (call : Await) (m : Move) (s : State) : Except Exn call.Reply × State :=
  match m.reply call with
  | .ok a => (.ok a, (s.setCancelled task false).record (.returned task call))
  | .error e => (.error e, s.setCancelled task false)

def joinStep (task joined : TaskId) (shield : Bool) (s : State) : Option (Except Exn Unit × State) :=
  if s.isCancelled task && (shield || s.done joined) then
    some (.error .cancelled, s.setCancelled task false)
  else
    match (s.tasks[joined]?).bind TaskRecord.outcome with
    | some outcome => some (outcome, s)
    | none => none

def acquireStep (task : TaskId) (s : State) : Option (Except Exn Unit × State) :=
  if s.isCancelled task then some (.error .cancelled, s.setCancelled task false)
  else if s.transitionLock then none
  else some (.ok (), { s with transitionLock := true })

def createStep (task : TaskId) (kind : Kind) (s : State) : TaskId × State :=
  (s.tasks.length, { s with
    tasks := s.tasks ++ [⟨kind, false, none⟩], log := .created task s.tasks.length kind :: s.log })

def answer (enc : Encoding) (task : TaskId) : (o : Op) → Move → State → Option (Answer o × State)
  | .read, _, s => some (s, s)
  | .write f, _, s => some ((), writeStep task f s)
  | .clock, m, s => some (m.clock, s)
  | .store operation, m, s => some (saveStep enc task m operation s)
  | .create kind, _, s => some (createStep task kind s)
  | .cancel task, _, s => some ((), s.setCancelled task true)
  | .begin, _, s => some (beginStep task s)
  | .call c, m, s => some (callStep task c m s)
  | .join joined shield, _, s => joinStep task joined shield s
  | .acquire, _, s => acquireStep task s

def suspends : Op → Bool
  | .begin => true
  | .call _ => true
  | .join _ _ => true
  | .acquire => true
  | _ => false

/-- A call is made before it is awaited. -/
def enter (task : TaskId) (o : Op) (s : State) : State :=
  match o with
  | .call c => s.record (.called task c (s.gate task))
  | _ => s

abbrev Act := Proc Op Answer Exn

end Effects

section Primitives

def read : Act State := Proc.effect Op.read

def write (f : Attributes → Attributes) : Act Unit := Proc.effect (Op.write f)

def clock : Act Rat := Proc.effect Op.clock

def create (kind : Kind) : Act TaskId := Proc.effect (Op.create kind)

def cancel (task : TaskId) : Act Unit := Proc.effect (Op.cancel task)

def store (operation : StoreOperation) : Act Bool := do
  let outcome ← Proc.effect (Op.store operation)
  Proc.ofAnswer outcome

def call (c : Await) : Act c.Reply := do
  let outcome ← Proc.effect (Op.call c)
  Proc.ofAnswer outcome

def join (task : TaskId) (shield : Bool) : Act Unit := do
  let outcome ← Proc.effect (Op.join task shield)
  Proc.ofAnswer outcome

def raise {α : Type} (text : String) : Act α := Proc.raise (.error text)

/-- `with contextlib.suppress(asyncio.CancelledError)`. -/
def suppressCancelled (x : Act Unit) : Act Unit :=
  Proc.handle x fun
    | .cancelled => pure ()
    | .error text => raise text

/-- `async with self._transition_lock`. -/
def withLock (x : Act Unit) : Act Unit := do
  let outcome ← Proc.effect Op.acquire
  Proc.ofAnswer outcome
  Proc.finallyDo x (write fun s => { s with transitionLock := false })

end Primitives

section Operations

def launch (action : Action) : Act Unit := do
  let s ← read
  Proc.refuse (s.unfinished s.operation)
    (.error "A connection change is already running; Stop remains available.")
  write fun s => { s with generation := s.generation + 1 }
  let task ← create (.guard action (s.generation + 1))
  write fun s => { s with operation := some task }

/-- The end of `_cancel_operation`. -/
def forgetOperation (task : Option TaskId) : Act Unit :=
  write fun s => if s.operation = task then { s with operation := none } else s

def cancelOperation : Act Unit := do
  let s ← read
  Proc.when (s.unfinished s.operation) do
    let task := s.operation.getD 0
    cancel task
    suppressCancelled (join task true)
  forgetOperation s.operation

/-- `_release`. -/
def releaseNetwork : Act Unit := do
  let restored ← call .release
  Proc.refuse (!restored) (.error "Network restoration needs attention; reconnect is stopped")

/-- `_stop_heartbeat`, of the task that runs it. -/
def stopHeartbeat (me : TaskId) : Act Unit := do
  let s ← read
  Proc.when (s.heartbeatTask.any (· ≠ me)) do
    let task := s.heartbeatTask.getD 0
    cancel task
    suppressCancelled (join task false)
    write fun s => if s.heartbeatTask = some task then { s with heartbeatTask := none } else s

/-- The stream's part of `_cleanup_stream`: `gather` swallows how the stream ended. -/
def joinStream (task : TaskId) : Act Unit := do
  let s ← read
  Proc.when (!s.done task) (cancel task)
  let _ ← Proc.settle (join task false)
  write fun s => if s.streamTask = some task then { s with streamTask := none } else s

def cleanupStream (me : TaskId) : Act Unit := do
  stopHeartbeat me
  let s ← read
  Proc.when s.streamTask.isSome (joinStream (s.streamTask.getD 0))
  Proc.finallyDo (call .close) (Proc.when s.streamTask.isSome releaseNetwork)

def stopStream : Act Unit := do
  let s ← read
  Proc.when (!s.unfinished s.streamCleanup) do
    let task ← create .cleanup
    write fun s => { s with streamCleanup := some task }
  let s ← read
  join (s.streamCleanup.getD 0) true

/-- `if self.store.pending: self.store.revert_trial()`. -/
def dropTrial : Act Unit := do
  let s ← read
  Proc.when s.pending.isSome do
    let _ ← store .revertTrial
    pure ()

/-- `_stop`. -/
def stop (message : String) : Act Unit := do
  write fun s => { s with desired := false }
  stopStream
  releaseNetwork
  dropTrial
  write fun s => { s with trialProfile := none, status := .stopped, message := message }

def stoppedMessage : String := "Stopped; original network restored"

def restoreDefaults : Act Unit := do
  stop "Restoring app defaults"
  let _ ← store .restoreDefaults
  write fun s => { s with
    status := .stopped
    message := "App defaults restored; prior configuration preserved in a private backup" }

/-- `if self._can_stream(generation): self.stream_task = create_task(self._stream(generation))`,
after what else is done then. -/
def startIfCan (generation : Nat) (f : Attributes → Attributes) : Act Unit := do
  let s ← read
  Proc.when (s.canStream generation) do
    write f
    let task ← create (.stream generation)
    write fun s => { s with streamTask := some task }

/-- `_start`. -/
def startStream (generation : Nat) : Act Unit := do
  stopStream
  let s ← read
  Proc.when (s.canStream generation) do
    releaseNetwork
    startIfCan generation id

def discover : Act Unit := do
  write fun s => { s with status := .discovering, message := "Looking for available wireless displays" }
  Proc.finallyDo (do
      releaseNetwork
      let candidates ← call .discover
      write fun s => { s with
        candidates := candidates
        status := .stopped
        message := "Found " ++ toString candidates.length ++ " available receiver(s)" })
    releaseNetwork

def changeProfile (profile : Profile) (generation : Nat) : Act Unit := do
  stopStream
  startIfCan generation fun s => { s with trialProfile := some profile }

def revert (generation : Nat) : Act Unit := do
  write fun s => { s with reverting := true }
  Proc.finallyDo (do
      stopStream
      dropTrial
      write fun s => { s with
        trialProfile := none, message := "Restoring the last confirmed display setting" }
      startIfCan generation id)
    (write fun s => { s with reverting := false })

def perform (generation : Nat) : Action → Act Unit
  | .stop message => stop message
  | .restoreDefaults => restoreDefaults
  | .start => startStream generation
  | .discover => discover
  | .changeProfile profile => changeProfile profile generation
  | .revert => revert generation

/-- `_guard`. -/
def guard (action : Action) (generation : Nat) : Act Unit :=
  Proc.handle (perform generation action) fun
    | .cancelled => Proc.raise .cancelled
    | .error text => write fun s =>
        if generation = s.generation then { s with status := .error, message := text } else s

end Operations

section Stream

def choose : Act Peer := do
  let s ← read
  match s.store.selectedDevice with
  | some device =>
      match s.candidates.find? fun p => lower p.peerAddress = device.address with
      | some peer => pure peer
      | none => raise "The selected receiver is absent; another screen will not be substituted"
  | none =>
      match s.candidates with
      | [peer] => do
          let _ ← store (.selectDevice (.str peer.peerAddress) (.str peer.name))
          pure peer
      | _ => raise "Select your receiver from the Connection page"

/-- `if not self._can_stream(generation): raise asyncio.CancelledError`. -/
def checkStream (generation : Nat) : Act Unit := do
  let s ← read
  Proc.refuse (!s.canStream generation) .cancelled

/-- An attempt up to the connection. -/
def prepare (generation : Nat) : Act Peer := do
  write fun s => { s with status := .discovering, message := "Finding the selected receiver" }
  let candidates ← call .discover
  write fun s => { s with candidates := candidates }
  checkStream generation
  let peer ← choose
  write fun s => { s with status := .connecting, message := "Connecting over Wi-Fi Direct" }
  pure peer

/-- `self.trial_profile or self.store.profile`. -/
def State.nextProfile (s : State) : Profile :=
  s.trialProfile.getD s.store.profile

def beginTrial (profile : Profile) : Act Unit := do
  let s ← read
  Proc.when (s.trialProfile.isSome && s.pending.isNone) do
    let now ← clock
    let _ ← store (.beginTrial (some profile) (.float now))
    pure ()

/-- An attempt from the connection on; the end of the stream is an error as well. -/
def present (generation : Nat) (peer : Peer) (link : PyValue) : Act Unit := do
  checkStream generation
  let s ← read
  call (.start link s.nextProfile)
  checkStream generation
  call .ready
  checkStream generation
  beginTrial s.nextProfile
  let now ← clock
  write fun s => { s with
    receiver := some peer.name
    status := .streaming
    message := "Normal desktop streaming; native panel resolution is unknown"
    stableSince := some now
    stableRecorded := false
    nextHeartbeat := 0 }
  call .wait
  raise "The display stream ended"

/-- The `try` block: how it ends, and `connected or not connect_attempted`. -/
def attempt (generation : Nat) : Act (Except Exn Unit × Bool) := do
  match ← Proc.settle (prepare generation) with
  | .error e => pure (.error e, true)
  | .ok peer =>
      match ← Proc.settle (call (.connect peer.id)) with
      | .error e => pure (.error e, false)
      | .ok link => do
          let outcome ← Proc.settle (present generation peer link)
          pure (outcome, true)

/-- `self.retry_delays[min(attempts - 1, 1)]`. -/
def retryDelay (attempts : Nat) : Nat :=
  if attempts ≤ 1 then 2 else 8

/-- What a failed trial leaves. -/
def failTrial : Act Unit := do
  let s ← read
  Proc.when (s.trialProfile.isSome || s.pending.isSome) do
    let _ ← store .revertTrial
    write fun s => { s with
      trialProfile := none, message := "Trial failed; restoring the last confirmed display setting" }

/-- `except asyncio.CancelledError`. -/
def abandon : Act Bool := do
  call .close
  releaseNetwork
  Proc.raise .cancelled

/-- `except Exception`: whether the loop goes on. -/
def fail (attempts : Nat) (release : Bool) (text : String) : Act Bool := do
  write fun s => { s with message := text }
  call .close
  Proc.when release releaseNetwork
  let _ ← store .recordFailure
  failTrial
  let s ← read
  if 3 ≤ attempts || s.store.recoveryRequired then do
    write fun s => { s with status := .error, desired := false }
    pure false
  else do
    write fun s => { s with status := .retrying }
    call (.sleep (retryDelay attempts))
    pure true

/-- One turn of the loop, after which this many are made. -/
def turn (generation attempts : Nat) : Act Bool :=
  Proc.finallyDo (do
      let ended ← attempt generation
      match ended.1 with
      | .error .cancelled => abandon
      | .error (.error text) => fail attempts ended.2 text
      | .ok () => pure true)
    (write fun s => { s with stableSince := none })

/-- The loop of `_stream`; `left` turns are left, of three. -/
def streamLoop (generation : Nat) : Nat → Act Unit
  | 0 => pure ()
  | left + 1 => do
      let s ← read
      if s.canStream generation then do
        let again ← turn generation (3 - left)
        if again then streamLoop generation left else pure ()
      else pure ()

/-- `_stream`. -/
def stream (generation : Nat) : Act Unit := do
  streamLoop generation 3
  releaseNetwork

end Stream

section Requests

def heartbeatLost : String :=
  "Network lease was lost; stopped capture and restored the network"

/-- `_heartbeat`, as the task with this identity. -/
def heartbeat (me : TaskId) (generation : Nat) : Act Unit :=
  Proc.finallyDo
    (Proc.handle (call .keepAlive) fun
      | .cancelled => Proc.raise .cancelled
      | .error _ => do
          let s ← read
          Proc.when (s.canStream generation) do
            write Attributes.invalidate
            withLock do
              cancelOperation
              launch (.stop heartbeatLost))
    (write fun s => if s.heartbeatTask = some me then { s with heartbeatTask := none } else s)

def isDict : PyValue → Bool
  | .dict _ => true
  | _ => false

/-- `payload` holds something. -/
def isFull : PyValue → Bool
  | .dict [] => false
  | _ => true

/-- A launch that leaves the stream wanted. -/
def launchStart : Act Unit := do
  launch .start
  write fun s => { s with desired := true }

def select (payload : PyValue) : Act Unit := do
  let s ← read
  Proc.refuse s.desired (.error "Stop before selecting another receiver")
  Proc.refuse (!payload.hasKeys ["candidate_id"]) (.error "A candidate id is required")
  match s.candidates.find? fun p => payload.get "candidate_id" = some (.str p.id) with
  | none => raise "Discover this receiver again before selecting it"
  | some peer => do
      let _ ← store (.selectDevice (.str peer.peerAddress) (.str peer.name))
      pure ()

def applyProfile (payload : PyValue) : Act Unit := do
  let s ← read
  Proc.refuse (decide (s.status ≠ .streaming)) (.error "Start the monitor before trying a display setting")
  Proc.refuse (s.pending.isSome || s.trialProfile.isSome) (.error "Keep or revert the current trial first")
  match Profile.fromDict payload with
  | .error e => raise e.text
  | .ok profile => do
      Proc.refuse (decide (profile.1.rotation ≠ 0)) (.error "Rotated capture is not verified yet")
      launch (.changeProfile profile)

/-- `pending and now >= pending["deadline"]`. -/
def State.expired (s : State) (now : Rat) : Bool :=
  s.pending.any fun trial => trial.deadline.le (.float now)

/-- `self.status != "streaming" or not self.store.confirm_trial(now)`. -/
def keepTrial (s : State) (now : Rat) : Act Bool :=
  if s.status = .streaming then store (.confirmTrial (.float now)) else pure false

def confirmProfile : Act Unit := do
  let now ← clock
  let s ← read
  Proc.when (s.expired now) do
    launch .revert
    raise "The display trial expired; restoring the last confirmed setting"
  let kept ← keepTrial s now
  Proc.refuse (!kept) (.error "No live display trial is available to keep")
  write fun s => { s with trialProfile := none, message := "Display settings saved" }

/-- `_command`. -/
def commandLocked (verb : Verb) (payload : PyValue) : Act Unit := do
  let s ← read
  Proc.refuse (s.closed || !isDict payload) (.error "Controller is closed or command is invalid")
  Proc.refuse (decide (verb ∉ [.select, .applyProfile]) && isFull payload)
    (.error "This command takes no arguments")
  match verb with
  | .about => pure ()
  | .stop => do
      cancelOperation
      launch (.stop stoppedMessage)
  | .restoreDefaults => do
      cancelOperation
      launch .restoreDefaults
  | .start => do
      Proc.refuse (!s.sessionUnlocked) (.error "Unlock the normal desktop first")
      Proc.refuse s.store.configError.isSome (.error "Restore the broken configuration first")
      launchStart
  | .discover => do
      Proc.refuse s.desired (.error "Stop the stream before discovering another receiver")
      launch .discover
  | .select => select payload
  | .applyProfile => applyProfile payload
  | .confirmProfile => confirmProfile
  | .revertProfile => do
      write fun s => { s with generation := s.generation + 1 }
      cancelOperation
      launch .revert
  | .other _ => raise "This feature is not available in the installed controller"

def command (verb : Verb) (payload : PyValue) : Act Unit := do
  let s ← read
  Proc.when (decide (verb ∈ [.stop, .restoreDefaults]) && !s.closed && isDict payload && !isFull payload)
    (write Attributes.invalidate)
  withLock (commandLocked verb payload)

def expireTrial : Act Unit := do
  let now ← clock
  let s ← read
  Proc.when (s.expired now && !s.reverting && !s.unfinished s.operation && !s.transitionLock)
    (launch .revert)

def renewLease : Act Unit := do
  let now ← clock
  let s ← read
  Proc.when (decide (s.status = .streaming) && decide (s.nextHeartbeat ≤ now) && s.heartbeatTask.isNone &&
      s.desired && s.sessionUnlocked && !s.unfinished s.operation) do
    let now ← clock
    write fun s => { s with nextHeartbeat := now + 10 }
    let task ← create (.heartbeat s.generation)
    write fun s => { s with heartbeatTask := some task }

def recordStable : Act Unit := do
  let now ← clock
  let s ← read
  Proc.when (decide (s.status = .streaming) && s.stableSince.any (fun since => 30 ≤ now - since) &&
      !s.stableRecorded) do
    let _ ← store .recordSuccess
    write fun s => { s with stableRecorded := true }

def tick : Act Unit := do
  let s ← read
  Proc.when (!s.closed) do
    expireTrial
    renewLease
    recordStable

/-- The session is locked: the stream is to be resumed if it was wanted. -/
def Attributes.lock (a : Attributes) : Attributes :=
  { a with desired := false, resumeAfterUnlock := a.desired, generation := a.generation + 1 }

def resumeStream : Act Unit := do
  let s ← read
  Proc.when (s.resumeAfterUnlock && s.sessionUnlocked && !s.closed) do
    write fun s => { s with resumeAfterUnlock := false }
    cancelOperation
    launchStart

def sessionChanged (active : Bool) : Act Unit := do
  let s ← read
  Proc.when (active ≠ s.sessionUnlocked) do
    write fun s => { s with sessionUnlocked := active }
    if active then withLock resumeStream
    else do
      write Attributes.lock
      withLock do
        cancelOperation
        stop "Desktop locked or unavailable; capture is paused"

/-- `close`. -/
def shutdown : Act Unit := do
  write fun s => { s.invalidate with closed := true }
  withLock do
    cancelOperation
    stopStream
    releaseNetwork

/-- The coroutine of a task. -/
def code (task : TaskId) : Kind → Act Unit
  | .command verb payload => command verb payload
  | .tick => tick
  | .sessionChanged active => sessionChanged active
  | .shutdown => shutdown
  | .guard action generation => guard action generation
  | .stream generation => stream generation
  | .cleanup => cleanupStream task
  | .heartbeat generation => heartbeat task generation

/-- A task that is cancelled before its first turn runs nothing. -/
def body (s : State) (task : TaskId) : Option (Act Unit) :=
  (s.kindOf task).map fun kind => Proc.effect Op.begin >>= fun outcome => do
    Proc.ofAnswer outcome
    code task kind

def kernel (enc : Encoding) : Kernel State Op Answer (Except Exn Unit) Move where
  suspends := suspends
  enter := enter
  answer := answer enc
  body := body
  finish task outcome s := s.setOutcome task outcome

/-- What happens outside: someone calls the controller, or gives up on a call. -/
inductive Outside
  | request (kind : Kind)
  | abandon (task : TaskId)

def outside : Outside → State → Option State
  | .request kind, s =>
      if kind.isRequest then some { s with tasks := s.tasks ++ [⟨kind, false, none⟩] } else none
  | .abandon task, s =>
      if (s.kindOf task).any Kind.isRequest then some (s.setCancelled task true) else none

def controller (enc : Encoding) : System (Tasks State Op Answer (Except Exn Unit)) (Turn Outside Move) :=
  (kernel enc).system outside

/-- `__init__`; the message is that of a broken configuration, if it is. -/
def initial (host : Host) : State where
  status := .stopped
  message := (host.store.configError.map Subtype.val).getD "Ready to connect"
  candidates := []
  receiver := none
  streamTask := none
  operation := none
  trialProfile := none
  desired := false
  resumeAfterUnlock := false
  sessionUnlocked := true
  closed := false
  nextHeartbeat := 0
  stableSince := none
  stableRecorded := false
  reverting := false
  generation := 0
  transitionLock := false
  streamCleanup := none
  heartbeatTask := none
  host := host
  tasks := []
  log := []

def start (host : Host) : Tasks State Op Answer (Except Exn Unit) :=
  ⟨initial host, fun _ => none⟩

end Requests

end HccastWired.Desktop.Controller
