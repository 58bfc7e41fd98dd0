import HccastWired.Foundation.System
import HccastWired.Live.Model

/-!
# One attempt over owned processes

A `run()` call, any number of `stop()` calls and the attempt's lifecycle. The
run's program counter names the external call it is inside or the locked
section it is about to enter; launcher, probes, evidence writer, publish
callback and clock answer in the action. Only the run takes the mutation lock,
so that lock has no state here.
-/

namespace HccastWired.Live

open Foundation

/-- Which `except` clauses an exception meets. -/
inductive ThrownKind where
  | command | lookup | other | keyboardInterrupt | systemExit
  deriving DecidableEq, Repr

structure Thrown where
  kind : ThrownKind
  message : Raised
  deriving DecidableEq

/-- `Exception`, as opposed to `KeyboardInterrupt` and `SystemExit`. -/
def Thrown.isException (e : Thrown) : Bool :=
  match e.kind with
  | .command | .lookup | .other => true
  | .keyboardInterrupt | .systemExit => false

/-- The optional processes of a `LiveCommandPlan`. -/
structure LiveCommandPlan where
  x11vnc : Bool
  websockify : Bool
  chromium : Bool
  deriving DecidableEq, Repr

inductive Child where
  | xvfb | openbox | x11vnc | websockify | chromium | gadget | encoder | stockServiceStop
  deriving DecidableEq, Repr

/-- The children that `_source_exited` watches. -/
def Child.isSource : Child → Bool
  | .gadget | .encoder => false
  | _ => true

/-- The processes started between the display and the gadget. -/
def LiveCommandPlan.sources (plan : LiveCommandPlan) : List Child :=
  [.openbox] ++ (if plan.x11vnc then [.x11vnc] else []) ++
    (if plan.websockify then [.websockify] else []) ++
    (if plan.chromium then [.chromium] else [])

inductive Lifecycle where
  | created | running | cleaning | finished | stoppedBeforeRun
  deriving DecidableEq, Repr

def Lifecycle.name : Lifecycle → String
  | .created => "CREATED"
  | .running => "RUNNING"
  | .cleaning => "CLEANING"
  | .finished => "FINISHED"
  | .stoppedBeforeRun => "STOPPED_BEFORE_RUN"

/-- No `stop()` waits in these states. -/
def Lifecycle.isFinal : Lifecycle → Bool
  | .finished | .stoppedBeforeRun => true
  | _ => false

namespace SubprocessAttempt

/-- The phases that `_wait_for_handshake` has published. -/
structure Observed where
  waiting : Bool := false
  handshaking : Bool := false
  deriving DecidableEq

/-- What follows `publish_observed`. -/
inductive After where
  | loop | drained | final
  deriving DecidableEq

/-- What follows a `_source_exited` that found every source alive. -/
inductive Next where
  | spec (child : Child) (rest : List Child)
  | stockServiceStop
  | owners
  | encoder
  deriving DecidableEq

/-- Where `_active_lifecycle` is. -/
inductive Stage where
  | socketProbe
  | preparing (child : Child) (rest : List Child)
  | launching (child : Child) (rest : List Child)
  | draining (child : Child) (rest : List Child)
  | readinessHead
  | readiness
  | readinessLast
  | readyPoll (ready : Bool)
  | sourceCheck (next : Next)
  | preparingCommand
  | commanding
  | owners
  | handshakeHead (seen : Observed)
  | publishing (phase : RuntimePhase) (seen : Observed) (after : After)
  | inspecting (seen : Observed) (after : After)
  | gadgetPoll (seen : Observed)
  | drainHead (seen : Observed)
  | drainWait (seen : Observed)
  | publishStreaming
  | streaming
  deriving DecidableEq

/-- How the `try` block around `_active_lifecycle` ends. -/
inductive Ended where
  | interrupted
  | failed (error : String)
  | base (error : Thrown)
  deriving DecidableEq

/-- How `run` ends without having started its evidence writer. -/
inductive Early where
  | stopped
  | failed (error : Thrown)
  | raised (error : Thrown)
  deriving DecidableEq

inductive Exit where
  | returned (result : Option AttemptResult)
  | raised (error : Thrown)
  deriving DecidableEq

/-- Where `run()` is. -/
inductive Pc where
  | entry
  | opening
  | writerStart
  | settling (early : Early)
  | active (stage : Stage)
  | owning (ended : Ended)
  | cleaning (ended : Ended)
  | caching (ended : Ended) (result : CleanupResult)
  | timing (ended : Ended) (cleanup : CleanupResult)
  | finalizing (ended : Ended) (result : AttemptResult)
  | finishing (cleanup : CleanupResult) (exit : Exit)
  | done (exit : Exit)
  deriving DecidableEq

/-- Where a `stop()` call is. -/
inductive StopPc where
  | entry
  | asleep
  | woken
  | returned (result : CleanupResult)
  | assertionError
  deriving DecidableEq

inductive Event where
  | stoppedBeforeRun
  | evidenceStarted
  | launched (child : Child)
  | cleanupBegan
  deriving DecidableEq

/-- What a pass over the handshake parser and the gadget sees. -/
structure Inspection where
  error : Option String := none
  outcome : Option (String × String) := none
  alive : Bool := true
  observed : Bool := false
  workerErrors : Bool := false
  exited : List Child := []

/-- What a pass of the streaming loop sees. -/
structure Observation where
  exited : List Child := []
  stdoutEof : Bool := false
  pumpDone : Option (Option String) := none
  encoderLate : Bool := false
  workerErrors : Bool := false

/-- How the external call or locked section of `run()` ends. -/
inductive Reply where
  | go
  | answer (yes : Bool)
  | tick (now waiting setr : Bool)
  | clock (time : Rat)
  | polled (exited : List Child)
  | code (code : Option Int)
  | inspected (seen : Inspection)
  | streamed (seen : Observation)
  | cleanup (outcome : Except Thrown CleanupResult)
  | raise (error : Thrown)

inductive Action where
  | run
  | runStep (reply : Reply)
  | stop (id : Nat)
  | stopStep (id : Nat)
  | interrupt

end SubprocessAttempt

structure SubprocessAttempt where
  plan : LiveCommandPlan
  lifecycle : Lifecycle := .created
  cleanupResult : Option CleanupResult := none
  stopRequested : Bool := false
  activeInterrupt : Bool := false
  interrupted : Bool := false
  children : List Child := []
  evidenceStarted : Bool := false
  evidenceFinalizeAttempted : Bool := false
  product : Option String := none
  version : Option String := none
  streamingAt : Option Rat := none
  caller : Option SubprocessAttempt.Pc := none
  stops : Nat → Option SubprocessAttempt.StopPc := fun _ => none
  log : List SubprocessAttempt.Event := []

namespace SubprocessAttempt

def create (plan : LiveCommandPlan) : SubprocessAttempt := { plan }

def note (w : SubprocessAttempt) (e : Event) : SubprocessAttempt := { w with log := e :: w.log }

def goto (w : SubprocessAttempt) (pc : Pc) : SubprocessAttempt := { w with caller := some pc }

/-- `_is_interrupted`. -/
def isInterrupted (w : SubprocessAttempt) : Bool := w.interrupted || w.stopRequested

/-- `_lifecycle.notify_all()`. -/
def notifyAll (w : SubprocessAttempt) : SubprocessAttempt :=
  { w with stops := fun id => if w.stops id = some .asleep then some .woken else w.stops id }

section Active

def stage (w : SubprocessAttempt) (s : Stage) : SubprocessAttempt := w.goto (.active s)

/-- `_active_lifecycle` returns, and `run` looks at what it returned. -/
def leave (w : SubprocessAttempt) (error : Option String) : SubprocessAttempt :=
  w.goto (.owning (match error with
    | some error => .failed error
    | none => if w.isInterrupted then .interrupted else .failed "stream-pipe"))

/-- `_active_lifecycle` raises into the handlers of `run`. -/
def raise (w : SubprocessAttempt) (e : Thrown) : SubprocessAttempt :=
  w.goto (.owning (match e.kind with
    | .keyboardInterrupt | .systemExit => .base e
    | .command | .lookup => .failed ("startup-failed: " ++ e.message.1)
    | .other => .failed ("internal-failure: " ++ e.message.1)))

/-- `if self._is_interrupted(interrupted): return None`. -/
def check (w : SubprocessAttempt) (next : SubprocessAttempt) : SubprocessAttempt :=
  if w.isInterrupted then w.leave none else next

/-- `_source_exited` of the children that `poll` finds exited. -/
def sourceExited (w : SubprocessAttempt) (exited : List Child) : Bool :=
  w.children.any fun child => child.isSource && exited.contains child

/-- `_start`, up to the launcher. -/
def start (w : SubprocessAttempt) (child : Child) (rest : List Child) : SubprocessAttempt :=
  w.check (w.stage (.preparing child rest))

/-- The `for` loop over the sources. -/
def nextSpec (w : SubprocessAttempt) : List Child → SubprocessAttempt
  | [] => w.stage (.sourceCheck .stockServiceStop)
  | child :: rest => w.stage (.sourceCheck (.spec child rest))

/-- After the drainers of a new child have been started. -/
def drained (w : SubprocessAttempt) (rest : List Child) : Child → SubprocessAttempt
  | .xvfb => w.stage .readinessHead
  | .gadget => w.stage (.handshakeHead {})
  | .encoder => w.check (w.stage .publishStreaming)
  | _ => w.check (w.nextSpec rest)

/-- The second half of `publish_observed`. -/
def observeSetr (w : SubprocessAttempt) (seen : Observed) (after : After) (setr : Bool) :
    SubprocessAttempt :=
  if seen.waiting && setr && !seen.handshaking then w.stage (.publishing .handshaking seen after)
  else w.stage (.inspecting seen after)

/-- `publish_observed`. -/
def observe (w : SubprocessAttempt) (seen : Observed) (after : After) (waiting setr : Bool) :
    SubprocessAttempt :=
  if waiting && !seen.waiting then w.stage (.publishing .waitingForScreen seen after)
  else w.observeSetr seen after setr

/-- `_wait_for_handshake` returns the product and the version. -/
def handshake (w : SubprocessAttempt) (outcome : String × String) : SubprocessAttempt :=
  let w := { w with product := some outcome.1, version := some outcome.2 }
  w.check (w.stage (.sourceCheck .encoder))

/-- `self._product, self._version = parser.outcome`, if there is one. -/
def withOutcome (w : SubprocessAttempt) (outcome : Option (String × String)) :
    SubprocessAttempt :=
  match outcome with
  | some (product, version) => { w with product := some product, version := some version }
  | none => w

/-- A pass of `_wait_for_handshake` after it has published. -/
def inspect (w : SubprocessAttempt) (seen : Observed) (i : Inspection) : After → SubprocessAttempt
  | .loop =>
      match i.error, i.outcome, i.alive && i.observed with
      | some error, _, _ => w.leave (some error)
      | none, some outcome, true => w.handshake outcome
      | none, outcome, _ =>
          let w := w.withOutcome outcome
          if i.alive = false then w.stage (.gadgetPoll seen)
          else if i.workerErrors then w.leave (some "stream-pipe")
          else if w.sourceExited i.exited then w.leave (some "source-exited")
          else w.stage (.handshakeHead seen)
  | .drained =>
      match i.error with
      | some error => w.leave (some error)
      | none =>
          (w.withOutcome i.outcome).leave
            (some (if i.workerErrors then "stream-pipe" else "gadget-exited"))
  | .final =>
      match i.error, i.outcome, i.observed with
      | some error, _, _ => w.leave (some error)
      | none, some outcome, true => w.handshake outcome
      | none, _, _ => w.leave (some "handshake-timeout")

/-- A pass of the loop over the running stream. -/
def streamed (w : SubprocessAttempt) (o : Observation) : SubprocessAttempt :=
  if w.sourceExited o.exited then w.leave (some "source-exited")
  else if o.exited.contains .gadget then w.leave (some "gadget-exited")
  else if o.exited.contains .encoder then w.leave (some "encoder-exited")
  else if o.stdoutEof then w.leave (some "gadget-stdout-eof")
  else match o.pumpDone with
    | some result =>
        if o.encoderLate then w.leave (some "encoder-exited")
        else w.leave (orElse result (some "stream-pipe"))
    | none =>
        if o.workerErrors then w.leave (some "stream-pipe")
        else w.check (w.stage .streaming)

/-- One step of `_active_lifecycle`. -/
def active (w : SubprocessAttempt) : Stage → Reply → Option SubprocessAttempt
  | .socketProbe, .answer present =>
      some (if present then w.leave (some "x-socket-preexisting") else w.start .xvfb [])
  | .preparing child rest, .go => some ((w.note (.launched child)).stage (.launching child rest))
  | .launching child rest, .go =>
      some ({ w with children := w.children ++ [child] }.stage (.draining child rest))
  | .draining child rest, .go => some (w.drained rest child)
  | .readinessHead, .tick expired _ _ =>
      some (w.check (w.stage (if expired then .readinessLast else .readiness)))
  | .readiness, .answer yes => some (w.stage (if yes then .readyPoll true else .readinessHead))
  | .readinessLast, .answer yes => some (w.stage (.readyPoll yes))
  | .readyPoll ready, .answer exited =>
      some (if exited then w.leave (some "source-exited")
        else if ready = false then w.leave (some "x-readiness-timeout")
        else w.check (w.nextSpec w.plan.sources))
  | .sourceCheck next, .polled exited =>
      some (if w.sourceExited exited then w.leave (some "source-exited")
        else match next with
          | .spec child rest => w.start child rest
          | .stockServiceStop => w.check (w.stage .preparingCommand)
          | .owners => w.stage .owners
          | .encoder => w.start .encoder [])
  | .preparingCommand, .go => some ((w.note (.launched .stockServiceStop)).stage .commanding)
  | .commanding, .code code =>
      some (match code with
        | none => w.leave none
        | some code => w.check
            (if code = 0 then w.stage (.sourceCheck .owners)
              else w.leave (some "stock-stop-failed")))
  | .owners, .answer owned =>
      some (if owned then w.leave (some "udc-not-free") else w.start .gadget [])
  | .handshakeHead seen, .tick expired waiting setr =>
      some (if expired then w.stage (.gadgetPoll seen)
        else w.check (w.observe seen .loop waiting setr))
  | .publishing .waitingForScreen seen after, .answer setr =>
      some (w.observeSetr { seen with waiting := true } after setr)
  | .publishing .handshaking seen after, .go =>
      some (w.stage (.inspecting { seen with handshaking := true } after))
  | .inspecting seen after, .inspected i => some (w.inspect seen i after)
  | .gadgetPoll seen, .tick dead waiting setr =>
      some (if dead then w.stage (.drainHead seen) else w.observe seen .final waiting setr)
  | .drainHead seen, .tick done waiting setr =>
      some (if done then w.observe seen .drained waiting setr
        else w.check (w.stage (.drainWait seen)))
  | .drainWait seen, .tick expired waiting setr =>
      some (if expired then w.observe seen .drained waiting setr else w.stage (.drainHead seen))
  | .publishStreaming, .clock time =>
      let w := { w with streamingAt := some time }
      some (w.check (w.stage .streaming))
  | .streaming, .streamed o => some (w.streamed o)
  | .commanding, .raise e =>
      some (if e.kind = .command then w.leave (some "stock-stop-failed") else w.raise e)
  | .readinessHead, .raise _ => none
  | .drainHead _, .raise _ => none
  | .drainWait _, .raise _ => none
  | _, .raise e => some (w.raise e)
  | _, _ => none

end Active

/-- The result of a run that has ended. -/
def attemptResult (w : SubprocessAttempt) (classification : AttemptClassification)
    (error : Option String) (now : Rat) (cleanup : CleanupResult) : AttemptResult where
  classification := classification
  error := error
  product := w.product
  version := w.version
  streamingDuration := match w.streamingAt with
    | some start => max 0 (now - start)
    | none => 0
  cleanup := cleanup
  nonneg := by
    split
    · rw [Rat.max_def]
      split
      · assumption
      · exact Rat.le_refl
    · exact Rat.le_refl

/-- The evidence recorded for each way `_active_lifecycle` ends. -/
def evidence (w : SubprocessAttempt) (now : Rat) (cleanup : CleanupResult) :
    Ended → AttemptResult
  | .interrupted => w.attemptResult .completed none now cleanup
  | .failed error => w.attemptResult .failure (some error) now cleanup
  | .base e => w.attemptResult .failure (some ("internal-interrupt: " ++ e.message.1)) now cleanup

/-- How `run` ends once `_finalize_once` has returned or raised. -/
def finalized (ended : Ended) (result : AttemptResult) : Option Thrown → Exit
  | none =>
      match ended with
      | .interrupted => .returned none
      | .failed _ => .returned (some result)
      | .base e => .raised e
  | some caught =>
      match ended with
      | .base e => .raised e
      | _ =>
          if caught.isException then
            .returned (some { result with
              classification := .failure
              error := some ("evidence-failed: " ++ caught.message.1) })
          else .raised caught

/-- `_finalize_once`, up to `writer.finalize`. -/
def finalizeOnce (w : SubprocessAttempt) (ended : Ended) (result : AttemptResult) :
    SubprocessAttempt :=
  if w.evidenceFinalizeAttempted then
    w.goto (.finishing result.cleanup (finalized ended result
      (some ⟨.other, "evidence finalization was already attempted", by decide⟩)))
  else { w with evidenceFinalizeAttempted := true }.goto (.finalizing ended result)

/-- What `run` returns or raises after `_settle_without_side_effects`. -/
def Early.exit (cleanup : CleanupResult) : Early → Exit
  | .stopped => .returned none
  | .raised e => .raised e
  | .failed e => .returned (some {
      classification := .failure
      error := some ("startup-failed: " ++ e.message.1)
      product := none
      version := none
      streamingDuration := 0
      cleanup := cleanup
      nonneg := zero_duration })

/-- `self._cleanup_result = result`, unless there is one. -/
def cache (w : SubprocessAttempt) (result : CleanupResult) : SubprocessAttempt :=
  { w with cleanupResult := some (w.cleanupResult.getD result) }

/-- `_run_owned_cleanup` of an outcome of `_cleanup`. -/
def owned : Except Thrown CleanupResult → CleanupResult
  | .ok result => result
  | .error e => .ofException "cleanup-internal" (by decide) e.message

/-- One step of `run`. -/
def runStep (w : SubprocessAttempt) : Pc → Reply → Option SubprocessAttempt
  | .entry, .go =>
      match w.lifecycle with
      | .stoppedBeforeRun => some (w.goto (.done (.returned none)))
      | .created =>
          some ({ w with lifecycle := .running, activeInterrupt := true }.goto .opening)
      | _ =>
          some (w.goto (.done (.raised
            ⟨.other, "an attempt may run only once", by decide⟩)))
  | .opening, .go =>
      some (w.goto (if w.stopRequested then .settling .stopped else .writerStart))
  | .writerStart, .go =>
      let w := ({ w with evidenceStarted := true }).note .evidenceStarted
      some (w.check (w.stage .socketProbe))
  | .writerStart, .raise e =>
      some (w.goto (.settling (if e.isException then .failed e else .raised e)))
  | .settling early, .go =>
      let w := w.cache .empty
      let cleanup := w.cleanupResult.getD .empty
      some (w.goto (.finishing cleanup (early.exit cleanup)))
  | .active s, reply => w.active s reply
  | .owning ended, .go =>
      match w.cleanupResult with
      | some cleanup => some (w.goto (.timing ended cleanup))
      | none =>
          if w.lifecycle ≠ .running then
            some (w.goto (.done (.raised ⟨.other, "run-owned cleanup entered from " ++ w.lifecycle.name,
              by cases w.lifecycle <;> decide⟩)))
          else some (({ w with lifecycle := .cleaning }.note .cleanupBegan).goto (.cleaning ended))
  | .cleaning ended, .cleanup outcome => some (w.goto (.caching ended (owned outcome)))
  | .caching ended result, .go =>
      let w := w.cache result
      some (w.goto (.timing ended (w.cleanupResult.getD result)))
  | .timing ended cleanup, .clock now =>
      some (w.finalizeOnce ended (w.evidence now cleanup ended))
  | .finalizing ended result, .go =>
      some (w.goto (.finishing result.cleanup (finalized ended result none)))
  | .finalizing ended result, .raise e =>
      some (w.goto (.finishing result.cleanup (finalized ended result (some e))))
  | .finishing cleanup exit, .go =>
      some (({ w.cache cleanup with lifecycle := .finished }.notifyAll).goto (.done exit))
  | _, _ => none

def stopper (w : SubprocessAttempt) (id : Nat) (pc : StopPc) : SubprocessAttempt :=
  { w with stops := Function.update w.stops id (some pc) }

/-- `return self._cleanup_result` after the assertion that there is one. -/
def returnCached (w : SubprocessAttempt) (id : Nat) : SubprocessAttempt :=
  w.stopper id (match w.cleanupResult with
    | some result => .returned result
    | none => .assertionError)

/-- One pass of `_lifecycle.wait_for`. -/
def waitFor (w : SubprocessAttempt) (id : Nat) : SubprocessAttempt :=
  if w.lifecycle.isFinal then w.returnCached id else w.stopper id .asleep

/-- One step of a `stop()` call; an unnotified one sleeps. -/
def stopStep (w : SubprocessAttempt) (id : Nat) : StopPc → Option SubprocessAttempt
  | .entry =>
      match w.lifecycle with
      | .created =>
          some ((({ w with
            stopRequested := true
            cleanupResult := some .empty
            lifecycle := .stoppedBeforeRun }.note .stoppedBeforeRun).notifyAll).stopper id
              (.returned .empty))
      | .stoppedBeforeRun => some (w.returnCached id)
      | _ =>
          some ({ w with
            stopRequested := true
            interrupted := w.interrupted || w.activeInterrupt }.waitFor id)
  | .woken => some (w.waitFor id)
  | .asleep => none
  | .returned _ => none
  | .assertionError => none

def step (w : SubprocessAttempt) : Action → Option SubprocessAttempt
  | .run => if w.caller.isNone then some (w.goto .entry) else none
  | .runStep reply => w.caller.bind fun pc => w.runStep pc reply
  | .stop id => if (w.stops id).isNone then some (w.stopper id .entry) else none
  | .stopStep id => (w.stops id).bind (w.stopStep id)
  | .interrupt => some { w with interrupted := true }

end SubprocessAttempt

/-- An attempt under every interleaving and every outcome. -/
def attemptSystem : System SubprocessAttempt SubprocessAttempt.Action where
  step := SubprocessAttempt.step

end HccastWired.Live
