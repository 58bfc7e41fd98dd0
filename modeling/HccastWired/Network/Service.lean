import HccastWired.Network.LeaseStep

/-!
# The helper's D-Bus service

The main loop's callbacks run one after the other; three pool workers run the
requests, and one dedicated thread a cleanup. A callback that calls into the
helper takes one step before and one after, so that workers' steps can land in
between. Each sender has a context: an event for cancellation, shared by its
requests and by the lease they acquire, and the number of its requests that
have not been answered. What set an event is kept as history.
-/

namespace HccastWired.Network

open Foundation

/-- A method with valid arguments; any other call is answered at once. -/
inductive Method where
  | status
  | discover
  | connect (candidateId : String)
  | keepAlive
  | release
  deriving DecidableEq

inductive Stage where
  | queued | running | done
  deriving DecidableEq, Repr

/-- A request that has not been answered, with the event of its context. -/
structure Ticket where
  id : Nat
  sender : Sender
  method : Method
  context : Nat
  stage : Stage
  deriving DecidableEq

/-- Who set a cancel event. -/
inductive Cause where
  | released (call : Nat)
  | expired (call : Nat)
  | disconnected (sender : Sender)
  | ticked
  | stopped
  deriving DecidableEq

/-- Where the main loop is inside one of its callbacks. -/
inductive MainPc where
  | starting
  | loop
  | vanished (sender : Sender)
  | cleaning (target : Option Sender)
  | tickOwner
  | tickCancel (owner : Option Sender)
  | stopOwner
  | stopCancel (owner : Sender)
  | shutdown
  deriving DecidableEq

structure Service where
  helper : World
  stopping : Bool := false
  cleanupPending : Option Nat := none
  contexts : AList (fun _ : Sender => Nat) := ∅
  inUse : Nat → Nat := fun _ => 0
  nextContext : Nat := 0
  nextCall : Nat := 0
  slots : Nat := 3
  tickets : List Ticket := []
  ticking : Bool := true
  main : MainPc := .starting
  vanished : Sender → Bool := fun _ => false
  answered : List Ticket := []
  causes : List (Event × Cause) := []

inductive ServiceAction where
  | methodCall (sender : Sender) (method : Method)
  | dispatch (id : Nat) (authorized : Bool)
  | refreshed (id : Nat) (recovery : Bool)
  | resume (id : Nat) (reply : Reply)
  | reply (id : Nat)
  | ownerVanished (sender : Sender)
  | tick
  | stop
  | main
  | cleaned
  | wait (t : Time)

/-- The call has returned or raised. -/
def World.finished (w : World) (id : Nat) : Bool :=
  match w.calls id with
  | some (.finished _) => true
  | _ => false

namespace Service

/-- `run` on the journal's content: the helper recovers before the main loop runs. -/
def create (journal : Option Record) (now : Time) (log : List LogEvent) : Service where
  helper := (World.create journal now log).goto 0 (World.start .recover)
  nextCall := 1

/-- The sender's context, unless it is cancelled, out of use and without a lease. -/
def kept (v : Service) (s : Sender) : Option Nat :=
  (v.contexts.lookup s).filter fun c =>
    !(v.helper.isSet (.request c) && v.inUse c == 0 && v.helper.owner != some s)

/-- The request is counted in its context and handed to the pool. -/
def submit (v : Service) (s : Sender) (method : Method) (c : Nat) : Service :=
  { v with
    inUse := Function.update v.inUse c (v.inUse c + 1)
    slots := v.slots - 1
    nextCall := v.nextCall + 1
    tickets := ⟨v.nextCall, s, method, c, .queued⟩ :: v.tickets }

/-- A new context: `[threading.Event(), 0]`. -/
def newContext (v : Service) (s : Sender) : Service :=
  { v with
    helper := { v.helper with
      isSet := Function.update v.helper.isSet (.request v.nextContext) false }
    contexts := v.contexts.insert s v.nextContext
    inUse := Function.update v.inUse v.nextContext 0
    nextContext := v.nextContext + 1 }

/-- `method_call`. -/
def methodCall (v : Service) (s : Sender) (method : Method) : Service :=
  if v.stopping || v.slots == 0 then v
  else match v.kept s with
    | some c => v.submit s method c
    | none => (v.newContext s).submit s method v.nextContext

def setStage (v : Service) (id : Nat) (stage : Stage) : Service :=
  { v with tickets := v.tickets.map fun t => if t.id = id then { t with stage := stage } else t }

/-- A worker enters the helper. -/
def enter (v : Service) (id : Nat) (r : Request) : Service :=
  ({ v with helper := v.helper.goto id (World.start r) }).setStage id .running

/-- `_dispatch` once the sender has been authorized, or not. -/
def dispatch (v : Service) (t : Ticket) (authorized : Bool) : Service :=
  if !authorized || v.stopping then v.setStage t.id .done
  else match t.method with
    | .status => v.setStage t.id .running
    | .discover => v.enter t.id (.discover t.sender (some (.request t.context)))
    | .connect candidateId => v.enter t.id (.connect t.sender candidateId)
    | .keepAlive => v.enter t.id (.keepAlive t.sender)
    | .release => v.enter t.id (.release t.sender .client)

/-- The refreshed status of `Status`. -/
def refreshed (v : Service) (id : Nat) (recovery : Bool) : Service :=
  ({ v with helper := { v.helper with recovery } }).setStage id .done

/-- The call's next step is the one in which `release` sets the event. -/
def releases (w : World) (id : Nat) : Bool :=
  match w.calls id with
  | some (.releaseStart s _) => !w.owner.any (· ≠ s)
  | _ => false

/-- What the step of a call adds to the history. -/
def caused (w v : World) (id : Nat) : List (Event × Cause) :=
  if releases w id then [(w.cancel, .released id)]
  else if v.isSet w.cancel && !w.isSet w.cancel then [(w.cancel, .expired id)]
  else []

def resumed (v : Service) (id : Nat) (helper : World) : Service :=
  { v with helper := helper, causes := caused v.helper helper id ++ v.causes }

/-- The future of the request is done. -/
def isDone (v : Service) (t : Ticket) : Bool :=
  t.stage = .done || (t.stage = .running && t.method ≠ .status && v.helper.finished t.id)

/-- `_return`. -/
def answer (v : Service) (t : Ticket) : Service :=
  let inUse := Function.update v.inUse t.context (v.inUse t.context - 1)
  { v with
    inUse := inUse
    contexts :=
      if inUse t.context = 0 ∧ v.helper.owner ≠ some t.sender ∧
          v.contexts.lookup t.sender = some t.context then
        v.contexts.erase t.sender
      else v.contexts
    slots := v.slots + 1
    tickets := v.tickets.filter (·.id ≠ t.id)
    answered := t :: v.answered }

/-- `owner_changed` up to its call of `cancel_owner`. -/
def ownerVanished (v : Service) (s : Sender) : Service :=
  let v := { v with
    vanished := Function.update v.vanished s true
    main := .vanished s }
  match v.contexts.lookup s with
  | some c => { v with
      helper := { v.helper with isSet := Function.update v.helper.isSet (.request c) true }
      causes := (.request c, .disconnected s) :: v.causes }
  | none => v

/-- `helper.cancel_owner(owner)` of a callback. -/
def cancelOwner (v : Service) (s : Sender) (cause : Cause) : Service :=
  { v with
    helper := v.helper.cancelOwner v.nextCall s
    nextCall := v.nextCall + 1
    causes := if v.helper.owner = some s then (v.helper.cancel, cause) :: v.causes else v.causes }

/-- `_cleanup`: a cleanup that is still pending stands for this one too. -/
def cleanup (v : Service) (target : Option Sender) : Service :=
  if v.cleanupPending.isSome then v
  else
    let r := match target with
      | some s => Request.release s .disconnect
      | none => .expire
    { v with
      helper := v.helper.goto v.nextCall (World.start r)
      cleanupPending := some v.nextCall
      nextCall := v.nextCall + 1 }

/-- `tick` up to the second look at the owner. -/
def tick (v : Service) : Service :=
  { v with
    ticking := !v.stopping
    main := if v.helper.owner.isSome && v.helper.deadline ≤ v.helper.now then .tickOwner else .loop }

/-- `stop` up to its look at the owner. -/
def stop (v : Service) : Service :=
  if v.stopping then v
  else
    let events := v.contexts.entries.map fun entry => Event.request entry.2
    { v with
      stopping := true
      helper := { v.helper with isSet := fun e => decide (e ∈ events) || v.helper.isSet e }
      causes := events.map (·, .stopped) ++ v.causes
      main := .stopOwner }

/-- The main loop goes on in the callback it is inside. -/
def mainStep (v : Service) : MainPc → Option Service
  | .starting => if v.helper.finished 0 then some { v with main := .loop } else none
  | .loop => none
  | .vanished s =>
      some { v.cancelOwner s (.disconnected s) with
        main := if v.helper.owner = some s then .cleaning (some s) else .loop }
  | .cleaning target => some { v.cleanup target with main := .loop }
  | .tickOwner => some { v with main := .tickCancel v.helper.owner }
  | .tickCancel none => some { v with main := .cleaning none }
  | .tickCancel (some s) => some { v.cancelOwner s .ticked with main := .cleaning none }
  | .stopOwner =>
      some { v with main := match v.helper.owner with
        | some s => .stopCancel s
        | none => .shutdown }
  | .stopCancel s => some { v.cancelOwner s .stopped with main := .shutdown }
  | .shutdown =>
      some { v with
        helper := v.helper.goto v.nextCall (World.start .recover)
        nextCall := v.nextCall + 1
        main := .loop }

def step (v : Service) : ServiceAction → Option Service
  | .methodCall s method =>
      -- the bus delivers a sender's requests before it reports that the sender vanished
      if v.main = .loop && !v.vanished s then some (v.methodCall s method) else none
  | .dispatch id authorized =>
      (v.tickets.find? (·.id = id)).bind fun t =>
        if t.stage = .queued then some (v.dispatch t authorized) else none
  | .refreshed id recovery =>
      (v.tickets.find? (·.id = id)).bind fun t =>
        if t.stage = .running && t.method = .status then some (v.refreshed id recovery) else none
  | .resume id reply => (v.helper.step (.resume id reply)).map (v.resumed id)
  | .reply id =>
      (v.tickets.find? (·.id = id)).bind fun t =>
        if v.main = .loop && v.isDone t then some (v.answer t) else none
  | .ownerVanished s =>
      if v.main = .loop && !v.vanished s then some (v.ownerVanished s) else none
  | .tick => if v.main = .loop && v.ticking then some v.tick else none
  | .stop => if v.main = .loop then some v.stop else none
  | .main => v.mainStep v.main
  | .cleaned =>
      v.cleanupPending.bind fun id =>
        if v.helper.finished id then some { v with cleanupPending := none } else none
  | .wait t => (v.helper.step (.wait t)).map fun helper => { v with helper }

end Service

/-- The service under every interleaving of its main loop, its workers and its cleanup. -/
def serviceSystem : System Service ServiceAction where
  step := Service.step

end HccastWired.Network
