import HccastWired.Foundation.PyValue
import HccastWired.Foundation.System

/-!
# The supervisor of the desktop service

`SessionService.watch_state` polls the session, the health and the network, and opens or
closes the controller's gate. A tick is what it does between two of its awaits; results,
commands, losses of the bus name and what the controller's own tasks do arrive in between.
The log keeps what happened, newest first.
-/

namespace HccastWired.Watch

open Foundation

inductive SafetyAction
  | stop
  | unknown
  | backoff
  | ok
deriving DecidableEq

/-- The temperature, of a number from -20 to 150. -/
def temperature (health : PyValue) : Option Number :=
  match health.get "temperature_c" with
  | some (.number x) => if Number.le (.int (-20)) x ∧ x.le (.int 150) then some x else none
  | _ => none

/-- The flags, of an integer of 32 bits without an unknown one. -/
def throttledBits (health : PyValue) : Option UInt32 :=
  match health.get "throttled_bits" with
  | some (.number (.int n)) =>
      if 0 ≤ n ∧ n ≤ 0xFFFFFFFF ∧ UInt32.ofInt n &&& ~~~0xF000F = 0 then some (UInt32.ofInt n) else none
  | _ => none

/-- `safety_action`; a value that is no dictionary has no measurement. -/
def safetyAction (health : PyValue) : SafetyAction :=
  if (throttledBits health).any (· &&& 0xF ≠ 0) ∨
      (temperature health).any fun x => Number.le (.int 75) x then .stop
  else if (temperature health).isNone ∨ (throttledBits health).isNone then .unknown
  else if (temperature health).any fun x => Number.le (.int 70) x then .backoff
  else .ok

/-- `UNKNOWN_HEALTH`. -/
def unknownHealth : PyValue :=
  .dict [("temperature_c", .none), ("cpu_percent", .none), ("throttled_bits", .none)]

/-- The status of the network with which a start does not wait for Ethernet. -/
def recoveryReady (value : PyValue) : Bool :=
  (value.get "api_version").any PyValue.isOne &&
    value.get "recovery_available" = some (.bool true) &&
    value.get "owner_present" = some (.bool false) &&
    (value.get "state" = some (.str "idle") || value.get "state" = some (.str "restore_required"))

inductive Kind
  | session
  | health
  | network
deriving DecidableEq

/-- `SESSION_INTERVAL`, `HEALTH_INTERVAL` and `NETWORK_INTERVAL`. -/
def Kind.interval : Kind → Rat
  | session => 1
  | health => 2
  | network => 2

/-- `SESSION_TIMEOUT`, `HEALTH_TIMEOUT` and `NETWORK_TIMEOUT`. -/
def Kind.timeout : Kind → Rat
  | session => 3
  | health => 3
  | network => 6

/-- `STARTUP_NETWORK_TIMEOUT`. -/
def startupNetworkTimeout : Rat := 60

/-- What a finished task gives; a cancelled one raises. -/
abbrev Result := Except String PyValue

/-- A task, and when it finished. -/
inductive Task
  | running
  | done (arrived : Rat) (result : Result)

structure Poll where
  task : Option Task
  next : Rat
  deadline : Rat
  expired : Bool

inductive Verb
  | start
  | stop
deriving DecidableEq

/-- A command that the supervisor has issued, and how it ended. -/
structure SafetyTask where
  verb : Verb
  result : Option (Except String Unit)

/-- The part of the controller that the supervisor reads and writes. `operation` says that
an operation is there and has not ended. -/
structure Controller where
  sessionUnlocked : Bool
  desired : Bool
  resumeAfterUnlock : Bool
  health : PyValue
  status : String
  message : String
  operation : Bool
  configError : Bool
  recoveryRequired : Bool

inductive Event
  | named (owned : Bool)
  /-- A request with its deadline. -/
  | asked (kind : Kind) (deadline : Rat)
  /-- The result of a request, its deadline and when it arrived. -/
  | consumed (kind : Kind) (deadline arrived : Rat) (result : Result)
  /-- The gate is opened. -/
  | opened (now : Rat)
  /-- The permission is missing after a tick with it, or although streaming was desired. -/
  | withdrawn
  /-- A stream that was wanted is to be resumed. -/
  | interrupted
  | issued (verb : Verb)
  | collected (verb : Verb)
  /-- A user's valid start, stop or restore_defaults. -/
  | commanded

structure Service where
  shuttingDown : Bool
  nameOwned : Bool
  startupMessage : Bool
  autostartPending : Bool
  resumeAfterSession : Bool
  sessionValid : Bool
  healthValid : Bool
  networkReady : Bool
  networkDeadline : Option Rat
  polls : Kind → Poll
  safetyTask : Option SafetyTask
  wasPermitted : Bool
  stopPending : Bool
  controller : Controller
  clock : Rat
  log : List Event

namespace Service

variable (s : Service)

/-- `watch_state` has started. -/
structure Initial : Prop where
  owned : s.nameOwned = true
  resume : s.resumeAfterSession = false
  session : s.sessionValid = false
  health : s.healthValid = false
  network : s.networkReady = false
  deadline : s.networkDeadline = none
  polls : ∀ kind, s.polls kind = ⟨none, 0, 0, false⟩
  safety : s.safetyTask = none
  permitted : s.wasPermitted = false
  stop : s.stopPending = false
  locked : s.controller.sessionUnlocked = false
  undesired : s.controller.desired = false
  unresumed : s.controller.resumeAfterUnlock = false
  log : s.log = [.named true]

def record (e : Event) : Service :=
  { s with log := e :: s.log }

def withPoll (kind : Kind) (p : Poll) : Service :=
  { s with polls := Function.update s.polls kind p }

section Polls

/-- What the value of a request says, or that there is none. -/
def accept (kind : Kind) (value : Option PyValue) : Service :=
  match kind with
  | .session => { s with sessionValid := decide (value = some (.bool true)) }
  | .health =>
      { s with
        controller := { s.controller with health := value.getD unknownHealth }
        healthValid := decide (safetyAction (value.getD unknownHealth) = .ok) }
  | .network => { s with networkReady := value.any recoveryReady }

/-- A finished request. -/
def consume (kind : Kind) (arrived : Rat) (result : Result) : Service :=
  let p := s.polls kind
  let value := if p.expired ∨ p.deadline ≤ s.clock then none else result.toOption
  (((s.record (.consumed kind p.deadline arrived result)).withPoll kind
    { p with task := none, next := s.clock + kind.interval }).accept kind value)

/-- A request whose deadline has passed. -/
def expire (kind : Kind) : Service :=
  (s.withPoll kind { s.polls kind with expired := true }).accept kind none

def needsPoll (kind : Kind) : Bool :=
  kind ≠ .network || s.autostartPending || s.resumeAfterSession

def ask (kind : Kind) : Service :=
  let p := s.polls kind
  if s.needsPoll kind ∧ p.task.isNone ∧ p.next ≤ s.clock then
    (s.record (.asked kind (s.clock + kind.timeout))).withPoll kind
      { p with deadline := s.clock + kind.timeout, expired := false, task := some .running }
  else s

/-- The body of the loop over the polls. -/
def poll (kind : Kind) : Service :=
  let p := s.polls kind
  match p.task with
  | some (.done arrived result) => (s.consume kind arrived result).ask kind
  | some .running => if p.deadline ≤ s.clock ∧ p.expired = false then (s.expire kind).ask kind else s.ask kind
  | none => s.ask kind

def pollAll : Service :=
  ((s.poll .session).poll .health).poll .network

end Polls

section Gate

/-- The result of the supervisor's own command. -/
def collect : Service :=
  match s.safetyTask with
  | some ⟨verb, some (.ok ())⟩ => { s with safetyTask := none }.record (.collected verb)
  | some ⟨verb, some (.error message)⟩ =>
      { s with safetyTask := none, controller := { s.controller with message := message } }.record
        (.collected verb)
  | _ => s

def permitted : Bool :=
  s.nameOwned && s.sessionValid && s.healthValid

def lockedMessage : String :=
  if s.sessionValid then "Pi health is unavailable or unsafe; capture is paused"
  else "Desktop locked or unavailable; capture is paused"

/-- A stream is to be resumed after this loss of the session. -/
def interrupts : Bool :=
  s.wasPermitted && !s.sessionValid && s.healthValid

/-- A tick without permission. -/
def close : Service :=
  let resume := if s.interrupts then s.controller.desired else s.resumeAfterSession
  let closed := { s with
    resumeAfterSession := resume && s.healthValid
    stopPending := s.stopPending || s.wasPermitted || s.controller.desired
    controller := { s.controller with
      sessionUnlocked := false
      desired := false
      resumeAfterUnlock := false
      message := s.lockedMessage } }
  let noted := if s.interrupts && s.controller.desired then closed.record .interrupted else closed
  if s.wasPermitted || s.controller.desired then noted.record .withdrawn else noted

/-- The gate is opened, and what was to start by itself is cancelled by a broken
configuration or a required recovery. -/
def unlock : Service :=
  let broken := s.controller.configError || s.controller.recoveryRequired
  let message :=
    if s.startupMessage && !broken then "Monitor stopped by startup choice. Press Start to connect."
    else s.controller.message
  { s with
    startupMessage := false
    autostartPending := s.autostartPending && !broken
    resumeAfterSession := s.resumeAfterSession && !broken
    controller := { s.controller with sessionUnlocked := true, message := message } }.record
      (.opened s.clock)

/-- An automatic start, if one is pending and no operation runs. -/
def autostart : Service :=
  if (s.autostartPending ∨ s.resumeAfterSession) ∧ s.controller.operation = false then
    let deadline := s.networkDeadline.getD (s.clock + startupNetworkTimeout)
    if s.networkReady then
      { s with
        autostartPending := false
        resumeAfterSession := false
        networkDeadline := none
        networkReady := false
        safetyTask := some ⟨.start, none⟩ }.record (.issued .start)
    else if deadline ≤ s.clock then
      { s with
        autostartPending := false
        resumeAfterSession := false
        networkDeadline := none
        controller := { s.controller with
          status := "error"
          message := "Ethernet recovery is not ready; connect Ethernet and press Start" } }
    else
      { s with
        networkDeadline := some deadline
        controller := { s.controller with
          message := "Waiting for Ethernet recovery before connecting" } }
  else s

/-- What the tick does with the gate. -/
def decide : Service :=
  if s.permitted then
    if s.safetyTask.isNone ∧ s.stopPending = false then s.unlock.autostart else s
  else s.close

/-- The end of the tick: a stop that is pending is issued. -/
def settle (permitted : Bool) : Service :=
  let waiting := s.autostartPending || s.resumeAfterSession
  let idle := { s with
    networkDeadline := if waiting then s.networkDeadline else none
    networkReady := waiting && s.networkReady
    wasPermitted := permitted }
  if s.stopPending ∧ s.safetyTask.isNone then
    { idle with stopPending := false, safetyTask := some ⟨.stop, none⟩ }.record (.issued .stop)
  else idle

/-- The state in which a tick decides. -/
def observed : Service :=
  s.pollAll.collect

/-- One pass of the loop. -/
def tick : Service :=
  s.observed.decide.settle s.observed.permitted

end Gate

end Service

inductive Action
  | advance (clock : Rat)
  | finish (kind : Kind) (result : Result)
  | finishSafety (result : Except String Unit)
  | nameAcquired
  | nameLost
  | stop
  | dispatch (verb : Verb) (plain : Bool)
  | restoreDefaults (plain : Bool)
  | started
  | controller (c : Controller)
  | tick

namespace Service

/-- `start` is refused before it reaches the controller. -/
def refusesStart (s : Service) : Bool :=
  !s.nameOwned || !s.controller.sessionUnlocked || safetyAction s.controller.health ≠ .ok

/-- A valid command takes back what was to start by itself. -/
def takesBack (s : Service) (plain : Bool) : Service :=
  if plain then { s with autostartPending := false, resumeAfterSession := false }.record .commanded else s

/-- A valid stop or restore_defaults, before it waits for the transition lock. -/
def invalidates (s : Service) (plain : Bool) : Service :=
  if plain then
    { s with controller := { s.controller with desired := false, resumeAfterUnlock := false } }
  else s

/-- What the controller's own tasks can change: they open no gate, take no sample, and want
no stream that was not wanted. -/
def Allows (s : Service) (c : Controller) : Prop :=
  c.sessionUnlocked = s.controller.sessionUnlocked ∧ c.health = s.controller.health ∧
    (c.desired = true → s.controller.desired = true) ∧
    (c.resumeAfterUnlock = true → s.controller.resumeAfterUnlock = true)

instance (s : Service) (c : Controller) : Decidable (s.Allows c) := by
  unfold Allows
  infer_instance

end Service

/-- One step of the service. -/
def step (s : Service) : Action → Option Service
  | .advance clock => if s.clock ≤ clock then some { s with clock := clock } else none
  | .finish kind result =>
      match (s.polls kind).task with
      | some .running =>
          some (s.withPoll kind { s.polls kind with task := some (.done s.clock result) })
      | _ => none
  | .finishSafety result =>
      match s.safetyTask with
      | some ⟨verb, none⟩ => some { s with safetyTask := some ⟨verb, some result⟩ }
      | _ => none
  | .nameAcquired =>
      if s.shuttingDown then none else some ({ s with nameOwned := true }.record (.named true))
  | .nameLost => some ({ s with nameOwned := false }.record (.named false))
  | .stop =>
      if s.shuttingDown then none
      else some ({ s with shuttingDown := true, nameOwned := false }.record (.named false))
  | .dispatch .start plain => if s.refusesStart then some s else some (s.takesBack plain)
  | .dispatch .stop plain => some ((s.takesBack plain).invalidates plain)
  | .restoreDefaults plain => some ((s.takesBack plain).invalidates plain)
  | .started =>
      -- `_command("start")` under the transition lock
      if s.controller.sessionUnlocked ∧ s.controller.configError = false ∧ s.controller.operation = false then
        some { s with controller := { s.controller with operation := true, desired := true } }
      else none
  | .controller c => if s.Allows c then some { s with controller := c } else none
  | .tick => if s.shuttingDown then none else some s.tick

def watchSystem : System Service Action := ⟨step⟩

end HccastWired.Watch
