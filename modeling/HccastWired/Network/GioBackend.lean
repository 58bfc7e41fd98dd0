import HccastWired.Foundation.Finally
import HccastWired.Foundation.PyValue
import HccastWired.Network.Helper

/-!
# Restoration through NetworkManager

`GioNetworkBackend.restore` attempts its cleanup stages one after another, even if an
earlier one failed. What the bus, the commands and the clock give it at each moment is a
parameter; the log keeps what it read and what it asked NetworkManager to change, newest
first.
-/

namespace HccastWired.Network.Gio

open Foundation

/-- The properties of a device that restoration reads; a missing one is `none`. -/
structure DeviceProps where
  deviceType : Option Nat
  interface : Option String
  state : Option Nat
  activeConnection : Option String
  ipInterface : Option String
  autoconnect : Option Bool
  deriving DecidableEq, Repr

/-- `device.get("ActiveConnection", "/")`. -/
def DeviceProps.active (d : DeviceProps) : String :=
  d.activeConnection.getD "/"

structure ConnectionProps where
  uuid : Option String
  type : Option String
  deriving DecidableEq, Repr

structure ManagerProps where
  activeConnections : Option (List String)
  checkpoints : Option (List String)
  deriving DecidableEq, Repr

inductive Mutation where
  | stopFind (device : String)
  | deactivate (path : String)
  | checkpointDestroy (checkpoint : String)
  | checkpointRollback (checkpoint : String)
  | setAutoconnect (device : String) (value : Bool)
  | activate (connection device : String)
  deriving DecidableEq, Repr

/-- What the surroundings give at one moment. -/
structure Move where
  cancelled : Bool
  clock : Time
  reset : Except Failure Unit
  paths : Except Failure (List String)
  device : Except Failure DeviceProps
  connection : Except Failure ConnectionProps
  manager : Except Failure ManagerProps
  done : Except Failure Unit
  rollback : Except Failure (List (String × Nat))
  found : Except Failure String
  links : Except Failure PyValue
  routes : Except Failure (List String)

inductive Event where
  | device (path : String) (props : DeviceProps)
  | connection (path : String) (props : ConnectionProps)
  | routes (routes : List String)
  /-- The names of `ip -j link show`. -/
  | links (names : List String)
  /-- What `wifi_view` returns. -/
  | viewed (current : DeviceProps) (uuid : Option String)
  | issued (mutation : Mutation)
  deriving DecidableEq

/-- `group` is the record's `group_interface`, and `owned` the local variable. -/
structure State where
  time : Nat
  uncertain : Bool
  owned : Option String
  group : Option String
  errors : List String
  log : List Event

abbrev Op := Task State Failure

def fail (code message : String) : Failure := .helper ⟨code, message⟩

/-- A text that is there and is not empty. -/
def truthy (text : Option String) : Bool :=
  text.any (· ≠ "")

section Patterns

def interfaceChar (c : Char) : Bool :=
  c.isAlphanum || c = '_' || c = '.' || c = '-'

/-- `INTERFACE.fullmatch`. -/
def isInterface (text : String) : Bool :=
  1 ≤ text.toList.length && text.toList.length ≤ 15 && text.toList.all interfaceChar

/-- The name of a group of an interface: `p2p-`, the interface, and a number. -/
def isGroupOf (interface text : String) : Bool :=
  let lead := "p2p-".toList ++ interface.toList ++ ['-']
  lead.isPrefixOf text.toList && text.toList.drop lead.length ≠ [] &&
    (text.toList.drop lead.length).all Char.isDigit

def isHex (c : Char) : Bool :=
  c.isDigit || ('a' ≤ c && c ≤ 'f')

/-- `UUID.fullmatch`. -/
def isUuid (text : String) : Bool :=
  text.toList.length = 36 && (text.toList.zipIdx.all fun p =>
    if p.2 ∈ [8, 13, 18, 23] then p.1 = '-' else isHex p.1)

/-- The names of `ip -j link show`, of a bounded list of records with valid ones. -/
def linkNames : PyValue → Option (List String)
  | .list links =>
      if 64 < links.length then none
      else
        links.mapM fun link =>
          match link.get "ifname" with
          | some (.str name) => if isInterface name then some name else none
          | _ => none
  | _ => none

end Patterns

section Primitives

variable (moves : Nat → Move) {α : Type}

/-- The surroundings at this moment; the next look finds the next moment. -/
def look : Op Move := do
  let s ← Call.get
  Call.update fun s => { s with time := s.time + 1 }
  pure (moves s.time)

def note (e : Event) : Op Unit :=
  Call.update fun s => { s with log := e :: s.log }

def report (label : String) : Op Unit :=
  Call.update fun s => { s with errors := s.errors ++ [label] }

/-- `Budget.check`. -/
def check (b : Budget) : Op Unit := do
  let m ← look moves
  Task.refuse (b.cancel.isSome && m.cancelled)
    (fail "Cancelled" "Operation cancelled; network restoration requested")
  Task.refuse (decide (b.deadline ≤ m.clock)) (fail "TimedOut" "Operation deadline reached")

/-- `Budget.pause`, between whose checks the time passes. -/
def pause (b : Budget) : Op Unit := do
  check moves b
  check moves b

/-- A call or a command, within the budget. -/
def ask (b : Budget) (answer : Move → Except Failure α) : Op α := do
  check moves b
  let m ← look moves
  Task.ofAnswer (answer m)

/-- `call`, for a method that changes something. -/
def issue (b : Budget) (mutation : Mutation) (answer : Move → Except Failure α) : Op α := do
  check moves b
  note (.issued mutation)
  let m ← look moves
  Task.ofAnswer (answer m)

/-- `props(path, NM + ".Device", budget)`. -/
def deviceProps (b : Budget) (path : String) : Op DeviceProps := do
  let d ← ask moves b Move.device
  note (.device path d)
  pure d

/-- `props(path, NM + ".Connection.Active", budget)`. -/
def connectionProps (b : Budget) (path : String) : Op ConnectionProps := do
  let c ← ask moves b Move.connection
  note (.connection path c)
  pure c

def readDevices (b : Budget) : List String → Op (List (String × DeviceProps))
  | [] => pure []
  | path :: paths => do
      let d ← deviceProps moves b path
      let rest ← readDevices b paths
      pure ((path, d) :: rest)

/-- `devices`. -/
def devices (b : Budget) : Op (List (String × DeviceProps)) := do
  let paths ← ask moves b Move.paths
  Task.refuse (decide (64 < paths.length)) (fail "UnsupportedNetwork" "Too many network devices")
  readDevices moves b paths

/-- `routes`. -/
def readRoutes (b : Budget) : Op (List String) := do
  let routes ← ask moves b Move.routes
  Task.refuse (decide (64 < routes.length)) (fail "InspectionFailed" "Unexpected default route data")
  note (.routes routes)
  pure routes

/-- `reset_bus`. -/
def resetBus (b : Budget) : Op Unit := do
  ask moves b Move.reset
  Call.update fun s => { s with uncertain := false }

/-- `stage`: a failure is reported under the label. -/
def stage (label : String) (action : Op α) : Op (Option α) := do
  match ← Task.settle action with
  | .ok a => pure (some a)
  | .error _ => do
      report label
      pure none

end Primitives

section Restore

variable (moves : Nat → Move) (record : Record) (budget : Budget) (wifi p2p : String)

/-- One path of `deactivate_owned`. -/
def deactivatePath (path : String) : Op Unit := do
  let c ← connectionProps moves budget path
  Task.when (c.uuid = record.connectionUuid ∧ c.type = some "wifi-p2p") do
    let d ← deviceProps moves budget p2p
    Task.when (d.active = path) do
      Call.update fun s =>
        { s with owned := if s.owned.isNone ∧ truthy d.ipInterface then d.ipInterface else s.owned }
      issue moves budget (.deactivate path) Move.done

def deactivateOwned : Op Unit :=
  Task.when (truthy record.connectionUuid) do
    let m ← ask moves budget Move.manager
    ((m.activeConnections.getD []).take 64).forM (deactivatePath moves record budget p2p)

/-- What `drain_owned` does with the P2P device's current connection: whether it looks again. -/
def drainConnection (drain : Budget) (active : String) : Op Bool := do
  match ← Task.settle (connectionProps moves drain active) with
  | .ok c => do
      Task.refuse (!truthy record.connectionUuid || c.uuid ≠ record.connectionUuid || c.type ≠ some "wifi-p2p")
        (fail "P2PDrainConflict" "Another connection owns the P2P device")
      pure false
  | .error (.helper e) => do
      let d ← deviceProps moves drain p2p
      Task.refuse (d.active = active) (.helper e)
      pure true
  | .error .other => Task.raise .other

/-- The group's interface is gone from `ip -j link show`. -/
def groupGone (drain : Budget) (group : String) : Op Bool := do
  let links ← ask moves drain Move.links
  match linkNames links with
  | none => Task.raise (fail "InspectionFailed" "Invalid bounded interface inspection")
  | some names => do
      note (.links names)
      pure (group ∉ names)

/-- The device has a connection that vanished while it was looked at. -/
def drainAgain (drain : Budget) (d : DeviceProps) : Op Bool :=
  if d.active = "/" then pure false else drainConnection moves record p2p drain d.active

/-- The device is disconnected, and the owned group is gone. -/
def drained (drain : Budget) (owned : Option String) (d : DeviceProps) : Op Bool :=
  if d.state = some 30 ∧ d.active = "/" ∧ d.ipInterface = some "" then
    match owned with
    | none => pure true
    | some group => groupGone moves drain group
  else pure false

def drainLoop (drain : Budget) (owned : Option String) : Nat → Op Unit
  | 0 => Task.unfinished
  | fuel + 1 => do
      let d ← deviceProps moves drain p2p
      let again ← drainAgain moves record p2p drain d
      if again then drainLoop drain owned fuel
      else do
        let gone ← drained moves drain owned d
        if gone then pure ()
        else do
          pause moves budget
          check moves drain
          drainLoop drain owned fuel

def drainOwned (drain : Budget) (fuel : Nat) : Op Unit := do
  let s ← Call.get
  Task.refuse (s.owned.any fun group =>
      !(isInterface group && isGroupOf record.snapshot.wifiInterface group))
    (fail "RestoreConflict" "Recorded group interface is invalid")
  Call.update fun s => { s with group := s.owned.or s.group }
  drainLoop moves record budget p2p drain s.owned fuel

/-- The stage of the drain, with its own labels. -/
def drainStage (fuel : Nat) : Op Unit := do
  let first ← look moves
  let second ← look moves
  let drain : Budget := ⟨second.clock + min 5 (max 0 (budget.deadline - first.clock) / 4), none⟩
  match ← Task.settle (drainOwned moves record budget p2p drain fuel) with
  | .ok () => pure ()
  | .error (.helper e) =>
      if e.code = "TimedOut" then report "p2p-drain-timed-out"
      else do
        let m ← look moves
        report (if drain.deadline ≤ m.clock then "p2p-drain-timed-out"
          else if e.code = "P2PDrainConflict" then "p2p-drain-conflict" else "p2p-drain-failed")
  | .error .other => report "p2p-drain-failed"

/-- The UUID of an active connection, if there is one. -/
def activeUuid (active : String) : Op (Option String) :=
  if active = "/" then pure none
  else do
    let c ← connectionProps moves budget active
    pure c.uuid

/-- `wifi_view`. -/
def wifiView : Nat → Op (DeviceProps × Option String)
  | 0 => Task.unfinished
  | fuel + 1 => do
      let current ← deviceProps moves budget wifi
      match ← Task.settle (activeUuid moves budget current.active) with
      | .ok uuid => do
          note (.viewed current uuid)
          pure (current, uuid)
      | .error (.helper e) => do
          -- the old active object can vanish while the disconnection finishes
          let updated ← deviceProps moves budget wifi
          if updated.active ≠ current.active ∨ updated.state ≠ current.state then do
            pause moves budget
            wifiView fuel
          else Task.raise (.helper e)
      | .error .other => Task.raise .other

def cancelSurvivingCheckpoint : Op Unit := do
  let _ ← stage "checkpoint-cancel-failed" do
    match record.checkpoint.filter (· ≠ "") with
    | none => pure ()
    | some checkpoint => do
        let m ← ask moves budget Move.manager
        Task.when (decide (checkpoint ∈ m.checkpoints.getD [])) do
          issue moves budget (.checkpointDestroy checkpoint) Move.done
  pure ()

/-- The rollback to the checkpoint, if NetworkManager still has it. -/
def rollbackCheckpoint : Op Unit :=
  match record.checkpoint.filter (· ≠ "") with
  | none => pure ()
  | some checkpoint => do
      let checkpoints ← stage "checkpoint-inspection-failed" do
        let m ← ask moves budget Move.manager
        pure (m.checkpoints.getD [])
      Task.when (checkpoints.any fun cs => decide (checkpoint ∈ cs)) do
        let result ← stage "checkpoint-rollback-failed"
          (issue moves budget (.checkpointRollback checkpoint) Move.rollback)
        Task.when (result.any fun values => values.isEmpty || values.any (·.2 ≠ 0))
          (report "checkpoint-rollback-incomplete")

/-- The view shows another connection than the recorded one. -/
def conflicts (uuid : Option String) : Bool :=
  truthy uuid && uuid ≠ record.snapshot.wifiUuid

def restoreLoop (requested autoconnectSet : Bool) : Nat → Op Unit
  | 0 => Task.unfinished
  | fuel + 1 => do
      let (current, uuid) ← wifiView moves budget wifi fuel
      Task.when (conflicts record uuid) do
        cancelSurvivingCheckpoint moves record budget
        Task.raise (fail "RestoreConflict" "Wi-Fi association changed")
      if current.state = some record.snapshot.wifiState ∧ uuid = record.snapshot.wifiUuid then
        if current.autoconnect = some record.snapshot.wifiAutoconnect then pure ()
        else do
          Task.when (!autoconnectSet) do
            issue moves budget (.setAutoconnect wifi record.snapshot.wifiAutoconnect) Move.done
          pause moves budget
          restoreLoop requested true fuel
      else if current.state = some 30 ∧ current.active = "/" ∧ record.snapshot.wifiState = 100 ∧
          requested = false then do
        let connection ← ask moves budget Move.found
        issue moves budget (.activate connection wifi) Move.done
        pause moves budget
        restoreLoop true autoconnectSet fuel
      else do
        pause moves budget
        restoreLoop requested autoconnectSet fuel

def restoreWifi (fuel : Nat) : Op Unit := do
  Task.refuse (record.snapshot.wifiState = 100 ∧ !(truthy record.snapshot.wifiUuid &&
      record.snapshot.wifiUuid.any isUuid))
    (fail "RestoreConflict" "Original connection identity is missing")
  restoreLoop moves record budget wifi false false fuel

def verifyLoop (waiting : Bool) : Nat → Op Unit
  | 0 => Task.unfinished
  | fuel + 1 => do
      let d ← deviceProps moves budget p2p
      Task.refuse (d.active ≠ "/") (fail "RestoreConflict" "P2P remains active")
      Task.when waiting do
        let (current, uuid) ← wifiView moves budget wifi fuel
        Task.refuse (current.state ≠ some record.snapshot.wifiState ∨ uuid ≠ record.snapshot.wifiUuid ∨
            current.autoconnect ≠ some record.snapshot.wifiAutoconnect)
          (fail "RestoreConflict" "Wi-Fi changed during route verification")
      let routes ← readRoutes moves budget
      if record.snapshot.defaultRoutes.all (· ∈ routes) then pure ()
      else do
        let s ← Call.get
        Task.refuse (!s.errors.isEmpty) (fail "RestoreConflict" "Ethernet route was not preserved")
        pause moves budget
        verifyLoop true fuel

/-- The stages after the devices have been found. -/
def restoreDevices (fuel : Nat) : Op Unit := do
  let _ ← stage "discovery-stop-failed" (issue moves budget (.stopFind p2p) Move.done)
  let _ ← stage "deactivation-failed" (deactivateOwned moves record budget p2p)
  drainStage moves record budget p2p fuel
  match ← stage "wifi-inspection-failed" (wifiView moves budget wifi fuel) with
  | none => pure ()
  | some (_, uuid) =>
      if conflicts record uuid then do
        cancelSurvivingCheckpoint moves record budget
        report "wifi-association-conflict"
      else do
        rollbackCheckpoint moves record budget
        let _ ← stage "wifi-restore-failed" (restoreWifi moves record budget wifi fuel)
        let _ ← stage "network-verification-failed" (verifyLoop moves record budget wifi p2p false fuel)
        pure ()

end Restore

/-- The devices of a type with an interface. -/
def select (deviceType : Nat) (interface : String) (found : List (String × DeviceProps)) : List String :=
  (found.filter fun p => p.2.deviceType = some deviceType ∧ p.2.interface = some interface).map Prod.fst

/-- `restore`; the errors are those of the state it ends in. -/
def restore (moves : Nat → Move) (record : Record) (budget : Budget) (fuel : Nat) : Op Unit := do
  let s ← Call.get
  Task.when s.uncertain do
    let _ ← stage "activation-owner-reset-failed" (resetBus moves budget)
    pure ()
  let s ← Call.get
  if s.uncertain then pure ()
  else do
    match ← stage "device-inspection-failed" (devices moves budget) with
    | none => pure ()
    | some found =>
        match select 2 record.snapshot.wifiInterface found, select 30 record.snapshot.p2pInterface found with
        | [wifi], [p2p] => restoreDevices moves record budget wifi p2p fuel
        | _, _ => report "recorded-network-device-missing"

def State.initial (record : Record) (uncertain : Bool) : State where
  time := 0
  uncertain := uncertain
  owned := record.groupInterface
  group := record.groupInterface
  errors := []
  log := []

end HccastWired.Network.Gio
