import HccastWired.Foundation.System
import HccastWired.Network.Peer

/-!
# The network helper's transactions

`NetworkHelper` serializes every mutation and restoration of the network with
one operation lock; a second lock guards the lease fields, and cancellation is
out-of-band. A call is a thread of control. Its program counter names the
external call it is inside (a backend call, a journal write) or the lock it
waits for; one step returns from that call and runs the code up to the next.
The code in between touches only fields that the operation lock protects, or
runs in one section under the state lock, so no other call can observe its
middle.

What the backend and the journal do is part of each step's reply. The log
keeps the backend calls, the journal replacements and the attempt outcomes,
newest first.
-/

namespace HccastWired.Network

open Foundation

abbrev Time := Rat

/-- A unique bus name; the code's owner tests rely on its being nonempty. -/
abbrev Sender := { name : String // name ≠ "" }

theorem bus_seven : ":1.7" ≠ "" := by decide

theorem bus_eight : ":1.8" ≠ "" := by decide

theorem bus_nine : ":1.9" ≠ "" := by decide

structure HelperError where
  code : String
  message : String
  deriving DecidableEq, Repr

/-- An exception that reaches a handler of the helper. -/
inductive Failure where
  | helper (error : HelperError)
  | other
  deriving DecidableEq, Repr

/-- `threading.Event` objects: those the helper creates, and the callers' own. -/
inductive Event where
  | owned (n : Nat)
  | request (n : Nat)
  deriving DecidableEq, Repr

/-- A cleanup budget has a fresh event that nobody sets. -/
structure Budget where
  deadline : Time
  cancel : Option Event
  deriving DecidableEq

/-- The recorded network state. -/
structure Snapshot where
  wifi : String
  p2p : String
  wifiInterface : String
  p2pInterface : String
  wifiUuid : Option String
  wifiState : Nat
  wifiAutoconnect : Bool
  defaultRoutes : List String
  deriving DecidableEq, Repr

inductive RecordState where
  | preparing | discovered | connecting | connected | restored | restoreFailed
  deriving DecidableEq, Repr

/-- One durable transaction; a missing key reads as its default. -/
structure Record where
  state : RecordState
  snapshot : Snapshot
  checkpoint : Option String := none
  connectionUuid : Option String := none
  groupInterface : Option String := none
  errors : List String := []
  deriving DecidableEq, Repr

inductive HelperState where
  | idle | restoreRequired | discovering | discovered | connecting | connected | restoring
  deriving DecidableEq, Repr

/-- What `activate` returns for an established link. -/
structure Activation where
  peerIp : String
  groupInterface : String
  deriving DecidableEq, Repr

/-- Who issued a release: a client, or the service's own cleanup. -/
inductive Origin where
  | client | disconnect | expiry
  deriving DecidableEq, Repr

inductive Request where
  | discover (sender : Sender) (requestCancel : Option Event)
  | connect (sender : Sender) (candidateId : String)
  | keepAlive (sender : Sender)
  | cancelOwner (sender : Sender)
  | release (sender : Sender) (origin : Origin)
  | expire
  | recover
  deriving DecidableEq

/-- One entry of the list `discover` returns. -/
structure CandidateView where
  id : String
  name : String
  manufacturer : String
  peerAddress : String
  deriving DecidableEq, Repr

inductive Result where
  | discovered (leaseDeadline : Time) (candidates : List CandidateView)
  | connected (peerName peerAddress p2pInterface connectionUuid : String) (leaseDeadline : Time)
      (link : Activation)
  | renewed (leaseDeadline : Time)
  | cancelled (owned : Bool)
  | released (networkRestored : Bool) (errors : List String)
  | expired (released : Bool)
  deriving DecidableEq

/-- Where control goes when `_restore` has returned. -/
inductive After where
  | expired (sender : Sender)
  | failure (sender : Sender) (error : Failure)
  | release (sender : Sender) (origin : Origin)
  | recover
  deriving DecidableEq

inductive Pc where
  | enter (r : Request)
  | entering (r : Request)
  | snapshot (s : Sender) (b : Budget)
  | saveBaseline (s : Sender) (b : Budget)
  | checkpointCreate (s : Sender) (b : Budget)
  | saveCheckpoint (s : Sender) (b : Budget)
  | prepare (s : Sender) (b : Budget)
  | discover (s : Sender) (b : Budget)
  | saveDiscovered (s : Sender)
  | resolvePeer (s : Sender) (candidate : Peer) (b : Budget)
  | recoveryAvailable (s : Sender) (peer : Peer) (b : Budget)
  | checkpointExtend (s : Sender) (peer : Peer) (b : Budget)
  | saveConnecting (s : Sender) (peer : Peer) (b : Budget)
  | activate (s : Sender) (peer : Peer) (b : Budget)
  | saveConnected (s : Sender) (peer : Peer) (link : Activation)
  | extendLease (s : Sender)
  | restore (k : After)
  | saveRestored (errors : List String) (k : After)
  | cancelOwner (s : Sender)
  | expireStart
  | releaseStart (s : Sender) (origin : Origin)
  | releaseLock (s : Sender) (origin : Origin)
  | releaseCheck (s : Sender) (origin : Origin)
  | recoverLock
  | recoverProbe (result : Result)
  | finished (outcome : Except HelperError Result)

/-- How the external call a program counter names comes back. -/
inductive Reply where
  | go
  | raised (error : Failure)
  | snapshot (s : Snapshot)
  | checkpoint (path : String)
  | done
  | extended (uuid : String)
  | peers (found : List Peer) (ids : Nat → String)
  | peer (found : Option Peer)
  | available (yes : Bool)
  | activated (link : Activation)
  | saved
  | notSaved (error : Failure)
  | replacedNotSaved (error : Failure)
  | restored (errors : List String) (group : Option String)
  | restoreRaised (group : Option String)

/-- History: backend calls, journal replacements and attempt outcomes. -/
inductive LogEvent where
  | snapshotTaken (s : Snapshot)
  | checkpointCreate (s : Snapshot)
  | prepare (s : Snapshot)
  | discover
  | checkpointExtend
  | activate (uuid : String)
  | restore (record : Record)
  | restoredClean
  | wrote (record : Record)
  | connectFailed
  | connectSucceeded
  | released (origin : Origin) (networkRestored : Bool)
  deriving DecidableEq

/-- The helper object. -/
structure NetworkHelper where
  operation : Option Nat
  owner : Option Sender
  deadline : Time
  cancel : Event
  candidates : List (String × Peer)
  record : Option Record
  lastError : Option String
  recovery : Bool
  failures : Nat
  state : HelperState

/-- The helper with its calls, its clock, its events, the journal file and the history. -/
structure World extends NetworkHelper where
  now : Time
  isSet : Event → Bool
  nextEvent : Nat
  disk : Option Record
  log : List LogEvent
  calls : Nat → Option Pc

inductive Action where
  | call (id : Nat) (r : Request)
  | resume (id : Nat) (reply : Reply)
  | cancelRequest (n : Nat)
  | wait (t : Time)

namespace World

/-- `NetworkHelper.__init__` on the journal's content. -/
def create (journal : Option Record) (now : Time) (log : List LogEvent) : World where
  operation := none
  owner := none
  deadline := 0
  cancel := .owned 0
  candidates := []
  record := journal
  lastError := none
  recovery := false
  failures := 0
  state := if (journal.any fun r => r.state != .restored) then .restoreRequired else .idle
  now := now
  isSet := fun _ => false
  nextEvent := 1
  disk := journal
  log := log
  calls := fun _ => none

/-- The call moves to its next external call, lock or result. -/
def goto (w : World) (id : Nat) (pc : Pc) : World :=
  { w with calls := Function.update w.calls id (some pc) }

def note (w : World) (e : LogEvent) : World := { w with log := e :: w.log }

/-- The call ends and releases the operation lock. -/
def leave (w : World) (id : Nat) (outcome : Except HelperError Result) : World :=
  ({ w with operation := none }).goto id (.finished outcome)

/-- `_budget(seconds)` of an ordinary operation. -/
def budget (w : World) (seconds : Time) : Budget :=
  { deadline := w.now + seconds, cancel := some w.cancel }

/-- `Budget.check`. -/
def check (w : World) (b : Budget) : Except Failure Unit :=
  if b.cancel.any w.isSet then
    .error (.helper ⟨"Cancelled", "Operation cancelled; network restoration requested"⟩)
  else if b.deadline ≤ w.now then
    .error (.helper ⟨"TimedOut", "Operation deadline reached"⟩)
  else .ok ()

/-- Enter `journal.write(self.record)`. -/
def save (w : World) (id : Nat) (pc : Pc) : World := w.goto id pc

/-- The journal file is replaced by the record in memory. -/
def replaceJournal (w : World) : World :=
  match w.record with
  | some r => ({ w with disk := some r }).note (.wrote r)
  | none => w

def setRecord (w : World) (f : Record → Record) : World :=
  { w with record := w.record.map f }

/-- The record needs a restoration: `self.record and state != "restored"`. -/
def unrestored (w : World) : Option Record :=
  w.record.filter fun r => r.state != .restored

/-- The tail of `_restore` under the state lock, then the caller's own tail. -/
def finishRestore (w : World) (id : Nat) (errors : List String) (k : After) : World :=
  let w := { w with
    owner := none
    deadline := 0
    candidates := []
    state := if errors = [] then .idle else .restoreRequired
    lastError :=
      if errors ≠ [] then some "RestoreRequired"
      else if w.lastError = some "RestoreRequired" then none else w.lastError }
  let result := Result.released (errors = []) errors
  match k with
  | .expired _ => w.leave id (.error ⟨"NoLease", "The network lease expired"⟩)
  | .failure _ (.helper e) => w.leave id (.error e)
  | .failure _ .other =>
      w.leave id (.error ⟨"NetworkFailure", "Network operation failed; inspect helper status"⟩)
  | .release _ origin =>
      let w := ({ w with failures := if errors = [] then 0 else w.failures }).note
        (.released origin (errors = []))
      w.leave id (.ok (if origin = .expiry then .expired true else result))
  | .recover => w.goto id (.recoverProbe result)

/-- `_restore` up to its backend call, if there is something to restore. -/
def beginRestore (w : World) (id : Nat) (k : After) : World :=
  let w := { w with state := .restoring }
  match w.unrestored with
  | some r => (w.note (.restore r)).goto id (.restore k)
  | none => w.finishRestore id [] k

/-- `_failure(error)`. -/
def fail (w : World) (id : Nat) (s : Sender) (error : Failure) : World :=
  let code := match error with
    | .helper e => e.code
    | .other => "NetworkFailure"
  ({ w with lastError := some code }).beginRestore id (.failure s error)

/-- The handler of `connect` counts the attempt first. -/
def failConnect (w : World) (id : Nat) (s : Sender) (error : Failure) : World :=
  (({ w with failures := w.failures + 1 }).note .connectFailed).fail id s error

/-- `backend.restore` came back: mark the record and save it. -/
def markRestored (w : World) (id : Nat) (errors : List String) (group : Option String)
    (k : After) : World :=
  let w := if errors = [] then w.note .restoredClean else w
  let w := w.setRecord fun r =>
    { r with
      state := if errors = [] then .restored else .restoreFailed
      errors := errors
      groupInterface := group.or r.groupInterface }
  w.save id (.saveRestored errors k)

/-- The save inside `_restore` failed: the restoration is not durable. -/
def restoreNotSaved (w : World) (id : Nat) (errors : List String) (k : After) : World :=
  let errors := errors ++ ["journal-write-failed"]
  (w.setRecord fun r => { r with state := .restoreFailed, errors := errors }).finishRestore id
    errors k

/-- `dict` assignment. -/
def dictSet (key : String) (value : Peer) : List (String × Peer) → List (String × Peer)
  | [] => [(key, value)]
  | (k, v) :: rest => if k = key then (k, value) :: rest else (k, v) :: dictSet key value rest

/-- The candidate table: at most 64 peers are looked at, each valid one gets a fresh id. -/
def collectCandidates (found : List Peer) (ids : Nat → String) : List (String × Peer) :=
  ((found.take 64).filter validPeer).zipIdx.foldl
    (fun table entry => dictSet (ids entry.2) entry.1 table) []

def viewCandidates (table : List (String × Peer)) : List CandidateView :=
  table.map fun (id, p) =>
    { id
      name := p.name
      manufacturer := String.ofList (p.manufacturer.toList.take 128)
      peerAddress := p.address.toLower }

/-- The body of `discover` after admission. -/
def discoverBody (w : World) (id : Nat) (s : Sender) : World :=
  if w.state = .connected then
    w.leave id (.error ⟨"Busy", "Release the current connection before discovery"⟩)
  else
    let b := w.budget 20
    match w.unrestored with
    | none => w.goto id (.snapshot s b)
    | some _ => (({ w with state := .discovering }).note .discover).goto id (.discover s b)

/-- The body of `connect` after admission. -/
def connectBody (w : World) (id : Nat) (s : Sender) (candidateId : String) : World :=
  match w.candidates.lookup candidateId with
  | some candidate =>
      if w.state = .discovered then
        match w.record with
        | some _ => w.goto id (.resolvePeer s candidate (w.budget 45))
        | none => w.failConnect id s .other
      else w.leave id (.error ⟨"StaleCandidate", "Select a current discovery candidate"⟩)
  | none => w.leave id (.error ⟨"StaleCandidate", "Select a current discovery candidate"⟩)

/-- The body of `keep_alive` after admission. -/
def keepAliveBody (w : World) (id : Nat) (s : Sender) : World :=
  match w.record with
  | some _ => (w.note .checkpointExtend).goto id (.extendLease s)
  | none => w.fail id s .other

/-- The state section of `_enter` for an ordinary request, then the operation's body. -/
def enterLocked (w : World) (id : Nat) (s : Sender) (acquire : Bool) (requestCancel : Option Event)
    (body : World → World) : World :=
  if requestCancel.any w.isSet then
    w.leave id (.error ⟨"Cancelled", "Caller disconnected before the operation began"⟩)
  else if w.owner.any (· ≠ s) then
    w.leave id (.error ⟨"Busy", "Another client owns the network lease"⟩)
  else if w.state = .restoreRequired then
    w.leave id (.error ⟨"RestoreRequired", "Restore the previous transaction before retrying"⟩)
  else if w.owner.isSome then
    if w.isSet w.cancel || decide (w.deadline ≤ w.now) then
      ({ w with isSet := Function.update w.isSet w.cancel true }).beginRestore id (.expired s)
    else body w
  else if !acquire then
    w.leave id (.error ⟨"NoLease", "Discover before connecting"⟩)
  else if 3 ≤ w.failures then
    w.leave id
      (.error ⟨"RetryRequired", "Three connections failed; explicitly release before retrying"⟩)
  else
    let fresh := Event.owned w.nextEvent
    body { w with
      owner := some s
      cancel := requestCancel.getD fresh
      isSet := if requestCancel.isNone then Function.update w.isSet fresh false else w.isSet
      nextEvent := if requestCancel.isNone then w.nextEvent + 1 else w.nextEvent
      deadline := w.now + 60 }

/-- Which admission a request asks for, and what it runs. -/
def enterRequest (w : World) (id : Nat) : Request → Option World
  | .discover s requestCancel => some (w.enterLocked id s true requestCancel (discoverBody · id s))
  | .connect s candidateId => some (w.enterLocked id s false none (connectBody · id s candidateId))
  | .keepAlive s => some (w.enterLocked id s false none (keepAliveBody · id s))
  | _ => none

/-- `cancel_owner`. -/
def cancelOwner (w : World) (id : Nat) (s : Sender) : World :=
  if w.owner = some s then
    ({ w with isSet := Function.update w.isSet w.cancel true }).goto id
      (.finished (.ok (.cancelled true)))
  else w.goto id (.finished (.ok (.cancelled false)))

/-- The first section of `expire`. -/
def expireStart (w : World) (id : Nat) : World :=
  match w.owner with
  | none => w.goto id (.finished (.ok (.expired false)))
  | some s =>
      if w.now < w.deadline then w.goto id (.finished (.ok (.expired false)))
      else ({ w with isSet := Function.update w.isSet w.cancel true }).goto id
        (.releaseStart s .expiry)

/-- The first section of `release`. -/
def releaseStart (w : World) (id : Nat) (s : Sender) (origin : Origin) : World :=
  if w.owner.any (· ≠ s) then
    w.goto id (.finished (.error ⟨"Busy", "Another client owns the network lease"⟩))
  else
    ({ w with isSet := Function.update w.isSet w.cancel true }).goto id (.releaseLock s origin)

/-- The second section of `release`, under the operation lock. -/
def releaseCheck (w : World) (id : Nat) (s : Sender) (origin : Origin) : World :=
  if w.owner.any (· ≠ s) then
    w.leave id (.error ⟨"Busy", "Another client acquired the network lease"⟩)
  else w.beginRestore id (.release s origin)

/-- Wait for the operation lock. -/
def acquire (w : World) (id : Nat) (next : World → World) : Option World :=
  if w.operation = none then some (next { w with operation := some id }) else none

/-- `backend.snapshot` returned: the baseline is journaled before the first mutation. -/
def baselineTaken (w : World) (id : Nat) (s : Sender) (b : Budget) (snapshot : Snapshot) :
    World :=
  (({ w with
    recovery := true
    record := some { state := .preparing, snapshot } }).note (.snapshotTaken snapshot)).save id
    (.saveBaseline s b)

/-- The durable baseline exists; the first mutation is called. -/
def baselineSaved (w : World) (id : Nat) (s : Sender) (b : Budget) : World :=
  match w.record with
  | some r => (w.note (.checkpointCreate r.snapshot)).goto id (.checkpointCreate s b)
  | none => w.fail id s .other

def checkpointSaved (w : World) (id : Nat) (s : Sender) (b : Budget) : World :=
  match w.record with
  | some r => (w.note (.prepare r.snapshot)).goto id (.prepare s b)
  | none => w.fail id s .other

/-- `backend.discover` returned. -/
def peersFound (w : World) (id : Nat) (s : Sender) (b : Budget) (found : List Peer)
    (ids : Nat → String) : World :=
  match w.check b with
  | .error e => w.fail id s e
  | .ok () =>
      (({ w with candidates := collectCandidates found ids, state := .discovered }).setRecord
        fun r => { r with state := .discovered }).save id (.saveDiscovered s)

/-- `backend.resolve_peer` returned. -/
def peerResolved (w : World) (id : Nat) (s : Sender) (candidate : Peer) (b : Budget)
    (found : Option Peer) : World :=
  match found.filter fun p => validPeer p && p.name == candidate.name with
  | none => w.failConnect id s (.helper
      ⟨"StaleCandidate", "Selected receiver is absent or no longer an available sink"⟩)
  | some peer => w.goto id (.recoveryAvailable s peer b)

/-- `backend.checkpoint_extend` returned: the UUID journals ownership even if
the activation reply times out. -/
def checkpointExtended (w : World) (id : Nat) (s : Sender) (peer : Peer) (b : Budget)
    (uuid : String) : World :=
  (({ w with state := .connecting }).setRecord fun r =>
    { r with connectionUuid := some uuid, state := .connecting }).save id
    (.saveConnecting s peer b)

/-- The connection's UUID is durable; the link is requested under it. -/
def connectingSaved (w : World) (id : Nat) (s : Sender) (peer : Peer) (b : Budget) : World :=
  match w.record.bind Record.connectionUuid with
  | some uuid => (w.note (.activate uuid)).goto id (.activate s peer b)
  | none => w.failConnect id s .other

/-- `backend.activate` returned a link; it counts only within budget and lease. -/
def linkActivated (w : World) (id : Nat) (s : Sender) (peer : Peer) (b : Budget)
    (link : Activation) : World :=
  match w.check b with
  | .error e => w.failConnect id s e
  | .ok () =>
      if w.deadline ≤ w.now then
        w.failConnect id s (.helper ⟨"NoLease", "The network lease expired during connection"⟩)
      else
        (({ w with state := .connected, failures := 0, lastError := none }).setRecord fun r =>
          { r with groupInterface := some link.groupInterface, state := .connected }).save id
          (.saveConnected s peer link)

/-- The link is journaled; `connect` returns its description. -/
def connectedSaved (w : World) (id : Nat) (peer : Peer) (link : Activation) : World :=
  let p2pInterface := (w.record.map fun r => r.snapshot.p2pInterface).getD ""
  let uuid := (w.record.bind Record.connectionUuid).getD ""
  (w.note .connectSucceeded).leave id
    (.ok (.connected peer.name peer.address p2pInterface uuid w.deadline link))

/-- `checkpoint_extend` of `keep_alive` returned. -/
def leaseExtended (w : World) (id : Nat) (s : Sender) : World :=
  match w.check (w.budget 1) with
  | .error e => w.fail id s e
  | .ok () =>
      let w := { w with deadline := w.now + 60 }
      w.leave id (.ok (.renewed w.deadline))

/-- The three outcomes of a journal write: saved, failed before and failed after the replacement. -/
def journaled (w : World) (reply : Reply) (saved : World → World)
    (failed : World → Failure → World) : Option World :=
  match reply with
  | .saved => some (saved w.replaceJournal)
  | .notSaved e => some (failed w e)
  | .replacedNotSaved e => some (failed w.replaceJournal e)
  | _ => none

/-- The call at this program counter continues with the reply; `none` when the
reply does not answer that external call, or the lock is not free. -/
def resume (w : World) (id : Nat) : Pc → Reply → Option World
  | .enter r, .go =>
      some (if w.operation = none then ({ w with operation := some id }).goto id (.entering r)
        else w.goto id (.finished (.error ⟨"Busy", "A network operation is already running"⟩)))
  | .entering r, .go => w.enterRequest id r
  | .snapshot s b, .snapshot snapshot => some (w.baselineTaken id s b snapshot)
  | .snapshot s _, .raised e => some (w.fail id s e)
  | .saveBaseline s b, reply => w.journaled reply (baselineSaved · id s b) (fail · id s ·)
  | .checkpointCreate s b, .checkpoint path =>
      some ((w.setRecord fun r => { r with checkpoint := some path }).save id (.saveCheckpoint s b))
  | .checkpointCreate s _, .raised e => some (w.fail id s e)
  | .saveCheckpoint s b, reply => w.journaled reply (checkpointSaved · id s b) (fail · id s ·)
  | .prepare s b, .done =>
      some ((({ w with state := .discovering }).note .discover).goto id (.discover s b))
  | .prepare s _, .raised e => some (w.fail id s e)
  | .discover s b, .peers found ids => some (w.peersFound id s b found ids)
  | .discover s _, .raised e => some (w.fail id s e)
  | .saveDiscovered s, reply =>
      w.journaled reply
        (fun w => w.leave id (.ok (.discovered w.deadline (viewCandidates w.candidates))))
        (fail · id s ·)
  | .resolvePeer s candidate b, .peer found => some (w.peerResolved id s candidate b found)
  | .resolvePeer s _ _, .raised e => some (w.failConnect id s e)
  | .recoveryAvailable s peer b, .available yes =>
      some (if yes then (w.note .checkpointExtend).goto id (.checkpointExtend s peer b)
        else w.failConnect id s
          (.helper ⟨"RecoveryRequired", "Connected Ethernet recovery is required"⟩))
  | .recoveryAvailable s _ _, .raised e => some (w.failConnect id s e)
  | .checkpointExtend s peer b, .extended uuid => some (w.checkpointExtended id s peer b uuid)
  | .checkpointExtend s _ _, .raised e => some (w.failConnect id s e)
  | .saveConnecting s peer b, reply =>
      w.journaled reply (connectingSaved · id s peer b) (failConnect · id s ·)
  | .activate s peer b, .activated link => some (w.linkActivated id s peer b link)
  | .activate s _ _, .raised e => some (w.failConnect id s e)
  | .saveConnected s peer link, reply =>
      w.journaled reply (connectedSaved · id peer link) (failConnect · id s ·)
  | .extendLease s, .done => some (w.leaseExtended id s)
  | .extendLease s, .raised e => some (w.fail id s e)
  | .restore k, .restored errors group => some (w.markRestored id errors group k)
  | .restore k, .restoreRaised group => some (w.markRestored id ["restoration-failed"] group k)
  | .saveRestored errors k, reply =>
      w.journaled reply (finishRestore · id errors k) (fun w _ => w.restoreNotSaved id errors k)
  | .cancelOwner s, .go => some (w.cancelOwner id s)
  | .expireStart, .go => some (w.expireStart id)
  | .releaseStart s origin, .go => some (w.releaseStart id s origin)
  | .releaseLock s origin, .go => w.acquire id (goto · id (.releaseCheck s origin))
  | .releaseCheck s origin, .go => some (w.releaseCheck id s origin)
  | .recoverLock, .go => w.acquire id (beginRestore · id .recover)
  | .recoverProbe result, .available yes =>
      some (({ w with recovery := yes }).leave id (.ok result))
  | .recoverProbe result, .raised _ =>
      some (({ w with recovery := false }).leave id (.ok result))
  | _, _ => none

/-- The first program counter of a request. -/
def start : Request → Pc
  | .cancelOwner s => .cancelOwner s
  | .release s origin => .releaseStart s origin
  | .expire => .expireStart
  | .recover => .recoverLock
  | r => .enter r

def step (w : World) : Action → Option World
  | .call id r => if (w.calls id).isNone then some (w.goto id (start r)) else none
  | .resume id reply => (w.calls id).bind fun pc => w.resume id pc reply
  | .cancelRequest n => some { w with isSet := Function.update w.isSet (.request n) true }
  | .wait t => if w.now ≤ t then some { w with now := t } else none

end World

/-- The helper's calls under every interleaving and every outcome. -/
def helperSystem : System World Action where
  step := World.step

end HccastWired.Network
