import HccastWired.Foundation.System
import HccastWired.Ui.Presenter

/-!
# The window and its connection

Every callback of the main loop is a step: what the user does, what the bus
delivers and the timers. The window waits for replies in the list of requests; a
request that is cancelled stays there until its callback has been called.
-/

namespace HccastWired.Ui

open Foundation

/-- `SessionClient`. A proxy is there with or without an owner of its name. -/
structure Client where
  proxy : Option Bool
  startup : Option Nat
  poll : Bool
  generation : Nat
  stateGeneration : Nat
  ownerEpoch : Nat
  fetching : Bool
deriving DecidableEq

inductive Query
  | connect
  | getState
  | command (verb : Verb)
deriving DecidableEq

/-- A call whose callback is still to come, with the counters its closure holds.
`era` and `signals` are those of the window when it was made. -/
structure Request where
  query : Query
  generation : Nat
  stateGeneration : Nat
  ownerEpoch : Nat
  era : Nat
  signals : Nat
deriving DecidableEq

/-- The request was made on the connection and to the owner that are there. -/
def Client.counts (c : Client) (r : Request) : Bool :=
  r.generation = c.generation && r.ownerEpoch = c.ownerEpoch

/-- `era` counts the times that the connection was opened or closed or that its owner
changed, and `signals` the `StateChanged` signals; `updates` lists the replies that
reached the presenter, with both numbers. The program holds none of them. -/
structure Window where
  client : Client
  presenter : Presenter
  aboutAttempted : Bool
  aboutLoading : Bool
  idle : Bool
  requests : List Request
  era : Nat
  signals : Nat
  updates : List (Request × Nat × Nat)

/-- The first element of an unpacked message. -/
inductive Body
  | missing
  | other
  | text (raw : String)
deriving DecidableEq

/-- What a callback is given. -/
inductive Reply
  | failed (message : String)
  | proxy (owned : Bool)
  | body (message : Body)
deriving DecidableEq

/-- What a reply is refused with; `RecursionError` is not caught. -/
inductive ReplyError
  | caught (reason : Reason)
  | recursion
deriving DecidableEq

/-- What a step finds: the clock, whether the page of the notices is shown, and whether
a call of the bus raises `GLib.Error`. -/
structure Surroundings where
  now : Rat
  aboutShown : Bool
  getState : Option String
  command : Option String

section Decoding

variable (loads : String → Except JsonError PyValue)

def decodeObject : Body → Except ReplyError PyValue
  | .missing => .error (.caught (.text "tuple index out of range"))
  | .other => .error (.caught (.text "The controller returned unreadable data. Retry the connection."))
  | .text raw =>
      match loads raw with
      | .error .recursion => .error .recursion
      | .error (.value _) =>
          .error (.caught (.text "The controller returned unreadable data. Retry the connection."))
      | .ok value =>
          match value.integer "api_version" with
          | none => .error (.caught (.text "The controller returned an incompatible response."))
          | some version =>
              if version = 1 then .ok value
              else .error (.caught (.text "The controller uses an unsupported API version."))

def decodeResult (body : Body) : Except ReplyError PyValue := do
  let value ← decodeObject loads body
  if value.get "ok" ≠ some (.bool true) then
    match value.get "error" with
    | some error =>
        if truthy (some error) then throw (.caught (.reported "" error))
        else throw (.caught (.text "The controller could not complete that action."))
    | none => throw (.caught (.text "The controller could not complete that action."))
  match value.get "result" with
  | some (.dict fields) => return .dict fields
  | _ => throw (.caught (.text "The controller returned an incomplete result."))

/-- `decode(proxy.call_finish(result).unpack()[0])`. -/
def Reply.decode (decode : Body → Except ReplyError PyValue) : Reply → Except ReplyError PyValue
  | .failed message => .error (.caught (.text message))
  | .proxy _ => .error (.caught (.text "unexpected object"))
  | .body message => decode message

end Decoding

namespace Window

def initial : Window where
  client := ⟨none, none, false, 0, 0, 0, false⟩
  presenter := ⟨.dict [], false, .text "Connecting to the desktop session service…", [], 0⟩
  aboutAttempted := false
  aboutLoading := false
  idle := true
  requests := []
  era := 0
  signals := 0
  updates := []

/-- The window waits for one more callback. -/
def ask (w : Window) (query : Query) : Window :=
  { w with requests := w.requests ++ [⟨query, w.client.generation, w.client.stateGeneration,
      w.client.ownerEpoch, w.era, w.signals⟩] }

/-- `_service_error`. -/
def serviceError (w : Window) (reason : Reason) : Window :=
  { w with
    presenter := w.presenter.disconnect reason, aboutAttempted := false, aboutLoading := false }

def statusError (w : Window) : Reason → Window
  | .text message => w.serviceError (.text ("Could not read display status: " ++ message))
  | .reported lead value =>
      w.serviceError (.reported ("Could not read display status: " ++ lead) value)

/-- `refresh`. -/
def refresh (env : Surroundings) (w : Window) : Window :=
  if w.client.fetching ∨ w.client.proxy ≠ some true then w
  else
    match env.getState with
    | none => { w with client := { w.client with fetching := true } }.ask .getState
    | some message => w.statusError (.text message)

/-- `finished` of `_send`. -/
def finished (w : Window) (verb : Verb) (error : Option Reason) : Window :=
  { w with
    presenter := w.presenter.finish verb error
    aboutLoading := if verb = .about then false else w.aboutLoading }

/-- `command`. -/
def command (env : Surroundings) (w : Window) (verb : Verb) : Window :=
  if w.client.proxy ≠ some true then
    w.finished verb (some (.text "The session controller is unavailable. Retry the connection."))
  else
    match env.command with
    | none => w.ask (.command verb)
    | some message => w.finished verb (some (.text message))

/-- `_send`. -/
def send (env : Surroundings) (w : Window) (verb : Verb) (fault : Option Reason) : Window :=
  match w.presenter.begin verb fault env.now with
  | .error reason => { w with presenter := { w.presenter with error := reason } }
  | .ok presenter => { w with presenter := presenter }.command env verb

/-- `_load_about`. -/
def loadAbout (env : Surroundings) (w : Window) : Window :=
  if w.aboutAttempted ∨ w.aboutLoading then w
  else
    match w.presenter.availability .about env.now with
    | .error _ => w
    | .ok () => { w with aboutAttempted := true, aboutLoading := true }.send env .about none

/-- `_state_changed`. -/
def stateChanged (env : Surroundings) (w : Window) (state : PyValue) : Window :=
  match w.presenter.update state env.now with
  | (presenter, .error _) => { w with presenter := presenter }
  | (presenter, .ok ()) =>
      if env.aboutShown then { w with presenter := presenter }.loadAbout env
      else { w with presenter := presenter }

/-- `close`. -/
def close (w : Window) : Window :=
  { w with
    client := { w.client with
      proxy := none, startup := none, poll := false, generation := w.client.generation + 1
      fetching := false }
    era := w.era + 1 }

/-- `connect`. -/
def connect (w : Window) : Window :=
  let closed := w.close
  { closed with client := { closed.client with startup := some closed.client.generation } }.ask
    .connect

/-- `_owner_changed`. -/
def ownerChanged (env : Surroundings) (w : Window) : Window :=
  let next := { w with client := { w.client with
    ownerEpoch := w.client.ownerEpoch + 1, fetching := false } }
  if w.client.proxy = some true then next.refresh env
  else
    next.serviceError
      (.text "The PanelBridge session controller is unavailable. Retry after it starts.")

/-- `_ready`. -/
def ready (env : Surroundings) (w : Window) (r : Request) (reply : Reply) : Window :=
  if r.generation ≠ w.client.generation then w
  else
    let w := { w with client := { w.client with startup := none } }
    match reply with
    | .proxy owned =>
        { w with client := { w.client with proxy := some owned, poll := true } }.ownerChanged env
    | .failed message =>
        w.serviceError (.text ("Cannot reach the desktop session service: " ++ message))
    | .body _ => w

variable (loads : String → Except JsonError PyValue)

/-- `received` of `refresh`. -/
def receivedState (env : Surroundings) (w : Window) (r : Request) (reply : Reply) : Window :=
  if ¬ w.client.counts r then w
  else
    let w := { w with client := { w.client with fetching := false } }
    match reply.decode (decodeObject loads) with
    | .error (.caught reason) => w.statusError reason
    | .error .recursion => w
    | .ok value =>
        if r.stateGeneration = w.client.stateGeneration then
          { w with updates := w.updates ++ [(r, w.era, w.signals)] }.stateChanged env value
        else w

/-- `received` of `command`. -/
def receivedResult (env : Surroundings) (w : Window) (r : Request) (verb : Verb) (reply : Reply) :
    Window :=
  if ¬ w.client.counts r then w
  else
    match reply.decode (decodeResult loads) with
    | .error (.caught reason) => (w.finished verb (some reason)).refresh env
    | .error .recursion => w
    | .ok _ => (w.finished verb none).refresh env

def received (env : Surroundings) (w : Window) (r : Request) (reply : Reply) : Window :=
  match r.query with
  | .connect => w.ready env r reply
  | .getState => w.receivedState loads env r reply
  | .command verb => w.receivedResult loads env r verb reply

/-- `_signal`. -/
def signal (env : Surroundings) (w : Window) (name : String) (body : Body) : Window :=
  if name ≠ "StateChanged" then w
  else
    let w := { w with
      client := { w.client with stateGeneration := w.client.stateGeneration + 1 }
      signals := w.signals + 1 }
    match decodeObject loads body with
    | .error (.caught reason) => w.serviceError reason
    | .error .recursion => w
    | .ok value => w.stateChanged env value

/-- `_retry`. -/
def retry (w : Window) : Window :=
  (w.serviceError (.text "Connecting to the desktop session service…")).connect

end Window

inductive UiEvent
  | idle
  | retry
  | close
  | startupExpired
  | pollState
  | ownerChanged
  | busClosed
  | signal (name : String) (body : Body)
  | reply (index : Nat) (reply : Reply)
  | send (verb : Verb) (fault : Option Reason)
  | showAbout

structure UiAction where
  event : UiEvent
  env : Surroundings

/-- The events that the main loop can dispatch, and what their callbacks do. An owner
goes away before another one appears. -/
def uiSystem (loads : String → Except JsonError PyValue) : System Window UiAction where
  step w a :=
    match a.event with
    | .idle => if w.idle then some { w with idle := false }.connect else none
    | .retry => some w.retry
    | .close => some w.close
    | .startupExpired =>
        w.client.startup.map fun generation =>
          let w := { w with client := { w.client with startup := none } }
          if generation = w.client.generation ∧ w.client.proxy = none then
            w.serviceError
              (.text "The desktop session service did not respond. Retry the connection.")
          else w
    | .pollState => if w.client.poll then some (w.refresh a.env) else none
    | .ownerChanged =>
        w.client.proxy.map fun owned =>
          { w with client := { w.client with proxy := some !owned }, era := w.era + 1 }.ownerChanged
            a.env
    | .busClosed =>
        w.client.proxy.map fun _ => w.close.serviceError
          (.text "The desktop session connection closed. Retry to reconnect.")
    | .signal name body => w.client.proxy.map fun _ => w.signal loads a.env name body
    | .reply index reply =>
        w.requests[index]?.map fun r =>
          { w with requests := w.requests.eraseIdx index }.received loads a.env r reply
    | .send verb fault => some (w.send a.env verb fault)
    | .showAbout => some (w.loadAbout a.env)

end HccastWired.Ui
