import HccastWired.Foundation.System
import HccastWired.Protocol.Codec
import HccastWired.Protocol.DeviceInfo

/-!
# A session with a display

The reader thread and one thread that sends share an error slot, a device-info slot and
three events. Every access to one of them is a step of its own; what the transport
answers and what the clock says is part of the action.
-/

namespace HccastWired.Session

open Foundation Protocol

def DEFAULT_MAX_FRAME : Nat := 32 * 1024 * 1024

/-- What `_reader_error` holds. -/
inductive ReaderError
  | session (message : String)
  | other (text : String)
deriving DecidableEq

/-- What a call of the sender raises. -/
inductive SessionFault
  | session (message : String)
  | message (error : MessageError)
  | transport (text : String)
deriving DecidableEq

/-- What `_raise_reader_error` raises for the error that it finds. -/
def ReaderError.raised : ReaderError → SessionFault
  | session message => .session message
  | other text => .session ("reader failed: " ++ text)

inductive Request
  | handshake
  | sendSettings (settings : Settings)
  | sendScreenInfo (info : ScreenInfo)
  | sendVideoPacket (encodedH264 : Protocol.Bytes)
deriving DecidableEq

/-- What can be seen of a session. `refused` is a frame that was numbered and could not
be packed; `readFailed` is a failure that is not due to closing. -/
inductive SessionEvent
  | received (data : Protocol.Bytes)
  | stopHandled
  | setvRefused (frame : Frame)
  | readFailed (text : String)
  | called (request : Request)
  | refused (frame : Frame)
  | handed (data : Protocol.Bytes)
  | ready (info : DeviceInfo)
  | done
  | raised (fault : SessionFault)

/-- Where the reader thread is. -/
inductive Reader
  | absent
  | testing
  | reading
  | handling (frames : List Frame)
  | settingReady (frames : List Frame)
  | caught (text : String)
  | failedReady
  | failedStop
  | finished
deriving DecidableEq

/-- What follows a `_raise_reader_error` that finds no error. -/
inductive Check
  | request
  | info
  | video (encodedH264 : Protocol.Bytes)
deriving DecidableEq

/-- Where the sending thread is. -/
inductive Sender
  | idle
  | starting
  | deadline
  | checking (check : Check)
  | raising
  | stopTest (encodedH264 : Protocol.Bytes)
  | encoding (m : Protocol.Message)
  | writing (m : Protocol.Message) (data : Protocol.Bytes)
  | readyTest
  | waiting
  | reporting
deriving DecidableEq

/-- `trace` keeps what has been seen, the newest first. -/
structure HccastSession where
  codec : FrameCodec
  parser : FrameStreamParser
  deviceInfo : Option DeviceInfo
  deviceReady : Bool
  stopSeen : Bool
  readerStop : Bool
  readerError : Option ReaderError
  reader : Reader
  sender : Sender
  trace : List SessionEvent

inductive SessionAction
  /-- The reader's next step; a `read` returns the data or raises. -/
  | reader (read : Except String Protocol.Bytes)
  | call (request : Request)
  /-- The sender's next step: what the clock, the wait or a write says. -/
  | sender (inTime : Bool) (write : Except String Unit)
  | close

namespace HccastSession

/-- `__init__`. -/
def fresh : HccastSession where
  codec := FrameCodec.create 0
  parser := { maxFrame := DEFAULT_MAX_FRAME, minimum := by decide }
  deviceInfo := none
  deviceReady := false
  stopSeen := false
  readerStop := false
  readerError := none
  reader := .absent
  sender := .idle
  trace := []

def see (s : HccastSession) (event : SessionEvent) : HccastSession :=
  { s with trace := event :: s.trace }

/-- `_handle_frame`, up to its `finally` clause. -/
def handleFrame (s : HccastSession) (frame : Frame) (rest : List Frame) : HccastSession :=
  match frame.command with
  | .SETV =>
      match parseSetv frame with
      | .ok info => { s with deviceInfo := some info, reader := .settingReady rest }
      | .error reason =>
          { s with
            readerError := some (.session ("invalid SETV response: " ++ reason))
            reader := .settingReady rest
            trace := .setvRefused frame :: s.trace }
  | .STOP =>
      { s with stopSeen := true, reader := .handling rest, trace := .stopHandled :: s.trace }
  | _ => { s with reader := .handling rest }

/-- `_reader_loop`. -/
def readerStep (s : HccastSession) (read : Except String Protocol.Bytes) : Option HccastSession :=
  match s.reader with
  | .absent => none
  | .testing => some { s with reader := if s.readerStop then .finished else .reading }
  | .reading =>
      match read with
      | .error text => some { s with reader := .caught text }
      | .ok data =>
          if data = [] then some { s with reader := .testing }
          else
            some { s with
              parser := (s.parser.feed data).1
              reader := .handling (s.parser.feed data).2
              trace := .received data :: s.trace }
  | .handling [] => some { s with reader := .testing }
  | .handling (frame :: rest) => some (s.handleFrame frame rest)
  | .settingReady rest => some { s with deviceReady := true, reader := .handling rest }
  | .caught text =>
      if s.readerStop then some { s with reader := .finished }
      else
        some { s with
          readerError := some (.other text)
          reader := .failedReady
          trace := .readFailed text :: s.trace }
  | .failedReady => some { s with deviceReady := true, reader := .failedStop }
  | .failedStop => some { s with stopSeen := true, reader := .finished }
  | .finished => none

/-- The first step of a call. -/
def callStep (s : HccastSession) (request : Request) : Option HccastSession :=
  if s.sender = .idle then
    let next :=
      match request with
      | .handshake => .starting
      | .sendSettings settings => .encoding (.sets settings)
      | .sendScreenInfo info => .encoding (.sinf info)
      | .sendVideoPacket encodedH264 => .checking (.video encodedH264)
    some { s with sender := next, trace := .called request :: s.trace }
  else none

def returns (s : HccastSession) (event : SessionEvent) : HccastSession :=
  { s with sender := .idle, trace := event :: s.trace }

/-- `make_…(self.codec, …)`, after which the frame is there or the call has raised. -/
def encodeStep (s : HccastSession) (m : Protocol.Message) : HccastSession :=
  match (make s.codec m).1, m.payload with
  | .ok data, _ => { s with codec := (make s.codec m).2, sender := .writing m data }
  | .error e, .ok payload =>
      { s with
        codec := (make s.codec m).2
        sender := .idle
        trace := .raised (.message e) ::
          .refused (m.frame s.codec payload) :: s.trace }
  | .error e, .error _ => s.returns (.raised (.message e))

/-- `handshake`, `send_settings`, `send_screen_info` and `send_video_packet`. -/
def senderStep (s : HccastSession) (inTime : Bool) (write : Except String Unit) :
    Option HccastSession :=
  match s.sender with
  | .idle => none
  | .starting =>
      some { s with
        reader := if s.reader = .absent then .testing else s.reader
        sender := .deadline }
  | .deadline =>
      if inTime then some { s with sender := .checking .request }
      else some (s.returns (.raised (.session "timed out waiting for the display's SETV response")))
  | .checking check =>
      if s.readerError.isSome then some { s with sender := .raising }
      else
        let next :=
          match check with
          | .request => .encoding .setr
          | .info => .reporting
          | .video encodedH264 => .stopTest encodedH264
        some { s with sender := next }
  | .raising => s.readerError.map fun error => s.returns (.raised error.raised)
  | .stopTest encodedH264 =>
      if s.stopSeen then some (s.returns (.raised (.session "display requested STOP")))
      else some { s with sender := .encoding (.vid encodedH264) }
  | .encoding m => some (s.encodeStep m)
  | .writing m data =>
      let after :=
        match write with
        | .error text => s.see (.handed data) |>.returns (.raised (.transport text))
        | .ok () =>
            if m = .setr then { s.see (.handed data) with sender := .readyTest }
            else s.see (.handed data) |>.returns .done
      some after
  | .readyTest =>
      some { s with sender := if s.deviceReady then .checking .info else .waiting }
  | .waiting =>
      if inTime then if s.deviceReady then some { s with sender := .checking .info } else none
      else some { s with sender := .deadline }
  | .reporting =>
      match s.deviceInfo with
      | none =>
          some (s.returns (.raised (.session "device-ready event occurred without valid SETV")))
      | some info => some (s.returns (.ready info))

def step (s : HccastSession) : SessionAction → Option HccastSession
  | .reader read => s.readerStep read
  | .call request => s.callStep request
  | .sender inTime write => s.senderStep inTime write
  | .close => some { s with readerStop := true }

end HccastSession

def sessionSystem : System HccastSession SessionAction := ⟨HccastSession.step⟩

end HccastWired.Session
