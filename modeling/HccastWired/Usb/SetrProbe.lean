import HccastWired.Protocol.DeviceInfo
import HccastWired.Usb.HostTransport

/-!
# The one-shot SETR probe

One request is written, what comes back within a window is kept in a file, and only
then is it read as HCCAST frames.
-/

namespace HccastWired.Usb

open Foundation
open Protocol (Command Frame FrameStreamParser DeviceInfo parseSetv u32At magicAt HEADER_SIZE)

namespace SetrProbe

def setrOnceBytes : Bytes :=
  [0, 0, 0, 0x14, 0, 0, 0, 0, 0x52, 0x54, 0x45, 0x53, 0, 0, 0, 1, 0, 0, 0, 0]

def minResponseWindowMs : Int := 1

def maxResponseWindowMs : Int := 500

def defaultMaxFrame : Nat := 32 * 1024 * 1024

/-- `FrameStreamParser()`. -/
def freshParser : FrameStreamParser where
  maxFrame := defaultMaxFrame
  minimum := by decide

inductive Classification
  | validSetv
  | partialHccastResponse
  | rawNonHccastResponse
  | setrWriteOkNoResponse
  | setrWriteFailed
deriving DecidableEq

structure SetrOnceResult where
  classification : Classification
  outbound : Bytes
  responseBytes : Nat
  writeError : Option String
  readError : Option String
  parseErrors : List String
  setv : Option DeviceInfo

/-- `int(value)`. -/
def truncate (value : Rat) : Int :=
  if value < 0 then ⌈value⌉ else ⌊value⌋

/-- The end of a response window that opens now. -/
def deadlineOf (now : Rat) (responseWindowMs : Int) : Rat :=
  roundBinary64 (now + roundBinary64 (responseWindowMs / 1000))

/-- The whole milliseconds up to the deadline. -/
def wholeMillisecondsLeft (deadline now : Rat) : Int :=
  truncate (roundBinary64 (roundBinary64 (deadline - now) * 1000))

/-- `_plausible_incomplete_hccast_frame`. -/
def plausibleIncompleteHccastFrame (data : Bytes) : Bool :=
  (List.range (data.length - 11)).any fun offset =>
    let remaining := data.length - offset
    let totalLength := u32At data offset
    HEADER_SIZE ≤ totalLength && totalLength ≤ defaultMaxFrame &&
      Command.known.contains (magicAt data offset) && remaining < totalLength

/-- The first valid SETV frame, and the errors of those before it. -/
def firstSetv : List Frame → Option DeviceInfo × List String
  | [] => (none, [])
  | frame :: rest =>
      if frame.command ≠ .SETV then firstSetv rest
      else
        match parseSetv frame with
        | .ok info => (some info, [])
        | .error message =>
            let later := firstSetv rest
            (later.1, ("invalid SETV: " ++ message) :: later.2)

/-- The frames that a fresh parser yields from the bytes. -/
def framesOf (data : Bytes) : List Frame :=
  (freshParser.feed data).2

/-- `_classify_response`. -/
def classifyResponse (data : Bytes) : Classification × Option DeviceInfo × List String :=
  match firstSetv (framesOf data) with
  | (some info, errors) => (.validSetv, some info, errors)
  | (none, errors) =>
      if plausibleIncompleteHccastFrame data then (.partialHccastResponse, none, errors)
      else (.rawNonHccastResponse, none, errors)

variable (lib : Library)

/-- The read of one turn; a read beyond those that the library answers times out. -/
def read (responseWindowMs : Int) (deadline now : Rat) (answer : Except ReadError Bytes) :
    PortCall (Except String Bytes) := do
  let timeoutMs := min responseWindowMs (wholeMillisecondsLeft deadline now)
  match answer with
  | .error (.raised message) => do
      emit (.bulkIn ⟨now, timeoutMs, .error message, none⟩)
      pure (.error ("USB bulk IN failed: " ++ message))
  | .error .timeout => do
      let returned ← HostTransport.clock lib
      emit (.bulkIn ⟨now, timeoutMs, .ok [], some returned⟩)
      pure (.ok [])
  | .ok chunk => do
      let returned ← HostTransport.clock lib
      emit (.bulkIn ⟨now, timeoutMs, .ok chunk, some returned⟩)
      pure (.ok (if returned > deadline then [] else chunk))

/-- The loop of the response window. A chunk that came after the deadline ends it, as an
empty one does. -/
def collect (responseWindowMs : Int) (deadline : Rat) :
    List (Except ReadError Bytes) → Bytes → PortCall (Bytes × Option String)
  | [], collected => do
      let now ← HostTransport.clock lib
      if wholeMillisecondsLeft deadline now < minResponseWindowMs then pure (collected, none)
      else
        let _ ← read lib responseWindowMs deadline now (.error .timeout)
        pure (collected, none)
  | answer :: rest, collected => do
      let now ← HostTransport.clock lib
      if wholeMillisecondsLeft deadline now < minResponseWindowMs then pure (collected, none)
      else
        match ← read lib responseWindowMs deadline now answer with
        | .error message => pure (collected, some message)
        | .ok [] => pure (collected, none)
        | .ok chunk => collect responseWindowMs deadline rest (collected ++ chunk)

/-- The one write, and the text of what it raises. -/
def writeRequest : PortCall (Option String) :=
  tryCatch (do
    HostTransport.writeSingleTransferNoZlp lib setrOnceBytes
    pure none) fun e => pure (some e.text)

def collectResponse (responseWindowMs : Int) : Option String → PortCall (Bytes × Option String)
  | some _ => pure ([], none)
  | none => do
      let now ← HostTransport.clock lib
      emit (.windowOpened now)
      collect lib responseWindowMs (deadlineOf now responseWindowMs) lib.reads []

def classify (writeError : Option String) (raw : Bytes) :
    PortCall (Classification × Option DeviceInfo × List String) :=
  if writeError.isSome then pure (.setrWriteFailed, none, [])
  else if raw = [] then pure (.setrWriteOkNoResponse, none, [])
  else do
    emit (.parse raw)
    pure (classifyResponse raw)

/-- `run_setr_once`. -/
def runSetrOnce (responseWindowMs : Int) : PortCall SetrOnceResult := do
  if ¬ (minResponseWindowMs ≤ responseWindowMs ∧ responseWindowMs ≤ maxResponseWindowMs) then
    throw (.value "response_window_ms must be between 1 and 500")
  let writeError ← writeRequest lib
  let (raw, readError) ← collectResponse lib responseWindowMs writeError
  emit (.writeFile raw)
  match lib.writeFile with
  | .error message => throw (.os message)
  | .ok () => do
      let (classification, setv, parseErrors) ← classify writeError raw
      pure ⟨classification, setrOnceBytes, raw.length, writeError, readError, parseErrors, setv⟩

/-- The options of the command; only the three last ones are the user's. -/
def options (interfaceNumber : Option Nat) (tryClaimWithKernelDriver : Bool) (waitSeconds : Rat) :
    TransportOptions where
  interfaceNumber
  detachKernel := false
  tryClaimWithKernelDriver
  allowConfigurationActivation := false
  waitSeconds

/-- The body of the command while the transport is open. -/
def report (responseWindowMs : Int) : PortCall (Nat × SetrOnceResult) := do
  let result ← runSetrOnce lib responseWindowMs
  match lib.print with
  | .error message => throw (.os message)
  | .ok () => pure (if result.classification = .setrWriteFailed then 3 else 0, result)

/-- `command_host_setr_once`: the status and the result that it prints. -/
def commandHostSetrOnce (interfaceNumber : Option Nat) (tryClaimWithKernelDriver : Bool)
    (waitSeconds : Rat) (responseWindowMs : Int) : PortCall (Nat × SetrOnceResult) := do
  HostTransport.open lib (options interfaceNumber tryClaimWithKernelDriver waitSeconds)
  let value ← tryCatch (report lib responseWindowMs) fun e => do
    HostTransport.close
    throw e
  HostTransport.close
  pure value

end SetrProbe

end HccastWired.Usb
