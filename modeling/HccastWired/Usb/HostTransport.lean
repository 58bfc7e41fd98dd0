import HccastWired.Foundation.Binary64
import HccastWired.Foundation.Call

/-!
# A display that is a USB peripheral

The transport finds a device, claims an interface with bulk endpoints in both
directions and gives it back. What the USB library answers is a parameter; what is
asked of it is kept in a trace.
-/

namespace HccastWired.Usb

open Foundation

structure Endpoint where
  bmAttributes : Nat
  bEndpointAddress : Nat
deriving DecidableEq

namespace Endpoint

/-- `endpoint_type(bmAttributes) == ENDPOINT_TYPE_BULK`. -/
def bulk (e : Endpoint) : Bool := e.bmAttributes % 4 = 2

/-- `endpoint_direction(bEndpointAddress) == ENDPOINT_IN`. -/
def incoming (e : Endpoint) : Bool := e.bEndpointAddress / 128 % 2 = 1

end Endpoint

structure Interface where
  bInterfaceNumber : Nat
  endpoints : List Endpoint

/-- A read from the device: the clock before it, what it was asked for and what it gave,
and the clock after it unless it has raised. -/
structure Transfer where
  asked : Rat
  timeoutMs : Int
  data : Except String Bytes
  returned : Option Rat

inductive UsbEvent
  | lookup (found : Bool)
  | getActiveConfiguration
  | setConfiguration
  | isKernelDriverActive (interface : Nat)
  | detachKernelDriver (interface : Nat)
  | attachKernelDriver (interface : Nat)
  | claimInterface (interface : Nat) (succeeded : Bool)
  | bulkOut (data : Bytes)
  | windowOpened (now : Rat)
  | bulkIn (transfer : Transfer)
  | writeFile (raw : Bytes)
  | parse (raw : Bytes)
  | releaseInterface (interface : Nat)
  | disposeResources

inductive UsbError
  | transport (message : String)
  | library (message : String)
  | value (message : String)
  | os (message : String)
deriving DecidableEq

/-- `str(exc)`. -/
def UsbError.text : UsbError → String
  | transport message => message
  | library message => message
  | value message => message
  | os message => message

/-- What a call about a kernel driver raises. -/
inductive DriverError
  | notImplemented
  | raised (message : String)

/-- What a read raises; a timeout is no error. -/
inductive ReadError
  | timeout
  | raised (message : String)

/-- The answers of the USB library, of the clock and of the file system in one run. No call
but a lookup, a read and a clock reading is made twice; the lists hold the answers of a wait
and of a collection that end. -/
structure Library where
  clock : Nat → Rat
  lookups : List (Except String Bool)
  getActiveConfiguration : Except String Unit
  setConfiguration : Except String Unit
  getActiveConfigurationAgain : Except String Unit
  interfaces : Except String (List Interface)
  isKernelDriverActive : Except DriverError Bool
  detachKernelDriver : Except DriverError Unit
  claimInterface : Except String Unit
  write : Except String Int
  reads : List (Except ReadError Bytes)
  writeFile : Except String Unit
  print : Except String Unit

structure TransportOptions where
  interfaceNumber : Option Nat
  detachKernel : Bool
  tryClaimWithKernelDriver : Bool
  allowConfigurationActivation : Bool
  waitSeconds : Rat

/-- The attributes of `HostUSBTransport`, the number of clock readings and the trace. -/
structure Port where
  dev : Bool
  interface : Option Nat
  epIn : Option Endpoint
  epOut : Option Endpoint
  detached : Option Nat
  ticks : Nat
  trace : List UsbEvent

def Port.initial : Port :=
  ⟨false, none, none, none, none, 0, []⟩

abbrev PortCall (α : Type) : Type := Call Port UsbError α

def emit (event : UsbEvent) : PortCall Unit :=
  Call.update fun p => { p with trace := p.trace ++ [event] }

namespace HostTransport

variable (lib : Library) (options : TransportOptions)

/-- `time.monotonic()`. -/
def clock : PortCall Rat := do
  let p ← Call.get
  Call.update fun p => { p with ticks := p.ticks + 1 }
  pure (lib.clock p.ticks)

def notFoundError : UsbError :=
  .transport "No supported direct-host USB candidate found"

/-- `_find_device_once`, with one answer for all candidates. -/
def findDeviceOnce : Except String Bool → PortCall Bool
  | .error message => throw (.library message)
  | .ok found => do
      emit (.lookup found)
      pure found

def pollDevice (deadline : Rat) : List (Except String Bool) → PortCall Unit
  | [] => throw notFoundError
  | answer :: rest => do
      if ← findDeviceOnce answer then pure ()
      else do
        let now ← clock lib
        if roundBinary64 (deadline - now) ≤ 0 then throw notFoundError
        pollDevice deadline rest

/-- `_find_device`. -/
def findDevice : PortCall Unit := do
  if options.waitSeconds = 0 then
    match lib.lookups with
    | [] => throw notFoundError
    | answer :: _ => if ← findDeviceOnce answer then pure () else throw notFoundError
  else
    let now ← clock lib
    pollDevice lib (roundBinary64 (now + options.waitSeconds)) lib.lookups

/-- `_active_configuration`. -/
def activeConfiguration : PortCall Unit := do
  emit .getActiveConfiguration
  match lib.getActiveConfiguration with
  | .ok () => pure ()
  | .error initial =>
      if options.allowConfigurationActivation = false then
        throw (.transport ("claim-only safety: active USB configuration lookup failed and " ++
          "configuration activation is disabled; refusing to request SET_CONFIGURATION: " ++
          initial))
      else do
        emit .setConfiguration
        match lib.setConfiguration with
        | .error activation =>
            throw (.transport ("cannot activate USB configuration; initial " ++
              "active-configuration lookup failed: " ++ initial ++ "; activation failed: " ++
              activation))
        | .ok () => do
            emit .getActiveConfiguration
            match lib.getActiveConfigurationAgain with
            | .error retry =>
                throw (.transport ("cannot obtain active USB configuration after activation; " ++
                  "initial lookup failed: " ++ initial ++ "; retry failed: " ++ retry))
            | .ok () => pure ()

/-- The last bulk endpoint of an interface in each direction, if there are both. -/
def bulkPair (interface : Interface) : Option (Endpoint × Endpoint) :=
  let bulk := interface.endpoints.filter Endpoint.bulk
  match (bulk.filter Endpoint.incoming).getLast?, (bulk.filter (!·.incoming)).getLast? with
  | some epIn, some epOut => some (epIn, epOut)
  | _, _ => none

/-- The first interface that is not excluded and has both endpoints. -/
def selectInterface : List Interface → Option (Nat × Endpoint × Endpoint)
  | [] => none
  | interface :: rest =>
      if options.interfaceNumber.any (· ≠ interface.bInterfaceNumber) then selectInterface rest
      else
        match bulkPair interface with
        | some (epIn, epOut) => some (interface.bInterfaceNumber, epIn, epOut)
        | none => selectInterface rest

/-- The kernel driver is asked about; true where it stays while the interface is claimed. -/
def checkDriver (number : Nat) : PortCall Bool := do
  emit (.isKernelDriverActive number)
  match lib.isKernelDriverActive with
  | .error .notImplemented => pure false
  | .error (.raised message) => throw (.library message)
  | .ok false => pure false
  | .ok true =>
      if options.detachKernel then do
        emit (.detachKernelDriver number)
        match lib.detachKernelDriver with
        | .error .notImplemented => pure false
        | .error (.raised message) => throw (.library message)
        | .ok () => do
            Call.update fun p => { p with detached := some number }
            pure false
      else if options.tryClaimWithKernelDriver then pure true
      else throw (.transport ("kernel driver owns interface " ++ toString number ++
        "; rerun with --detach-kernel only if you understand the consequence"))

def claim (number : Nat) (nonDetaching : Bool) : PortCall Unit :=
  match lib.claimInterface with
  | .error message => do
      emit (.claimInterface number false)
      if nonDetaching then
        throw (.transport ("cannot claim USB interface " ++ toString number ++
          "; non-detaching claim was attempted while its kernel driver remained active: " ++
          message))
      else throw (.transport ("cannot claim USB interface " ++ toString number ++ ": " ++ message))
  | .ok () =>
      Call.update fun p => { p with
        interface := some number, trace := p.trace ++ [.claimInterface number true] }

/-- `_open_found_device`. -/
def openFoundDevice : PortCall Unit := do
  activeConfiguration lib options
  match lib.interfaces with
  | .error message => throw (.library message)
  | .ok interfaces =>
      match selectInterface options interfaces with
      | none => throw (.transport "no interface with both bulk IN and bulk OUT endpoints found")
      | some (number, epIn, epOut) => do
          let nonDetaching ← checkDriver lib options number
          claim lib number nonDetaching
          Call.update fun p => { p with epIn := some epIn, epOut := some epOut }

/-- `close`. What the library raises there is dropped. -/
def close : PortCall Unit := do
  let p ← Call.get
  if p.dev then do
    match p.interface with
    | some number => emit (.releaseInterface number)
    | none => pure ()
    match p.detached with
    | some number => emit (.attachKernelDriver number)
    | none => pure ()
    emit .disposeResources
    Call.update fun p => { p with
      dev := false, interface := none, epIn := none, epOut := none, detached := none }

/-- `_open`. -/
def «open» : PortCall Unit := do
  findDevice lib options
  Call.update fun p => { p with dev := true }
  tryCatch (openFoundDevice lib options) fun e => do
    close
    throw e

def writeSingleTransferNoZlp (data : Bytes) : PortCall Unit := do
  let p ← Call.get
  if p.epOut = none then throw (.transport "USB transport is closed")
  if data = [] then throw (.transport "single USB bulk OUT payload must not be empty")
  emit (.bulkOut data)
  match lib.write with
  | .error message => throw (.transport ("single USB bulk OUT failed: " ++ message))
  | .ok written =>
      if written ≠ data.length then
        throw (.transport ("short USB bulk OUT: wrote " ++ toString written ++ " of " ++
          toString data.length ++ " bytes; refusing retry"))

end HostTransport

end HccastWired.Usb
