import HccastWired.Protocol.StreamParser

/-!
# The device information of a display

`parse_setv` reads the fixed layout of a SETV answer. Its texts are decoded with
replacement characters, so that nothing but a short frame is refused.
-/

namespace HccastWired.Protocol

open Foundation

section Utf8

/-- A character of which some continuation bytes are missing. -/
structure Unfinished where
  missing : Nat
  low : Nat
  high : Nat
  code : Nat
deriving DecidableEq

def replacement : Char := Char.ofNat 0xFFFD

/-- The first byte of a character. -/
def leadByte (b : Nat) : List Char × Option Unfinished :=
  if b < 0x80 then ([Char.ofNat b], none)
  else if b < 0xC2 then ([replacement], none)
  else if b < 0xE0 then ([], some ⟨1, 0x80, 0xBF, b - 0xC0⟩)
  else if b < 0xF0 then
    ([], some ⟨2, if b = 0xE0 then 0xA0 else 0x80, if b = 0xED then 0x9F else 0xBF, b - 0xE0⟩)
  else if b < 0xF5 then
    ([], some ⟨3, if b = 0xF0 then 0x90 else 0x80, if b = 0xF4 then 0x8F else 0xBF, b - 0xF0⟩)
  else ([replacement], none)

/-- A byte that does not continue a character ends it and begins the next one. -/
def decodeByte (u : Option Unfinished) (b : Nat) : List Char × Option Unfinished :=
  match u with
  | none => leadByte b
  | some u =>
      if u.low ≤ b ∧ b ≤ u.high then
        let code := u.code * 64 + b % 64
        if u.missing = 1 then ([Char.ofNat code], none)
        else ([], some ⟨u.missing - 1, 0x80, 0xBF, code⟩)
      else (replacement :: (leadByte b).1, (leadByte b).2)

def decodeFrom (u : Option Unfinished) : Bytes → List Char
  | [] => if u.isSome then [replacement] else []
  | b :: rest => (decodeByte u b.toNat).1 ++ decodeFrom (decodeByte u b.toNat).2 rest

/-- `data.decode("utf-8", errors="replace")`. -/
def decodeReplace (data : Bytes) : String :=
  String.ofList (decodeFrom none data)

/-- `c.isspace()`. -/
def isSpace (c : Char) : Bool :=
  let n := c.toNat
  (0x09 ≤ n && n ≤ 0x0D) || (0x1C ≤ n && n ≤ 0x20) || n = 0x85 || n = 0xA0 || n = 0x1680 ||
    (0x2000 ≤ n && n ≤ 0x200A) || n = 0x2028 || n = 0x2029 || n = 0x202F || n = 0x205F || n = 0x3000

/-- `text.strip()`. -/
def strip (text : String) : String :=
  String.ofList ((text.toList.dropWhile isSpace).reverse.dropWhile isSpace).reverse

example : decodeReplace [0x41, 0xC3, 0xA9, 0xE2, 0x82, 0x41, 0xFF] = "Aé\uFFFDA\uFFFD" := by
  decide +kernel

end Utf8

structure DeviceInfo where
  mirrorType : Nat
  mirrorResolution : Nat
  audioEnabled : Nat
  product : String
  versionRaw : Nat
  version : String
  url : String
  verticalMode : Nat
  verticalAutoRevolve : Nat
  fullMode : Nat
deriving DecidableEq

/-- `_be_u32`, with its default zero. -/
def beU32 (payload : Bytes) (offset : Nat) : Nat :=
  if payload.length < offset + 4 then 0 else u32At payload offset

/-- `_c_string`. -/
def cString (payload : Bytes) : String :=
  decodeReplace (payload.takeWhile (· ≠ 0))

/-- The name of a command in the enumeration. -/
def Command.name (command : Command) : String :=
  match command with
  | .UNK => "UNK"
  | .VID => "VID"
  | .AUD => "AUD"
  | .SETS => "SETS"
  | .SETR => "SETR"
  | .SETC => "SETC"
  | .SETF => "SETF"
  | .SETV => "SETV"
  | .DBG => "DBG"
  | .STOP => "STOP"
  | .UPG => "UPG"
  | .UPGI => "UPGI"
  | .PING => "PING"
  | .SINF => "SINF"

/-- The layout of a payload that is long enough. -/
def deviceInfo (payload : Bytes) : DeviceInfo where
  mirrorType := beU32 payload 0
  mirrorResolution := beU32 payload 4
  audioEnabled := beU32 payload 8
  product := cString ((payload.drop 12).take 32)
  versionRaw := beU32 payload 44
  version := toString (beU32 payload 44)
  url := strip (cString ((payload.drop 48).take 256))
  verticalMode := beU32 payload 304
  verticalAutoRevolve := beU32 payload 308
  fullMode := beU32 payload 312

def parseSetv (frame : Frame) : Except String DeviceInfo :=
  if frame.command ≠ .SETV then .error ("expected SETV, got " ++ frame.command.name)
  else if frame.totalLength < 320 then
    .error ("SETV is too short: total=" ++ toString frame.totalLength ++
      ", factory app requires >=320")
  else .ok (deviceInfo frame.payload)

/-- A SETV frame is refused exactly where it is short. -/
theorem parseSetv_ok_iff {frame : Frame} {info : DeviceInfo} :
    parseSetv frame = .ok info ↔
      frame.command = .SETV ∧ 320 ≤ frame.totalLength ∧ info = deviceInfo frame.payload := by
  unfold parseSetv
  split
  · next hcommand => simp [hcommand]
  · next hcommand =>
    split
    · next hlength =>
      simp only [reduceCtorEq, false_iff, not_and]
      omega
    · next hlength =>
      simp only [Except.ok.injEq, not_not.mp hcommand, Nat.le_of_not_lt hlength, true_and, eq_comm]

end HccastWired.Protocol
