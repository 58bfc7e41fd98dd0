import HccastWired.Foundation.BigEndian
import Mathlib

/-!
# HCCAST frames

The on-wire header is 16 bytes: total length including the header, sequence
counter, command magic and flags, all but the magic big-endian words.
Sequence numbers and flags are unsigned; `toBytes` keeps their low 32 bits.
-/

namespace HccastWired.Protocol

open Foundation

abbrev Bytes := List UInt8

def HEADER_SIZE : Nat := 16

/-- Why an encoder call raises: the module's own `ProtocolError`, or the
`struct.error` of a word that does not fit its format. -/
inductive EncodeError where
  | protocolError (message : String)
  | structError
  deriving DecidableEq, Repr

inductive Command where
  | UNK | VID | AUD | SETS | SETR | SETC | SETF | SETV | DBG | STOP | UPG | UPGI | PING | SINF
  deriving DecidableEq, Repr

namespace Command

/-- The enumeration in declaration order. -/
def all : List Command :=
  [UNK, VID, AUD, SETS, SETR, SETC, SETF, SETV, DBG, STOP, UPG, UPGI, PING, SINF]

/-- The four magic bytes; they look reversed when read as ASCII. -/
def value : Command → Bytes
  | UNK => [0x00, 0x00, 0x00, 0x00]
  | VID => [0x00, 0x44, 0x49, 0x56]
  | AUD => [0x00, 0x44, 0x55, 0x41]
  | SETS => [0x53, 0x54, 0x45, 0x53]
  | SETR => [0x52, 0x54, 0x45, 0x53]
  | SETC => [0x43, 0x54, 0x45, 0x53]
  | SETF => [0x46, 0x54, 0x45, 0x53]
  | SETV => [0x56, 0x54, 0x45, 0x53]
  | DBG => [0x00, 0x47, 0x42, 0x44]
  | STOP => [0x50, 0x4F, 0x54, 0x53]
  | UPG => [0x00, 0x47, 0x50, 0x55]
  | UPGI => [0x49, 0x47, 0x50, 0x55]
  | PING => [0x47, 0x4E, 0x49, 0x50]
  | SINF => [0x46, 0x4E, 0x49, 0x53]

/-- The first command with this magic, else `UNK`. -/
def fromMagic (magic : Bytes) : Command :=
  (all.find? fun command => command.value == magic).getD UNK

/-- The magics a resynchronizing parser accepts. -/
def known : List Bytes :=
  (all.filter fun command => command != UNK).map value

@[simp] theorem length_value (command : Command) : command.value.length = 4 := by
  cases command <;> rfl

@[simp] theorem fromMagic_value (command : Command) : fromMagic command.value = command := by
  cases command <;> decide

theorem mem_all (command : Command) : command ∈ all := by
  cases command <;> decide

theorem value_mem_known {command : Command} (h : command ≠ UNK) : command.value ∈ known := by
  simp only [known, List.mem_map, List.mem_filter, bne_iff_ne]
  exact ⟨command, ⟨mem_all command, h⟩, rfl⟩

/-- A magic is unknown exactly when no resynchronization would accept it. -/
theorem fromMagic_eq_UNK_iff (magic : Bytes) : fromMagic magic = UNK ↔ magic ∉ known := by
  constructor
  · rintro h hmem
    obtain ⟨command, hc, rfl⟩ := List.mem_map.mp hmem
    rw [fromMagic_value] at h
    simp [h] at hc
  · intro h
    by_contra hne
    cases hfind : all.find? (fun command => command.value == magic) with
    | none => simp [fromMagic, hfind] at hne
    | some command =>
        have hval : command.value = magic := by simpa using List.find?_some hfind
        have hcmd : fromMagic magic = command := by simp [fromMagic, hfind]
        exact h (hval ▸ value_mem_known (hcmd ▸ hne))

end Command

/-- One message; `rawCommand` keeps the magic of an unknown command. -/
structure Frame where
  sequence : Nat
  command : Command
  flags : Nat
  payload : Bytes
  rawCommand : Option Bytes := none
  deriving DecidableEq, Repr

namespace Frame

def totalLength (frame : Frame) : Nat :=
  HEADER_SIZE + frame.payload.length

/-- The magic `toBytes` writes. -/
def magic (frame : Frame) : Option Bytes :=
  if frame.command ≠ .UNK then some frame.command.value else frame.rawCommand

/-- `struct.Struct(">II4sI").pack`, which refuses a length word above 32 bits. -/
def packHeader (total sequence : Nat) (magic : Bytes) (flags : Nat) : Except EncodeError Bytes :=
  if total < 2 ^ 32 then
    .ok (BigEndian.toBytes 4 total ++ BigEndian.toBytes 4 sequence ++ magic ++
      BigEndian.toBytes 4 flags)
  else .error .structError

def toBytes (frame : Frame) : Except EncodeError Bytes :=
  match frame.magic with
  | none => .error (.protocolError "unknown commands require a four-byte raw_command")
  | some magic =>
      if magic.length ≠ 4 then
        .error (.protocolError "unknown commands require a four-byte raw_command")
      else do
        let header ← packHeader frame.totalLength (frame.sequence % 2 ^ 32) magic
          (frame.flags % 2 ^ 32)
        return header ++ frame.payload

/-- The concatenated encodings of a list of frames; the first failure wins. -/
def encodeAll : List Frame → Except EncodeError Bytes
  | [] => .ok []
  | frame :: rest => do
      let head ← frame.toBytes
      let tail ← encodeAll rest
      return head ++ tail

end Frame

end HccastWired.Protocol
