import Mathlib

/-!
# Discovered Wi-Fi Direct peers

Which peers the helper offers: the receiver family's name, a hardware address
and WFD subelements that announce an available primary or dual-role sink.
-/

namespace HccastWired.Network

structure Peer where
  path : String
  name : String
  address : String
  manufacturer : String
  wfd : List UInt8
  deriving DecidableEq, Repr

def isAlphanumeric (c : Char) : Bool :=
  ('A' ≤ c && c ≤ 'Z') || ('a' ≤ c && c ≤ 'z') || ('0' ≤ c && c ≤ '9')

def isHex (c : Char) : Bool :=
  ('0' ≤ c && c ≤ '9') || ('a' ≤ c && c ≤ 'f') || ('A' ≤ c && c ≤ 'F')

/-- `FAMILY.fullmatch`, for `EBPS[I1]-[A-Za-z0-9]{1,64}`. -/
def matchesFamily (name : String) : Bool :=
  match name.toList with
  | 'E' :: 'B' :: 'P' :: 'S' :: c :: '-' :: serial =>
      (c == 'I' || c == '1') && 1 ≤ serial.length && serial.length ≤ 64 &&
        serial.all isAlphanumeric
  | _ => false

/-- `(?::[0-9a-fA-F]{2}){count}`. -/
def hexPairs : Nat → List Char → Bool
  | 0, [] => true
  | count + 1, ':' :: a :: b :: rest => isHex a && isHex b && hexPairs count rest
  | _, _ => false

/-- `MAC.fullmatch`. -/
def matchesMac (address : String) : Bool :=
  match address.toList with
  | a :: b :: rest => isHex a && isHex b && hexPairs 5 rest
  | _ => false

def word16 (high low : UInt8) : Nat := high.toNat * 256 + low.toNat

/-- The device-information subelement: role, availability and control port. -/
def deviceInformation : List UInt8 → Bool
  | a :: b :: c :: d :: _ =>
      let flags := word16 a b
      let port := word16 c d
      (flags % 4 == 1 || flags % 4 == 3) && flags / 16 % 2 == 1 && port != 0
  | _ => false

/-- The `while` loop of `sink_available` over the unread bytes. -/
def sinkLoop : List UInt8 → Bool → Bool
  | [], available => available
  | kind :: high :: low :: rest, available =>
      let size := word16 high low
      if rest.length < size then false
      else if kind = 0 then
        if size ≠ 6 then false
        else sinkLoop (rest.drop size) (deviceInformation rest)
      else sinkLoop (rest.drop size) available
  | _, _ => false
  termination_by data => data.length
  decreasing_by all_goals simp; omega

def sinkAvailable (data : List UInt8) : Bool :=
  if 1024 < data.length then false else sinkLoop data false

def validPeer (peer : Peer) : Bool :=
  matchesFamily peer.name && matchesMac peer.address && sinkAvailable peer.wfd

end HccastWired.Network
