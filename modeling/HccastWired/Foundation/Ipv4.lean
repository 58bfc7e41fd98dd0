import HccastWired.Foundation.BigEndian

/-!
# IPv4 addresses

Addresses as words, their dotted decimal notation, and the networks of interfaces: the
part of Python's `ipaddress` module that reads addresses and interfaces from texts.
-/

namespace HccastWired.Foundation

open BigEndian

abbrev Ipv4 := BitVec 32

namespace Ipv4

/-- The decimal notation of a byte: no sign, no leading zero, at most 255. -/
def parseOctet (digits : List Char) : Option UInt8 :=
  if digits ≠ [] ∧ (digits.all Char.isDigit) = true ∧ digits.length ≤ 3 ∧
      (digits = ['0'] ∨ digits.head? ≠ some '0') ∧ Nat.ofDigitChars 10 digits 0 ≤ 255 then
    some (UInt8.ofNat (Nat.ofDigitChars 10 digits 0))
  else none

/-- `IPv4Address(text)`. -/
def parse (text : List Char) : Option Ipv4 :=
  let octets := text.splitOn '.'
  if octets.length ≠ 4 then none
  else (octets.mapM parseOctet).map fun bytes => BitVec.ofNat 32 (ofBytes bytes)

/-- `str(ip)`. -/
def format (ip : Ipv4) : List Char :=
  ['.'].intercalate ((toBytes 4 ip.toNat).map fun b => Nat.toDigits 10 b.toNat)

/-- The netmask of a prefix. -/
def netmask (length : Nat) : Ipv4 :=
  BitVec.allOnes 32 ^^^ (BitVec.allOnes 32 >>> length)

/-- `_count_righthand_zero_bits`. -/
def trailingZeros (n : Ipv4) : Nat :=
  if n = 0 then 32
  else
    let below := (~~~n &&& (n - 1)).toNat
    min 32 (if below = 0 then 0 else Nat.log2 below + 1)

/-- `_prefix_from_ip_int`: the prefix that a netmask stands for. -/
def maskLength (n : Ipv4) : Option (Fin 33) :=
  let zeros := trailingZeros n
  if (n >>> zeros).toNat = 2 ^ (32 - zeros) - 1 then some (Fin.ofNat 33 (32 - zeros)) else none

/-- `int(digits)` stops at this many digits. -/
def maxDigits : Nat := 4300

/-- `_prefix_from_prefix_string`. -/
def parseDecimalLength (text : List Char) : Option (Fin 33) :=
  if text ≠ [] ∧ (text.all Char.isDigit) = true ∧ text.length ≤ maxDigits ∧
      Nat.ofDigitChars 10 text 0 ≤ 32 then
    some (Fin.ofNat 33 (Nat.ofDigitChars 10 text 0))
  else none

/-- `_prefix_from_ip_string`: a netmask or a hostmask. -/
def parseMask (text : List Char) : Option (Fin 33) :=
  (parse text).bind fun n => (maskLength n).or (maskLength (n ^^^ BitVec.allOnes 32))

def parseLength (text : List Char) : Option (Fin 33) :=
  (parseDecimalLength text).or (parseMask text)

/-- An address and the length of the network part. -/
structure Interface where
  ip : Ipv4
  length : Fin 33
  deriving DecidableEq

/-- `IPv4Interface(text)`. -/
def parseInterface (text : List Char) : Option Interface :=
  match text.splitOn '/' with
  | [address] => (parse address).map fun ip => ⟨ip, 32⟩
  | [address, mask] => (parse address).bind fun ip => (parseLength mask).map fun length => ⟨ip, length⟩
  | _ => none

namespace Interface

variable (i : Interface)

def mask : Ipv4 := netmask i.length

def networkAddress : Ipv4 := i.ip &&& i.mask

def broadcastAddress : Ipv4 := i.networkAddress ||| (i.mask ^^^ BitVec.allOnes 32)

/-- `ip in network`. -/
def contains (ip : Ipv4) : Bool := ip &&& i.mask = i.networkAddress

/-- The number of addresses of the network. -/
def size : Nat := 2 ^ (32 - i.length.val)

/-- The part of an address that tells its network. -/
def network (ip : Ipv4) : Nat := ip.toNat / i.size

/-- The place of an address in its network. -/
def host (ip : Ipv4) : Nat := ip.toNat % i.size

/-- An address of the same network, not its own and not its broadcast address. -/
def HasHost (ip : Ipv4) : Prop :=
  i.network ip = i.network i.ip ∧ i.host ip ≠ 0 ∧ i.host ip ≠ i.size - 1

end Interface

/-- `IPv4Address.is_multicast`, with the network of `_IPv4Constants`. -/
def multicastNetwork : Interface := ⟨224#32 <<< 24, 4⟩

def loopbackNetwork : Interface := ⟨127#32 <<< 24, 8⟩

def linkLocalNetwork : Interface := ⟨(169#32 <<< 24) ||| (254#32 <<< 16), 16⟩

def isMulticast (ip : Ipv4) : Bool := multicastNetwork.contains ip

def isUnspecified (ip : Ipv4) : Bool := ip = 0

def isLoopback (ip : Ipv4) : Bool := loopbackNetwork.contains ip

def isLinkLocal (ip : Ipv4) : Bool := linkLocalNetwork.contains ip

/-- The first byte. -/
def first (ip : Ipv4) : Nat := ip.toNat / 2 ^ 24

/-- An address of one host: of no group and not of all hosts. -/
def Unicast (ip : Ipv4) : Prop :=
  (ip.first < 224 ∨ 240 ≤ ip.first) ∧ ip ≠ BitVec.allOnes 32

/-- An address of 169.254.0.0/16. -/
def LinkLocal (ip : Ipv4) : Prop := ip.toNat / 2 ^ 16 = 169 * 256 + 254

section Notation

variable {digits text : List Char} {b : UInt8} {ip : Ipv4}

theorem digitChar_of_isDigit {c : Char} (h : c.isDigit = true) : Nat.digitChar (c.toNat - 48) = c := by
  simp only [Char.isDigit, Bool.and_eq_true, decide_eq_true_eq] at h
  have hlow : 48 ≤ c.toNat := h.1
  have hhigh : c.toNat ≤ 57 := h.2
  apply Char.toNat_inj.mp
  rw [Nat.toNat_digitChar_of_lt_ten (by omega)]
  omega

theorem ofDigitChars_concat (digits : List Char) (c : Char) :
    Nat.ofDigitChars 10 (digits ++ [c]) 0 = 10 * Nat.ofDigitChars 10 digits 0 + (c.toNat - 48) := by
  rw [Nat.ofDigitChars_append, Nat.ofDigitChars_cons, Nat.ofDigitChars_nil]
  rfl

/-- Digits without a leading zero are the decimal notation of their number. -/
theorem toDigits_ofDigitChars (hne : digits ≠ []) (hdigits : ∀ c ∈ digits, c.isDigit = true)
    (hzero : digits = ['0'] ∨ digits.head? ≠ some '0') :
    Nat.toDigits 10 (Nat.ofDigitChars 10 digits 0) = digits := by
  induction digits using List.reverseRecOn with
  | nil => exact absurd rfl hne
  | append_singleton digits c ih =>
    have hc := hdigits c (by simp)
    have hvalue := digitChar_of_isDigit hc
    have hlt : c.toNat - 48 < 10 := by
      simp only [Char.isDigit, Bool.and_eq_true, decide_eq_true_eq] at hc
      have hhigh : c.toNat ≤ 57 := hc.2
      omega
    rw [ofDigitChars_concat]
    by_cases hnil : digits = []
    · subst hnil
      rw [Nat.ofDigitChars_nil, Nat.mul_zero, Nat.zero_add, Nat.toDigits_of_lt_base hlt, hvalue]
      rfl
    · have hhead : digits.head? ≠ some '0' := by
        obtain h | h := hzero
        · obtain ⟨d, digits, rfl⟩ := List.exists_cons_of_ne_nil hnil
          have hlength := congrArg List.length h
          rw [List.length_append, List.length_cons, List.length_singleton, List.length_singleton] at hlength
          omega
        · rwa [List.head?_append_of_ne_nil _ hnil] at h
      have hdecimal := ih hnil (fun d hd => hdigits d (List.mem_append_left _ hd)) (Or.inr hhead)
      have hpos : 0 < Nat.ofDigitChars 10 digits 0 := by
        apply Nat.pos_of_ne_zero
        intro hz
        rw [hz] at hdecimal
        rw [← hdecimal] at hhead
        exact hhead rfl
      rw [← Nat.toDigits_append_toDigits (by decide) hpos hlt, hdecimal, Nat.toDigits_of_lt_base hlt,
        hvalue]

/-- A byte is read from its decimal notation only. -/
theorem toDigits_parseOctet (h : parseOctet digits = some b) : Nat.toDigits 10 b.toNat = digits := by
  unfold parseOctet at h
  split at h
  · next hdigits =>
    obtain ⟨hne, hall, -, hzero, hle⟩ := hdigits
    have hmod : ∀ n, (UInt8.ofNat n).toNat = n % 256 := by simp
    rw [← Option.some.inj h, hmod, Nat.mod_eq_of_lt (by omega)]
    exact toDigits_ofDigitChars hne (List.all_eq_true.mp hall) hzero
  · exact nomatch h

theorem mapM_parseOctet {octets : List (List Char)} {bytes : List UInt8}
    (h : octets.mapM parseOctet = some bytes) :
    octets = bytes.map fun b => Nat.toDigits 10 b.toNat := by
  induction octets generalizing bytes with
  | nil =>
    rw [List.mapM_nil] at h
    rw [← Option.some.inj h]
    rfl
  | cons digits octets ih =>
    rw [List.mapM_cons] at h
    obtain ⟨b, hb, h⟩ := Option.bind_eq_some_iff.mp h
    obtain ⟨rest, hrest, h⟩ := Option.bind_eq_some_iff.mp h
    rw [← Option.some.inj h, List.map_cons, toDigits_parseOctet hb, ih hrest]

/-- An address has one notation. -/
theorem format_of_parse (h : parse text = some ip) : format ip = text := by
  unfold parse at h
  dsimp only at h
  split at h
  · exact nomatch h
  · next hlength =>
    obtain ⟨bytes, hbytes, rfl⟩ := Option.map_eq_some_iff.mp h
    have hoctets := mapM_parseOctet hbytes
    have hfour : bytes.length = 4 := by
      rw [hoctets, List.length_map] at hlength
      exact not_not.mp hlength
    have hword : (BitVec.ofNat 32 (ofBytes bytes)).toNat = ofBytes bytes := by
      rw [BitVec.toNat_ofNat]
      apply Nat.mod_eq_of_lt
      have hlt := ofBytes_lt bytes
      rw [hfour] at hlt
      exact hlt
    rw [format, hword, ← hfour, toBytes_ofBytes, ← hoctets]
    exact List.intercalate_splitOn '.'

end Notation

section Networks

variable {ip : Ipv4} (i : Interface)

theorem netmask_eq {length : Nat} (h : length ≤ 32) :
    netmask length = BitVec.allOnes 32 <<< (32 - length) := by
  ext k hk
  simp only [netmask, BitVec.getElem_xor, BitVec.getElem_allOnes, BitVec.getElem_ushiftRight,
    BitVec.getElem_shiftLeft, BitVec.getLsbD_allOnes]
  by_cases hlow : k < 32 - length
  · simp [hlow, show length + k < 32 by omega]
  · simp [hlow, show ¬ length + k < 32 by omega]

theorem hostmask_eq {length : Nat} : netmask length ^^^ BitVec.allOnes 32 = BitVec.allOnes 32 >>> length := by
  rw [netmask, BitVec.xor_comm, ← BitVec.xor_assoc, BitVec.xor_self, BitVec.zero_xor]

/-- The network part of an address. -/
theorem toNat_and_netmask {length : Nat} (h : length ≤ 32) :
    (ip &&& netmask length).toNat = ip.toNat / 2 ^ (32 - length) * 2 ^ (32 - length) := by
  have hshift : ip &&& netmask length = (ip >>> (32 - length)) <<< (32 - length) := by
    rw [netmask_eq h]
    ext k hk
    simp only [BitVec.getElem_and, BitVec.getElem_shiftLeft, BitVec.getElem_allOnes,
      BitVec.getElem_ushiftRight]
    by_cases hlow : k < 32 - length
    · simp [hlow]
    · simp [hlow, BitVec.getLsbD_eq_getElem hk, show 32 - length + (k - (32 - length)) = k by omega]
  have hle : ip.toNat / 2 ^ (32 - length) * 2 ^ (32 - length) ≤ ip.toNat := Nat.div_mul_le_self _ _
  rw [hshift, BitVec.toNat_shiftLeft, BitVec.toNat_ushiftRight, Nat.shiftRight_eq_div_pow,
    Nat.shiftLeft_eq, Nat.mod_eq_of_lt (hle.trans_lt ip.isLt)]

namespace Interface

theorem size_pos : 0 < i.size :=
  Nat.two_pow_pos _

theorem toNat_networkAddress : i.networkAddress.toNat = i.network i.ip * i.size :=
  toNat_and_netmask (Nat.le_of_lt_succ i.length.isLt)

theorem contains_iff : i.contains ip = true ↔ i.network ip = i.network i.ip := by
  have hmask : (ip &&& i.mask).toNat = i.network ip * i.size :=
    toNat_and_netmask (Nat.le_of_lt_succ i.length.isLt)
  rw [contains, decide_eq_true_iff, ← BitVec.toNat_inj, hmask, toNat_networkAddress]
  exact Nat.mul_left_inj i.size_pos.ne'

theorem toNat_broadcastAddress :
    i.broadcastAddress.toNat = i.network i.ip * i.size + (i.size - 1) := by
  have hlength : i.length.val ≤ 32 := Nat.le_of_lt_succ i.length.isLt
  have hhost : (BitVec.allOnes 32 >>> i.length.val).toNat = i.size - 1 := by
    rw [BitVec.toNat_ushiftRight, BitVec.toNat_allOnes, Nat.shiftRight_eq_div_pow, size]
    have hsplit : 2 ^ 32 = 2 ^ (32 - i.length.val) * 2 ^ i.length.val := by
      rw [← Nat.pow_add, Nat.sub_add_cancel hlength]
    rw [hsplit]
    have hpos : 0 < 2 ^ i.length.val := Nat.two_pow_pos _
    have hsize : 0 < 2 ^ (32 - i.length.val) := Nat.two_pow_pos _
    apply Nat.div_eq_of_lt_le
    · rw [Nat.sub_mul, Nat.one_mul]
      exact Nat.sub_le_sub_left hpos _
    · rw [Nat.sub_add_cancel hsize]
      exact Nat.sub_lt (Nat.mul_pos hsize hpos) one_pos
  have hlow : i.size - 1 < 2 ^ (32 - i.length.val) := Nat.sub_lt i.size_pos one_pos
  rw [broadcastAddress, mask, hostmask_eq, BitVec.toNat_or, hhost, toNat_networkAddress, Nat.mul_comm]
  exact (Nat.two_pow_add_eq_or_of_lt hlow _).symm

/-- The bit operations find the hosts of the network. -/
theorem hasHost_iff : (i.contains ip = true ∧ ip ≠ i.networkAddress ∧ ip ≠ i.broadcastAddress) ↔
    i.HasHost ip := by
  rw [contains_iff, HasHost, ne_eq, ne_eq, ← BitVec.toNat_inj, ← BitVec.toNat_inj,
    toNat_networkAddress, toNat_broadcastAddress]
  apply and_congr_right
  intro hnetwork
  have hip : ip.toNat = i.network i.ip * i.size + i.host ip := by
    rw [← hnetwork, network, host, Nat.mul_comm]
    exact (Nat.div_add_mod _ _).symm
  rw [hip]
  exact and_congr (not_congr (by omega)) (not_congr (by omega))

/-- The limited broadcast address is no host of a network. -/
theorem HasHost.ne_allOnes {i : Interface} (h : i.HasHost ip) : ip ≠ BitVec.allOnes 32 := by
  rintro rfl
  apply h.2.2
  have hsplit : 2 ^ 32 = 2 ^ i.length.val * i.size := by
    rw [size, ← Nat.pow_add, Nat.add_sub_cancel' (Nat.le_of_lt_succ i.length.isLt)]
  have hrest : 2 ^ 32 - 1 = (i.size - 1) + i.size * (2 ^ i.length.val - 1) := by
    have hle : i.size ≤ i.size * 2 ^ i.length.val := Nat.le_mul_of_pos_right _ (Nat.two_pow_pos _)
    have hpos := i.size_pos
    rw [hsplit, Nat.mul_comm, Nat.mul_sub_one]
    omega
  rw [host, BitVec.toNat_allOnes, hrest, Nat.add_mul_mod_self_left,
    Nat.mod_eq_of_lt (Nat.sub_lt i.size_pos one_pos)]

end Interface

theorem isMulticast_iff : isMulticast ip = true ↔ 224 ≤ ip.first ∧ ip.first < 240 := by
  have hnumber : multicastNetwork.network multicastNetwork.ip = 14 := by decide
  rw [isMulticast, Interface.contains_iff, hnumber, first]
  change ip.toNat / 2 ^ 28 = 14 ↔ _
  omega

theorem isLoopback_iff : isLoopback ip = true ↔ ip.first = 127 := by
  have hnumber : loopbackNetwork.network loopbackNetwork.ip = 127 := by decide
  rw [isLoopback, Interface.contains_iff, hnumber]
  rfl

theorem isLinkLocal_iff : isLinkLocal ip = true ↔ LinkLocal ip := by
  have hnumber : linkLocalNetwork.network linkLocalNetwork.ip = 169 * 256 + 254 := by decide
  rw [isLinkLocal, Interface.contains_iff, hnumber]
  rfl

end Networks

end Ipv4

end HccastWired.Foundation
