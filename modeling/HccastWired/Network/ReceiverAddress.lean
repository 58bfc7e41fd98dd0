import HccastWired.Foundation.Ipv4
import HccastWired.Foundation.PyText
import HccastWired.Network.Helper
import HccastWired.Protocol.DeviceInfo

/-!
# The receiver's address

`select_receiver_ip` takes the address of the receiver from the negotiated link: the
gateway, or else the one DHCP lease of the one associated station that has not run out.
Whatever these texts hold, an address that it returns is a host of a local network.
-/

namespace HccastWired.Network

open Foundation Ipv4 PyText

section Texts

/-- The characters that end a line, `'\r\n'` apart. -/
def isLineBreak (c : Char) : Bool :=
  c ∈ ['\n', '\r', '\x0b', '\x0c', '\x1c', '\x1d', '\x1e', '\x85', '\u2028', '\u2029']

/-- The lines of a text after the characters of an unfinished line, the last one first. -/
def linesFrom : List Char → List Char → List (List Char)
  | [], line => if line = [] then [] else [line.reverse]
  | '\r' :: '\n' :: rest, line => line.reverse :: linesFrom rest []
  | c :: rest, line =>
      if isLineBreak c then line.reverse :: linesFrom rest [] else linesFrom rest (c :: line)

/-- `text.splitlines()`. -/
def splitlines (text : List Char) : List (List Char) := linesFrom text []

/-- `line.split()`. -/
def fields (line : List Char) : List (List Char) :=
  (line.splitOnP Protocol.isSpace).filter (· ≠ [])

/-- Digits in groups between underscores. -/
def naturalNumber (text : List Char) : Option Nat :=
  let groups := text.splitOn '_'
  if (groups.all fun group => group ≠ [] ∧ group.all fun c => (decimal c).isSome) = true ∧
      groups.flatten.length ≤ maxDigits then
    some ((groups.flatten.filterMap decimal).foldl (fun n digit => 10 * n + digit) 0)
  else none

/-- `int(text)` of a text without spaces, if there is no `ValueError`. -/
def integer : List Char → Option Int
  | '-' :: text => (naturalNumber text).map fun n => -(n : Int)
  | '+' :: text => (naturalNumber text).map Int.ofNat
  | text => (naturalNumber text).map Int.ofNat

/-- `field.lower() == station.lower()`, for a station of hexadecimal digits and colons: these
are the lower case of ASCII characters only. -/
def sameMac (field : List Char) (station : String) : Bool :=
  field.map Char.toLower = station.toList.map Char.toLower

end Texts

/-- An entry of `AddressData`, its values as texts; an absent key is `none`. -/
structure AddressData where
  address : Option String
  prefixLength : Option String
  deriving DecidableEq, Repr

/-- `IPv4Interface(f'{a["address"]}/{a["prefix"]}')`. -/
def AddressData.interface (a : AddressData) : Option Interface :=
  a.address.bind fun address => a.prefixLength.bind fun length =>
    parseInterface (address.toList ++ '/' :: length.toList)

def addressUnavailable (message : String) : HelperError :=
  ⟨"AddressUnavailable", message⟩

/-- The address of a lease line of the station that has not run out. -/
def currentLease (station : String) (now : Time) (line : List Char) : Option (List Char) :=
  match fields line with
  | expiry :: mac :: address :: _ =>
      if sameMac mac station then
        match integer expiry with
        | some expires => if now < expires then some address else none
        | none => none
      else none
  | _ => none

/-- The candidate of a group that this side owns. -/
def leaseAddress (stations : List String) (leaseText : String) (now : Time) :
    Except HelperError (List Char) :=
  match stations with
  | [station] =>
      if matchesMac station then
        match (splitlines leaseText.toList).filterMap (currentLease station now) with
        | [address] => .ok address
        | _ => .error (addressUnavailable "Expected one current receiver DHCP lease")
      else .error (addressUnavailable "Expected exactly one associated receiver")
  | _ => .error (addressUnavailable "Expected exactly one associated receiver")

/-- `ip in local.network` and neither of its two reserved addresses. -/
def isHost (ip : Ipv4) (i : Interface) : Bool :=
  i.contains ip && ip ∉ [i.networkAddress, i.broadcastAddress]

/-- The checks of a candidate. -/
def usableAddress (candidate : List Char) (addresses : List AddressData) : Except HelperError String :=
  match parse candidate, addresses.mapM AddressData.interface with
  | some ip, some locals =>
      if isMulticast ip || isUnspecified ip || isLoopback ip || isLinkLocal ip then
        .error (addressUnavailable "Receiver address is not a usable link address")
      else if locals.any fun i => ip = i.ip then
        .error (addressUnavailable "Receiver address equals the local address")
      else if !locals.any (isHost ip) then
        .error (addressUnavailable "Receiver address is outside the selected link")
      else .ok (String.ofList (format ip))
  | _, _ => .error (addressUnavailable "Invalid negotiated IPv4 address")

/-- The gateway if there is one: an empty text is none. -/
def candidateAddress (gateway : String) (stations : List String) (leaseText : String) (now : Time) :
    Except HelperError (List Char) :=
  if gateway = "" then leaseAddress stations leaseText now else .ok gateway.toList

/-- `select_receiver_ip`. -/
def selectReceiverIp (gateway : String) (addresses : List AddressData) (stations : List String)
    (leaseText : String) (now : Time) : Except HelperError String := do
  let candidate ← candidateAddress gateway stations leaseText now
  usableAddress candidate addresses

/-- The line is a lease of the station for the address that has not run out. -/
def IsLease (station : String) (now : Time) (line address : List Char) : Prop :=
  ∃ expiry mac rest expires, fields line = expiry :: mac :: address :: rest ∧
    sameMac mac station = true ∧ integer expiry = some expires ∧ now < (expires : Rat)

/-- The only line that is a lease of the station, for the address. -/
def OnlyLease (station : String) (now : Time) (lines : List (List Char)) (address : List Char) : Prop :=
  ∃ before line after, lines = before ++ line :: after ∧ IsLease station now line address ∧
    ∀ other ∈ before ++ after, ∀ address, ¬ IsLease station now other address

/-- A host of a local network that is none of the local addresses. -/
def OnLink (addresses : List AddressData) (ip : Ipv4) : Prop :=
  (∀ a ∈ addresses, ∃ i, a.interface = some i ∧ ip ≠ i.ip) ∧
    ∃ a ∈ addresses, ∃ i, a.interface = some i ∧ i.HasHost ip

section Selection

variable {station gateway leaseText result : String} {stations : List String} {now : Time}
  {line address candidate : List Char} {lines : List (List Char)} {addresses : List AddressData}

theorem currentLease_eq_some : currentLease station now line = some address ↔
    IsLease station now line address := by
  constructor
  · intro h
    unfold currentLease at h
    split at h
    · next expiry mac field rest hfields =>
      split at h
      · next hmac =>
        split at h
        · next expires hexpires =>
          split at h
          · next hnow =>
            rw [← Option.some.inj h]
            exact ⟨expiry, mac, rest, expires, hfields, hmac, hexpires, hnow⟩
          · exact nomatch h
        · exact nomatch h
      · exact nomatch h
    · exact nomatch h
  · rintro ⟨expiry, mac, rest, expires, hfields, hmac, hexpires, hnow⟩
    simp only [currentLease, hfields, hmac, hexpires, hnow, if_true]

theorem currentLease_eq_none (h : currentLease station now line = none) (address : List Char) :
    ¬ IsLease station now line address := by
  intro hlease
  rw [currentLease_eq_some.mpr hlease] at h
  exact nomatch h

/-- One lease among the lines. -/
theorem onlyLease_of_filterMap (h : lines.filterMap (currentLease station now) = [address]) :
    OnlyLease station now lines address := by
  induction lines with
  | nil => exact nomatch h
  | cons line lines ih =>
    cases hline : currentLease station now line with
    | none =>
      rw [List.filterMap_cons_none hline] at h
      obtain ⟨before, found, after, rfl, hfound, hothers⟩ := ih h
      refine ⟨line :: before, found, after, rfl, hfound, ?_⟩
      intro other hother
      obtain rfl | hother := List.mem_cons.mp hother
      · exact currentLease_eq_none hline
      · exact hothers other hother
    | some first =>
      rw [List.filterMap_cons_some hline] at h
      obtain ⟨rfl, hrest⟩ := List.cons.inj h
      refine ⟨[], line, lines, rfl, currentLease_eq_some.mp hline, ?_⟩
      intro other hother
      exact currentLease_eq_none (List.filterMap_eq_nil_iff.mp hrest other hother)

theorem leaseAddress_ok (h : leaseAddress stations leaseText now = .ok address) :
    ∃ station, stations = [station] ∧ matchesMac station = true ∧
      OnlyLease station now (splitlines leaseText.toList) address := by
  unfold leaseAddress at h
  split at h
  · next station =>
    split at h
    · next hmac =>
      split at h
      · next found hfound =>
        rw [← Except.ok.inj h]
        exact ⟨station, rfl, hmac, onlyLease_of_filterMap hfound⟩
      · exact nomatch h
    · exact nomatch h
  · exact nomatch h

/-- The entries and their interfaces. -/
theorem mapM_interface {locals : List Interface}
    (h : addresses.mapM AddressData.interface = some locals) :
    (∀ a ∈ addresses, ∃ i ∈ locals, a.interface = some i) ∧
      ∀ i ∈ locals, ∃ a ∈ addresses, a.interface = some i := by
  induction addresses generalizing locals with
  | nil =>
    rw [List.mapM_nil] at h
    rw [← Option.some.inj h]
    constructor <;> exact fun _ hmem => absurd hmem List.not_mem_nil
  | cons a addresses ih =>
    rw [List.mapM_cons] at h
    obtain ⟨i, hi, h⟩ := Option.bind_eq_some_iff.mp h
    obtain ⟨rest, hrest, h⟩ := Option.bind_eq_some_iff.mp h
    rw [← Option.some.inj h]
    obtain ⟨hleft, hright⟩ := ih hrest
    constructor
    · intro b hb
      obtain rfl | hb := List.mem_cons.mp hb
      · exact ⟨i, List.mem_cons_self, hi⟩
      · obtain ⟨j, hj, hinterface⟩ := hleft b hb
        exact ⟨j, List.mem_cons_of_mem _ hj, hinterface⟩
    · intro j hj
      obtain rfl | hj := List.mem_cons.mp hj
      · exact ⟨a, List.mem_cons_self, hi⟩
      · obtain ⟨b, hb, hinterface⟩ := hright j hj
        exact ⟨b, List.mem_cons_of_mem _ hb, hinterface⟩

theorem isHost_iff {ip : Ipv4} {i : Interface} : isHost ip i = true ↔ i.HasHost ip := by
  rw [← Interface.hasHost_iff, isHost, Bool.and_eq_true, decide_eq_true_iff]
  simp only [List.mem_cons, List.not_mem_nil, or_false, not_or]

theorem onLink_of_locals {ip : Ipv4} {locals : List Interface}
    (h : addresses.mapM AddressData.interface = some locals)
    (hlocal : ∀ i ∈ locals, ip ≠ i.ip) (hhost : ∃ i ∈ locals, i.HasHost ip) :
    OnLink addresses ip := by
  obtain ⟨hleft, hright⟩ := mapM_interface h
  constructor
  · intro a ha
    obtain ⟨i, hi, hinterface⟩ := hleft a ha
    exact ⟨i, hinterface, hlocal i hi⟩
  · obtain ⟨i, hi, hhost⟩ := hhost
    obtain ⟨a, ha, hinterface⟩ := hright i hi
    exact ⟨a, ha, i, hinterface, hhost⟩

/-- What the checks leave of a candidate. -/
theorem usableAddress_ok (h : usableAddress candidate addresses = .ok result) :
    result = String.ofList candidate ∧ ∃ ip, parse candidate = some ip ∧ ip.Unicast ∧ ip ≠ 0 ∧
      ip.first ≠ 127 ∧ ¬ ip.LinkLocal ∧ OnLink addresses ip := by
  unfold usableAddress at h
  split at h
  · next ip locals hparse hlocals =>
    split at h
    · exact nomatch h
    · next hclass =>
      split at h
      · exact nomatch h
      · next hlocal =>
        split at h
        · exact nomatch h
        · next hhost =>
          simp only [Bool.or_eq_true, not_or, isMulticast_iff, isLoopback_iff, isLinkLocal_iff,
            isUnspecified, decide_eq_true_iff] at hclass
          obtain ⟨⟨⟨hmulticast, hzero⟩, hloopback⟩, hlink⟩ := hclass
          have hsome : ∃ i ∈ locals, i.HasHost ip := by
            simpa only [Bool.not_eq_true', Bool.not_eq_false, List.any_eq_true, isHost_iff] using hhost
          have hnone : ∀ i ∈ locals, ip ≠ i.ip := by
            intro i hi heq
            apply hlocal
            exact List.any_eq_true.mpr ⟨i, hi, decide_eq_true heq⟩
          have hunicast : ip.Unicast := by
            obtain ⟨i, -, hhost⟩ := hsome
            exact ⟨by omega, hhost.ne_allOnes⟩
          rw [← Except.ok.inj h, format_of_parse hparse]
          exact ⟨rfl, ip, hparse, hunicast, hzero, hloopback, hlink,
            onLink_of_locals hlocals hnone hsome⟩
  · exact nomatch h

/-- Every address that is returned is one host of the link: the gateway, or the only current
lease of the only station. -/
theorem select_receiver_ip_safe
    (h : selectReceiverIp gateway addresses stations leaseText now = .ok result) :
    (∃ ip, parse result.toList = some ip ∧ ip.Unicast ∧ ip ≠ 0 ∧ ip.first ≠ 127 ∧
      ¬ ip.LinkLocal ∧ OnLink addresses ip) ∧
    (gateway ≠ "" → result = gateway) ∧
    (gateway = "" → ∃ station, stations = [station] ∧ matchesMac station = true ∧
      OnlyLease station now (splitlines leaseText.toList) result.toList) := by
  unfold selectReceiverIp at h
  cases hcandidate : candidateAddress gateway stations leaseText now with
  | error e =>
    rw [hcandidate] at h
    exact nomatch h
  | ok candidate =>
  rw [hcandidate] at h
  unfold candidateAddress at hcandidate
  obtain ⟨rfl, hip⟩ := usableAddress_ok h
  rw [String.toList_ofList]
  refine ⟨hip, ?_, ?_⟩
  · intro hgateway
    rw [if_neg hgateway] at hcandidate
    rw [← Except.ok.inj hcandidate, String.ofList_toList]
  · intro hgateway
    rw [if_pos hgateway] at hcandidate
    exact leaseAddress_ok hcandidate

end Selection

/-- A link of this side with one lease, one that has run out and one of another station. -/
def sampleLeases : String :=
  "1700000100 02:00:00:00:00:0a 10.42.0.17 sink *\r\n" ++
    "1600000000 02:00:00:00:00:0A 10.42.0.9 sink *\n1700000100 02:00:00:00:00:0b 10.42.0.30 * *\n"

def sampleAddresses : List AddressData := [⟨some "10.42.0.1", some "24"⟩]

/-- A receiver with a lease, and one that is the gateway of its group. -/
theorem select_receiver_ip_sample :
    (∃ ip, parse "10.42.0.17".toList = some ip ∧ OnLink sampleAddresses ip) ∧
      (∃ station, ["02:00:00:00:00:0A"] = [station] ∧
        OnlyLease station 1700000000 (splitlines sampleLeases.toList) "10.42.0.17".toList) ∧
      ∃ ip, parse "192.168.49.1".toList = some ip ∧ ip.Unicast := by
  have hlease := select_receiver_ip_safe (show selectReceiverIp "" sampleAddresses
    ["02:00:00:00:00:0A"] sampleLeases 1700000000 = .ok "10.42.0.17" by decide +kernel)
  have hgateway := select_receiver_ip_safe (show selectReceiverIp "192.168.49.1"
    [⟨some "192.168.49.7", some "255.255.255.0"⟩] [] "" 0 = .ok "192.168.49.1" by decide +kernel)
  obtain ⟨⟨ip, hparse, -, -, -, -, hlink⟩, -, hstation⟩ := hlease
  obtain ⟨station, hstations, -, honly⟩ := hstation rfl
  obtain ⟨⟨other, hother, hunicast, -⟩, -⟩ := hgateway
  exact ⟨⟨ip, hparse, hlink⟩, ⟨station, hstations, honly⟩, other, hother, hunicast⟩

end HccastWired.Network
