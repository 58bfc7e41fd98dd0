import HccastWired.Foundation.Binary64
import HccastWired.Foundation.BytePattern
import HccastWired.Advanced.Helper

/-!
# The health observer of the advanced helper

The observer reads the sensors, the kernel log and the boot id within six seconds.
What the machine answers may depend on the moment, that is on how often the clock has
been read; a reader of the log gets one record after the other.
-/

namespace HccastWired.Advanced.LinuxAdvancedObserver

open Foundation

section Patterns

/-- A text between word boundaries. -/
def words (text : String) : List Atom :=
  [.boundary, .oneOf [ascii text], .boundary]

def kernelFault : BytePattern :=
  [words "I/O error", words "Buffer I/O", words "EXT4-fs error",
    [.boundary, .oneOf [ascii "FAT-fs"], .anything, .oneOf [ascii "error"], .boundary],
    [.boundary, .oneOf [ascii "BTRFS"], .anything, .oneOf [ascii "error", ascii "corrupt"],
      .boundary],
    words "SQUASHFS error", words "memory corruption", words "SError", words "Hardware Error",
    words "Kernel panic", [.boundary, .oneOf [ascii "Oops:"]], [.boundary, .oneOf [ascii "BUG:"]],
    [.boundary, .oneOf [ascii "soft", ascii "hard"], .oneOf [ascii " lockup"], .boundary],
    [.boundary, .oneOf [ascii "mmc", ascii "nvme"], .anything, .boundary,
      .oneOf [ascii "error", ascii "timeout"], .boundary]]

def kernelCoverageLost : BytePattern :=
  [[.boundary, .oneOf [ascii "messages", ascii "callbacks"], .oneOf [ascii " suppressed"],
      .boundary],
    [.boundary, .oneOf [ascii "messages "], .oneOf [ascii "lost", ascii "dropped"], .boundary],
    [.boundary, .oneOf [ascii "lost", ascii "dropped"], .oneOf [ascii " "], .digits,
      .oneOf [ascii " "], .oneOf [ascii "kernel ", []], .oneOf [ascii "messages"], .boundary]]

end Patterns

/-- An exception of one of the classes that the observer turns into its own error. -/
inductive Fault
  | os
  | blocking
  | value
  | subprocess
  | helper (code message : String)
deriving DecidableEq

inductive Raised
  | fault (f : Fault)
  | index
deriving DecidableEq

/-- A reading of `time.monotonic`, in seconds: nanoseconds that fit in 64 bits. -/
def Instant : Type := { x : Rat // |x| ≤ 2 ^ 63 }

structure LogDevice where
  isCharacterDevice : Bool
  uid : Nat

structure Machine where
  clock : Nat → Instant
  euid : Nat
  read : Nat → String → Except Fault Bytes
  command : Nat → List String → Rat → Except Fault Bytes
  openLog : Nat → Except Fault LogDevice
  log : Nat → Except Fault Bytes
  closeLog : Nat → Except Fault Unit

/-- The state counts the readings of the clock. -/
abbrev Observation (α : Type) := Call Nat Raised α

variable {α : Type}

def answer (a : Except Fault α) : Observation α :=
  Call.ofExcept (a.mapError .fault)

def unavailable (code : String) : Observation α :=
  throw (.fault (.helper code
    "Trusted Linux observation is missing, ambiguous or outside its bounds"))

def observationUnavailable : Observation α :=
  unavailable "ObservationUnavailable"

/-- `if condition: _unavailable()`. -/
def refuse (condition : Prop) [Decidable condition] : Observation Unit :=
  if condition then observationUnavailable else pure ()

/-- A match that has to be there. -/
def expect (value : Option α) : Observation α :=
  match value with
  | some a => pure a
  | none => observationUnavailable

variable (m : Machine)

def clock : Observation Rat := do
  let n ← Call.get
  Call.update (· + 1)
  pure (m.clock n).val

section Budget

/-- `Budget.check` of a budget that nobody cancels. -/
def check (deadline : Rat) : Observation Unit := do
  let now ← clock m
  if deadline ≤ now then throw (.fault (.helper "TimedOut" "Operation deadline reached"))
  else pure ()

/-- `int` of a number that is not an integer. -/
def truncate (q : Rat) : Int :=
  if 0 ≤ q then q.floor else q.ceil

def timeoutMs (deadline : Rat) (maximum : Int) : Observation Int := do
  check m deadline
  let now ← clock m
  pure (max 1 (min maximum (truncate (roundBinary64 (roundBinary64 (deadline - now) * 1000)))))

end Budget

section Log

def logRecordLimit : Nat :=
  16384

def logByteLimit : Nat :=
  4 * 1024 * 1024

/-- The loop of `kernel_records`, with the records so far. -/
def readRecords (deadline : Rat) : Nat → List Bytes → Nat → Observation (List Bytes)
  | 0, _, _ => unavailable "HealthUnavailable"
  | more + 1, records, total => do
      check m deadline
      match m.log records.length with
      | .error .blocking => pure records
      | .error e => throw (.fault e)
      | .ok record =>
          if record = [] then unavailable "HealthUnavailable"
          else if logByteLimit < total + record.length then unavailable "HealthUnavailable"
          else readRecords deadline more (records ++ [record]) (total + record.length)

/-- The body of `kernel_records`, once the log is open. -/
def readLog (deadline : Rat) (device : LogDevice) : Observation (List Bytes) :=
  if !device.isCharacterDevice || device.uid ≠ 0 then unavailable "HealthUnavailable"
  else readRecords m deadline logRecordLimit [] 0

/-- `LinuxReadOnlyIO.kernel_records`. -/
def kernelRecords (deadline : Rat) : Observation (List Bytes) := do
  refuse (m.euid ≠ 0)
  let opened ← Call.get
  let device ← answer (m.openLog opened)
  let outcome ← tryCatch (do
    let records ← readLog m deadline device
    pure (Except.ok records)) fun e => pure (Except.error e)
  let closed ← Call.get
  answer (m.closeLog closed)
  Call.ofExcept outcome

end Log

section Readings

/-- `_text`. -/
def text (raw : Bytes) : Observation (List Char) :=
  if 0 ∈ raw then observationUnavailable
  else match Json.asciiText raw with
    | some chars => pure (strip chars)
    | none => throw (.fault .value)

/-- `_read`. -/
def read (path : String) (deadline : Rat) (limit : Nat) : Observation Bytes := do
  check m deadline
  let moment ← Call.get
  let value ← answer (m.read moment path)
  check m deadline
  if limit < value.length then observationUnavailable else pure value

/-- `_command`. -/
def command (argv : List String) (deadline : Rat) : Observation Bytes := do
  check m deadline
  let timeout ← timeoutMs m deadline 2000
  let moment ← Call.get
  let value ← answer (m.command moment argv (roundBinary64 (timeout / 1000)))
  check m deadline
  if 65536 < value.length then observationUnavailable else pure value

def bootIdPath : String :=
  "/proc/sys/kernel/random/boot_id"

def isLowerHex (c : Char) : Bool :=
  c.isDigit || ('a' ≤ c && c ≤ 'f')

/-- `[0-9a-f]{8}(?:-[0-9a-f]{4}){3}-[0-9a-f]{12}`. -/
def isBootId (value : List Char) : Bool :=
  let groups := value.splitOn '-'
  groups.map List.length = [8, 4, 4, 4, 12] && groups.all fun group => group.all isLowerHex

/-- `_boot_id`. -/
def bootId (deadline : Rat) : Observation (List Char) := do
  let raw ← read m bootIdPath deadline 64
  let value ← text raw
  if isBootId value then pure value else observationUnavailable

/-- `-?[0-9]{1,6}`, and its value. -/
def thermalReading (value : List Char) : Option Int :=
  let digits := if value.head? = some '-' then value.tail else value
  if 1 ≤ digits.length ∧ digits.length ≤ 6 ∧ digits.all Char.isDigit then
    let n : Int := Nat.ofDigitChars 10 digits 0
    some (if value.head? = some '-' then -n else n)
  else none

def hexDigit (c : Char) : Option Nat :=
  if c.isDigit then some (c.toNat - 48)
  else if 'a' ≤ c ∧ c ≤ 'f' then some (c.toNat - 87)
  else if 'A' ≤ c ∧ c ≤ 'F' then some (c.toNat - 55)
  else none

/-- `throttled=0x([0-9a-fA-F]{1,8})`, and the value of its group. -/
def throttledBits (value : List Char) : Option Nat :=
  let label := "throttled=0x".toList
  if label.isPrefixOf value then do
    let digits ← (value.drop label.length).mapM hexDigit
    if 1 ≤ digits.length ∧ digits.length ≤ 8 then
      some (digits.foldl (fun n d => 16 * n + d) 0)
    else none
  else none

end Readings

section Records

/-- What the loop of `health` carries from record to record. -/
structure Tally where
  faults : Bool
  marker : Bool
  previousTime : Int
  total : Nat

def Tally.start : Tally :=
  ⟨false, false, -1, 0⟩

/-- `fields[i]`. -/
def item (fields : List Bytes) (i : Nat) : Observation Bytes :=
  match fields[i]? with
  | some field => pure field
  | none => throw .index

def isDecimal (field : Bytes) : Bool :=
  !field.isEmpty && field.all BytePattern.isDigit

def decimal (field : Bytes) : Nat :=
  field.foldl (fun n b => 10 * n + (b.toNat - 48)) 0

/-- `int` of decimal digits. -/
def int (field : Bytes) : Observation Nat :=
  if Number.maxDigits < field.length then throw (.fault .value) else pure (decimal field)

/-- `len(fields) < 4 or fields[3] != b"-" or not all(...)`. -/
def malformed (fields : List Bytes) : Observation Bool :=
  if fields.length < 4 then pure true
  else do
    let mark ← item fields 3
    pure (mark ≠ ascii "-" || !(fields.take 3).all isDecimal)

def marks (expected timestamp : Nat) (message : Bytes) : Bool :=
  expected < 32 && decide (ascii "Linux version " <:+: message) && timestamp ≤ 2000000

/-- `record.split(b";", 1)` with its two values. -/
def cut (record : Bytes) : Observation (Bytes × Bytes) :=
  if 59 ∈ record then
    pure (record.takeWhile (· ≠ 59), (record.dropWhile (· ≠ 59)).tail)
  else throw (.fault .value)

/-- The tally after an accepted record. -/
def Tally.next (t : Tally) (expected priority timestamp : Nat) (message : Bytes) (length : Nat) :
    Tally :=
  if priority >>> 3 = 0 then
    ⟨t.faults || (priority &&& 7) ≤ 3 || kernelFault.search message,
      t.marker || marks expected timestamp message, timestamp, t.total + length⟩
  else { t with previousTime := timestamp, total := t.total + length }

/-- One record of the log. -/
def inspect (deadline : Rat) (expected : Nat) (record : Bytes) (t : Tally) : Observation Tally := do
  check m deadline
  refuse (logRecordLimit < record.length)
  refuse (logByteLimit < t.total + record.length)
  let (header, message) ← cut record
  let fields := header.splitOn 44
  let bad ← malformed fields
  refuse (bad = true)
  let priority ← int (← item fields 0)
  let sequence ← int (← item fields 1)
  let timestamp ← int (← item fields 2)
  refuse (sequence ≠ expected ∨ 2047 < priority ∨ (timestamp : Int) < t.previousTime)
  let now ← clock m
  refuse (roundBinary64 (now * 1000000) < timestamp ∨ record.getLast? ≠ some 10)
  refuse (priority >>> 3 = 0 ∧ kernelCoverageLost.search message = true)
  pure (t.next expected priority timestamp message record.length)

def inspectAll (deadline : Rat) : Nat → List Bytes → Tally → Observation Tally
  | _, [], t => pure t
  | expected, record :: records, t => do
      let t ← inspect m deadline expected record t
      inspectAll deadline (expected + 1) records t

end Records

/-- The body of `health`. -/
def sample (started : Rat) : Observation HealthSample := do
  let deadline := roundBinary64 (started + 6)
  let first ← bootId m deadline
  let kind ← text (← read m "/sys/class/thermal/thermal_zone0/type" deadline 64)
  refuse (kind ≠ "cpu-thermal".toList)
  let raw ← text (← read m "/sys/class/thermal/thermal_zone0/temp" deadline 32)
  let reading ← expect (thermalReading raw)
  refuse (reading < -20000 ∨ 150000 < reading)
  let temperature := roundBinary64 ((reading : Rat) / 1000)
  let report ← text (← command m ["/usr/bin/vcgencmd", "get_throttled"] deadline)
  let bits ← expect (throttledBits report)
  refuse (bits &&& 0xF000F ≠ bits)
  let records ← kernelRecords m deadline
  refuse (records.length < 1 ∨ logRecordLimit < records.length)
  let tally ← inspectAll m deadline 0 records Tally.start
  refuse (tally.marker = false)
  let last ← bootId m deadline
  refuse (last ≠ first)
  check m deadline
  pure ⟨.float started, .float temperature, bits, tally.faults⟩

/-- The exceptions that `health` turns into its own error. -/
def Raised.caught : Raised → Bool
  | .fault _ => true
  | .index => false

def healthUnavailable : Raised :=
  .fault (.helper "HealthUnavailable"
    "Trusted Linux observation is missing, ambiguous or outside its bounds")

def health : Observation HealthSample := do
  let started ← clock m
  tryCatch (sample m started) fun e => throw (if e.caught then healthUnavailable else e)

end HccastWired.Advanced.LinuxAdvancedObserver
