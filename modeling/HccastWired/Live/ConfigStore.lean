import HccastWired.Foundation.Call
import HccastWired.Foundation.PyJson
import HccastWired.Live.Model

/-!
# The live controller's stored configuration

A configuration is checked field by field, written as one compact JSON mapping, and
replaced atomically.
-/

namespace HccastWired.Live.ConfigStore

open Foundation PyJson

/-- The fields of a configuration, in the order of their checks. -/
inductive Field
  | schemaVersion
  | mode
  | kioskUrl
  | fps
  | bitrateKbps
  | sourceUser
  | novncEnabled
  | width
  | height
  | displayNumber
  | controllerHost
  | controllerPort
  | novncHost
  | novncPort
  | runRetentionCount
  | runRetentionBytes
deriving DecidableEq

namespace Field

def all : List Field :=
  [schemaVersion, mode, kioskUrl, fps, bitrateKbps, sourceUser, novncEnabled, width, height,
    displayNumber, controllerHost, controllerPort, novncHost, novncPort, runRetentionCount,
    runRetentionBytes]

def name : Field → String
  | schemaVersion => "schema_version"
  | mode => "mode"
  | kioskUrl => "kiosk_url"
  | fps => "fps"
  | bitrateKbps => "bitrate_kbps"
  | sourceUser => "source_user"
  | novncEnabled => "novnc_enabled"
  | width => "width"
  | height => "height"
  | displayNumber => "display_number"
  | controllerHost => "controller_host"
  | controllerPort => "controller_port"
  | novncHost => "novnc_host"
  | novncPort => "novnc_port"
  | runRetentionCount => "run_retention_count"
  | runRetentionBytes => "run_retention_bytes"

/-- The key of the field in a mapping. -/
def key (f : Field) : List Nat :=
  codes f.name

end Field

def modeValue : DesiredMode → String
  | .stopped => "stopped"
  | .desktop => "desktop"
  | .kiosk => "kiosk"

def modeCodes : List (List Nat) :=
  [codes "stopped", codes "desktop", codes "kiosk"]

/-- The parts of a URL; reading the port can raise `ValueError`. -/
structure SplitResult where
  scheme : List Nat
  netloc : List Nat
  hostname : Option (List Nat)
  username : Option (List Nat)
  password : Option (List Nat)
  port : Except Unit (Option Nat)

/-- `urlsplit`, which returns the parts of a URL or raises `ValueError`. -/
abbrev Urlsplit := List Nat → Option SplitResult

/-- What a constructor's argument can be: a value of a JSON document, or a mode. -/
inductive Argument
  | value (v : Value)
  | mode (m : DesiredMode)

/-- The text of an argument that is a `str`; a mode is one too. -/
def Argument.text : Argument → Option (List Nat)
  | value (.str text) => if text.all (· < 0x110000) then some text else none
  | value _ => none
  | mode m => some (codes (modeValue m))

/-- A `ValueError` of the model. -/
inductive ConfigError
  | unknownFields (names : List (List Nat))
  | invalid (message : String)

section Validators

/-- The argument has the value and the type of the expected one. -/
def Argument.same : Argument → Scalar → Bool
  | .value (.int k), .int n => k = n
  | .value (.str t), .str s => t = s
  | _, _ => false

/-- `repr` of an expected value. -/
def shown : Scalar → String
  | .int n => toString n
  | .str s => "'" ++ String.ofList (s.map Char.ofNat) ++ "'"
  | .bool b => if b then "True" else "False"

/-- `_fixed_value`. -/
def fixedValue (a : Argument) (expected : Scalar) (name : String) : Except ConfigError Scalar :=
  if a.same expected then .ok expected
  else .error (.invalid (name ++ " is fixed at " ++ shown expected))

/-- `_bounded_int`; a `bool` is no integer here. -/
def boundedInt (a : Argument) (name : String) (minimum maximum : Nat) :
    Except ConfigError Scalar :=
  match a with
  | .value (.int n) =>
      if minimum ≤ n ∧ n ≤ maximum then .ok (.int n.toNat)
      else .error (.invalid (name ++ " must be an integer from " ++ toString minimum ++
        " through " ++ toString maximum))
  | _ => .error (.invalid (name ++ " must be an integer from " ++ toString minimum ++
      " through " ++ toString maximum))

/-- `_enum_value` of a mode. -/
def enumValue (a : Argument) (name : String) : Except ConfigError Scalar :=
  match a.text with
  | some text =>
      if text ∈ modeCodes then .ok (.str text) else .error (.invalid (name ++ " is invalid"))
  | none => .error (.invalid (name ++ " is invalid"))

/-- The conditions of `_validate_kiosk_url` on the parts. -/
def SplitResult.refused (parts : SplitResult) : Bool :=
  (parts.scheme ≠ codes "http" && parts.scheme ≠ codes "https") || parts.hostname.getD [] = [] ||
    parts.netloc.getLast? = some 58 || parts.username.isSome || parts.password.isSome

/-- `_validate_kiosk_url`. -/
def validateKioskUrl (urlsplit : Urlsplit) (a : Argument) : Except ConfigError Scalar :=
  match a.text with
  | none => .error (.invalid "kiosk_url must be an HTTP or HTTPS URL")
  | some url =>
      match urlsplit url with
      | none => .error (.invalid "kiosk_url must be an HTTP or HTTPS URL")
      | some parts =>
          match parts.port with
          | .error _ => .error (.invalid "kiosk_url must be an HTTP or HTTPS URL")
          | .ok _ =>
              if parts.refused then
                .error (.invalid "kiosk_url must be an HTTP or HTTPS URL without credentials")
              else .ok (.str url)

def isLowerLetter (c : Nat) : Bool :=
  97 ≤ c && c ≤ 122

/-- `[a-z_][a-z0-9_-]{0,31}`. -/
def isAccount (text : List Nat) : Bool :=
  match text with
  | [] => false
  | c :: rest =>
      (isLowerLetter c || c = 95) && rest.length ≤ 31 &&
        rest.all fun c => isLowerLetter c || (48 ≤ c && c ≤ 57) || c = 95 || c = 45

/-- `_validate_source_user`. -/
def validateSourceUser (a : Argument) : Except ConfigError Scalar :=
  match a.text with
  | some text =>
      if isAccount text then .ok (.str text)
      else .error (.invalid "source_user must be a conservative POSIX account name")
  | none => .error (.invalid "source_user must be a conservative POSIX account name")

def validateEnabled (a : Argument) : Except ConfigError Scalar :=
  match a with
  | .value (.bool b) => .ok (.bool b)
  | _ => .error (.invalid "novnc_enabled must be a boolean")

end Validators

section Config

variable (urlsplit : Urlsplit)

namespace Field

/-- The value of a field that has only one. -/
def fixed : Field → Option Scalar
  | schemaVersion => some (.int 1)
  | width => some (.int 640)
  | height => some (.int 1136)
  | displayNumber => some (.int 99)
  | controllerHost => some (.str (codes "127.0.0.1"))
  | controllerPort => some (.int 8765)
  | novncHost => some (.str (codes "127.0.0.1"))
  | novncPort => some (.int 6080)
  | runRetentionCount => some (.int 20)
  | runRetentionBytes => some (.int (200 * 1024 * 1024))
  | _ => none

/-- The default of a field. -/
def default : Field → Scalar
  | mode => .str (codes "stopped")
  | kioskUrl => .str (codes "http://127.0.0.1:3000")
  | fps => .int 10
  | bitrateKbps => .int 4000
  | sourceUser => .str (codes "hccast")
  | novncEnabled => .bool true
  | f => f.fixed.getD (.bool false)

/-- The field's line of `__post_init__`. -/
def check (f : Field) (a : Argument) : Except ConfigError Scalar :=
  match f.fixed with
  | some expected => fixedValue a expected f.name
  | none =>
      match f with
      | mode => enumValue a f.name
      | kioskUrl => validateKioskUrl urlsplit a
      | fps => boundedInt a f.name 1 30
      | bitrateKbps => boundedInt a f.name 500 16000
      | sourceUser => validateSourceUser a
      | _ => validateEnabled a

end Field

/-- What a configuration's field may hold. -/
def Rule (f : Field) (s : Scalar) : Prop :=
  match f.fixed with
  | some expected => s = expected
  | none =>
      match f with
      | .mode => ∃ text ∈ modeCodes, s = .str text
      | .kioskUrl => ∃ url parts port, s = .str url ∧ (∀ c ∈ url, c < 0x110000) ∧
          urlsplit url = some parts ∧ parts.port = .ok port ∧ parts.refused = false
      | .fps => ∃ n, s = .int n ∧ 1 ≤ n ∧ n ≤ 30
      | .bitrateKbps => ∃ n, s = .int n ∧ 500 ≤ n ∧ n ≤ 16000
      | .sourceUser => ∃ text, s = .str text ∧ isAccount text = true
      | _ => ∃ b, s = .bool b

/-- The attributes of a configuration. -/
abbrev LiveConfig := Field → Scalar

/-- Every field of the configuration is as the model allows. -/
def Valid (c : LiveConfig) : Prop :=
  ∀ f, Rule urlsplit f (c f)

/-- The fields of a mapping as arguments; an absent one has its default. -/
def argument (mapping : List (List Nat × Argument)) (f : Field) : Argument :=
  (mapping.reverse.lookup f.key).getD (.value f.default.value)

/-- The constructor: the first field that fails its check decides the error. -/
def construct (arguments : Field → Argument) : Except ConfigError LiveConfig := do
  let values ← Field.all.mapM fun f => do
    let s ← f.check urlsplit (arguments f)
    .ok (f, s)
  .ok fun f => (values.lookup f).getD f.default

/-- `LiveConfig.from_mapping`. -/
def fromMapping (mapping : List (List Nat × Argument)) : Except ConfigError LiveConfig :=
  let unknown := (mapping.map Prod.fst).filter fun key => !(Field.all.map Field.key).contains key
  if unknown ≠ [] then
    .error (.unknownFields (unknown.dedup.mergeSort fun a b => decide (a ≤ b)))
  else construct urlsplit (argument mapping)

/-- `LiveConfig.to_mapping`. -/
def toMapping (c : LiveConfig) : List (List Nat × Scalar) :=
  Field.all.map fun f => (f.key, c f)

/-- A mapping of JSON values as arguments. -/
def arguments (mapping : List (List Nat × Value)) : List (List Nat × Argument) :=
  mapping.map fun (key, v) => (key, .value v)

def ownArguments (c : LiveConfig) : List (List Nat × Argument) :=
  arguments ((toMapping c).map fun (key, s) => (key, s.value))

/-- `LiveConfig.with_updates`. -/
def withUpdates (c : LiveConfig) (changes : List (List Nat × Argument)) :
    Except ConfigError LiveConfig :=
  fromMapping urlsplit (ownArguments c ++ changes)

end Config

section Load

/-- What is at the path of the configuration. -/
inductive Node
  | absent
  | regular (raw : Bytes)
  | other

/-- What `json.load` raises. -/
inductive JsonRaised
  | decode
  | unicode
  | value
  | recursion
deriving DecidableEq

inductive LoadRaised
  | stateStore
  | unicode
  | value
  | recursion
deriving DecidableEq

/-- Reading in text mode makes every end of a line a newline. -/
def universalNewlines : List Char → List Char
  | '\r' :: '\n' :: rest => '\n' :: universalNewlines rest
  | '\r' :: rest => '\n' :: universalNewlines rest
  | c :: rest => c :: universalNewlines rest
  | [] => []

def PyJson.Fault.raised : Fault → JsonRaised
  | .decode _ _ => .decode
  | .value => .value
  | .recursion => .recursion

/-- `json.load` of the open file. The interpreter allows at least one level of recursion. -/
def jsonLoad (room : Nat) (raw : Bytes) : Except JsonRaised Value :=
  match decodeUtf8 raw with
  | none => .error .unicode
  | some text => (loads (room + 1) (universalNewlines text)).mapError PyJson.Fault.raised

variable (urlsplit : Urlsplit) (room : Nat)

/-- The file of a configuration, and whether the system refuses to look at it or to
open it. -/
structure Path where
  node : Node
  statFails : Bool
  openFails : Bool

/-- `LiveStateStore.load`. -/
def load (path : Path) : Except LoadRaised LiveConfig :=
  if path.statFails then .error .stateStore
  else match path.node with
    | .absent => (construct urlsplit fun f => .value f.default.value).mapError fun _ => .value
    | .other => .error .stateStore
    | .regular raw =>
        if path.openFails then .error .stateStore
        else match jsonLoad room raw with
          | .error .decode => .error .stateStore
          | .error .unicode => .error .unicode
          | .error .value => .error .value
          | .error .recursion => .error .recursion
          | .ok (.dict fields) =>
              (fromMapping urlsplit (arguments fields)).mapError fun _ => .stateStore
          | .ok _ => .error .stateStore

end Load

section Save

/-- A step of `save` that can raise. -/
inductive Step
  | create
  | dump
  | flush
  | fsync
  | close
  | chmod
  | replace
  | unlink
deriving DecidableEq

/-- The file and the temporary one beside it. -/
structure Disk where
  target : Node
  temporary : Option Bytes

def encodeUtf8Char (c : Char) : Bytes :=
  let n := c.toNat
  if n < 0x80 then [UInt8.ofNat n]
  else if n < 0x800 then [UInt8.ofNat (0xC0 + n / 64), UInt8.ofNat (0x80 + n % 64)]
  else if n < 0x10000 then
    [UInt8.ofNat (0xE0 + n / 4096), UInt8.ofNat (0x80 + n / 64 % 64), UInt8.ofNat (0x80 + n % 64)]
  else
    [UInt8.ofNat (0xF0 + n / 262144), UInt8.ofNat (0x80 + n / 4096 % 64),
      UInt8.ofNat (0x80 + n / 64 % 64), UInt8.ofNat (0x80 + n % 64)]

/-- The text of a configuration, with its fields in the order of their keys. -/
def configText (c : LiveConfig) : List Char :=
  dumpDict .compact ((toMapping c).mergeSort fun a b => decide (a.1 ≤ b.1)) ++ ['\n']

def configBytes (c : LiveConfig) : Bytes :=
  (configText c).flatMap encodeUtf8Char

variable (faults : Step → Bool)

abbrev SaveCall (α : Type) := Call Disk Step α

def attempt (step : Step) : SaveCall Unit :=
  if faults step then throw step else pure ()

/-- The steps of `save` after the temporary file is there. -/
def writeAndReplace (raw : Bytes) : SaveCall Unit := do
  attempt faults .dump
  attempt faults .flush
  Call.update fun d => { d with temporary := some raw }
  attempt faults .fsync
  attempt faults .close
  attempt faults .chmod
  attempt faults .replace
  Call.update fun d => { d with target := .regular raw, temporary := none }

/-- The temporary file is removed, if the system lets it. -/
def discard : SaveCall Unit :=
  if faults .unlink then pure () else Call.update fun d => { d with temporary := none }

/-- `LiveStateStore.save`. -/
def save (c : LiveConfig) : SaveCall Unit := do
  attempt faults .create
  Call.update fun d => { d with temporary := some [] }
  tryCatch (writeAndReplace faults (configBytes c)) fun e => do
    discard faults
    throw e

end Save

end HccastWired.Live.ConfigStore
