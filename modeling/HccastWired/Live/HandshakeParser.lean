import HccastWired.Foundation.PyJson
import HccastWired.Foundation.WordSearch
import HccastWired.Foundation.BytePattern
import HccastWired.Protocol.DeviceInfo

/-!
# The handshake parser

What `_HandshakeParser` makes of the gadget's standard output, read by read: the marker,
and one JSON object after it.
-/

namespace HccastWired.Live

open Foundation PyJson WordSearch

/-- `_HANDSHAKE_MARKER`. -/
def HANDSHAKE_MARKER : Bytes :=
  ascii "HCCAST handshake complete:"

/-- The errors of a read: `handshake-json-too-large` and `handshake-json`. -/
inductive HandshakeError
  | tooLarge
  | json
deriving DecidableEq

/-- The texts of an outcome are code points. -/
structure HandshakeParser where
  limit : Nat
  before : Bytes := []
  preTotal : Nat := 0
  payload : Bytes := []
  markerSeen : Bool := false
  outcome : Option (List Nat × List Nat) := none
  error : Option HandshakeError := none

namespace HandshakeParser

/-- The messages of a text that may go on. -/
def incompleteMessages : List String :=
  ["Unterminated string starting at", "Expecting value",
    "Expecting property name enclosed in double quotes", "Expecting ',' delimiter",
    "Expecting ':' delimiter"]

/-- The product and the version of a value that has both. -/
def texts : Value → Option (List Nat × List Nat)
  | .dict fields =>
      match lookup fields (codes "product"), lookup fields (codes "version") with
      | some (.str product), some (.str version) => some (product, version)
      | _, _ => none
  | _ => none

variable (depth : Nat) (p : HandshakeParser)

def parseIfComplete : Except Fault HandshakeParser :=
  match decodeUtf8 p.payload with
  | none => .ok { p with error := some .json }
  | some text =>
      let stripped := text.dropWhile Protocol.isSpace
      if stripped = [] then .ok p
      else match rawDecode depth stripped with
        | .error (.decode message left) =>
            if left ≠ 0 ∧ message.text ≠ "Unterminated string starting at" then
              .ok { p with error := some .json }
            else if message.text ∉ incompleteMessages then .ok { p with error := some .json }
            else .ok p
        | .error e => .error e
        | .ok (value, _) =>
            match texts value with
            | none => .ok { p with error := some .json }
            | some outcome => .ok { p with outcome := some outcome }

/-- The bytes after the marker. -/
def extend (data : Bytes) : Except Fault HandshakeParser :=
  let room := p.limit - p.payload.length
  let payload := p.payload ++ data.take (room + 1)
  if room < data.length then
    .ok { p with payload := payload.take p.limit, error := some .tooLarge }
  else parseIfComplete depth { p with payload := payload }

/-- Another read of the standard output. -/
def feedStdout (chunk : Bytes) : Except Fault HandshakeParser :=
  if p.outcome.isSome ∨ p.error.isSome then .ok p
  else if p.markerSeen then p.extend depth chunk
  else
    let combined := p.before ++ chunk
    match find HANDSHAKE_MARKER combined with
    | none =>
        let preTotal := p.preTotal + chunk.length
        let keep := overlap HANDSHAKE_MARKER combined
        let error := if p.limit < preTotal - keep then some .tooLarge else none
        .ok { p with preTotal, before := kept HANDSHAKE_MARKER combined, error }
    | some markerAt =>
        let markerStart := p.preTotal - p.before.length + markerAt
        if p.limit < markerStart then .ok { p with before := [], error := some .tooLarge }
        else
          let p := { p with before := [], markerSeen := true }
          p.extend depth (combined.drop (markerAt + HANDSHAKE_MARKER.length))

/-- The standard output read by read. A fault ends it. -/
def feedAll (chunks : List Bytes) : Except Fault HandshakeParser :=
  chunks.foldlM (feedStdout depth) p

end HandshakeParser

section Output

open Protocol (DeviceInfo)

/-- `asdict(info)`, its keys sorted. -/
def deviceFields (info : DeviceInfo) : List (List Nat × Scalar) :=
  [(codes "audio_enabled", .int info.audioEnabled),
    (codes "full_mode", .int info.fullMode),
    (codes "mirror_resolution", .int info.mirrorResolution),
    (codes "mirror_type", .int info.mirrorType),
    (codes "product", .str (codes info.product)),
    (codes "url", .str (codes info.url)),
    (codes "version", .str (codes info.version)),
    (codes "version_raw", .int info.versionRaw),
    (codes "vertical_auto_revolve", .int info.verticalAutoRevolve),
    (codes "vertical_mode", .int info.verticalMode)]

/-- The text that `_print_device_info` prints, before the line's end. -/
def deviceText (info : DeviceInfo) : List Char :=
  dumpDict .indented (deviceFields info)

/-- What the gadget process writes: status lines without the marker, the marker's line, the
device information, and ASCII text. -/
structure GadgetOutput where
  status : Bytes
  info : DeviceInfo
  after : Bytes
  unmarked : find HANDSHAKE_MARKER status = none
  words : ∀ field ∈ deviceFields info, ∀ n, field.2 = .int n → n < 2 ^ 32
  plain : ∀ b ∈ after, b < 0x80

/-- The bytes of a text in ASCII. -/
def asciiBytes (text : List Char) : Bytes :=
  text.map fun c => UInt8.ofNat c.toNat

def GadgetOutput.bytes (out : GadgetOutput) : Bytes :=
  out.status ++ (HANDSHAKE_MARKER ++ 10 :: (asciiBytes (deviceText out.info) ++ 10 :: out.after))

end Output

end HccastWired.Live
