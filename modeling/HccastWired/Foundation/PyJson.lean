import HccastWired.Foundation.Base64

/-!
# The interpreter's JSON text

The decoder and the encoder of the interpreter's library. A text is a list of
characters; a string that the decoder returns is a list of code points, since an
escape can stand for half of a surrogate pair.
-/

namespace HccastWired.Foundation.PyJson

/-- A number with a fraction or an exponent keeps its text. -/
inductive Value
  | null
  | bool (b : Bool)
  | int (n : Int)
  | float (text : List Char)
  | str (codes : List Nat)
  | list (items : List Value)
  | dict (fields : List (List Nat × Value))

/-- The value of a key; of a repeated key the last one. -/
def lookup (fields : List (List Nat × Value)) (key : List Nat) : Option Value :=
  fields.reverse.lookup key

/-- The code points of a text. -/
def codes (text : String) : List Nat :=
  text.toList.map Char.toNat

inductive Message
  | expectingValue
  | unterminatedString
  | controlCharacter
  | invalidEscape
  | invalidUnicodeEscape
  | propertyName
  | colon
  | comma
  | extraData
  | byteOrderMark
deriving DecidableEq

def Message.text : Message → String
  | expectingValue => "Expecting value"
  | unterminatedString => "Unterminated string starting at"
  | controlCharacter => "Invalid control character at"
  | invalidEscape => "Invalid \\escape"
  | invalidUnicodeEscape => "Invalid \\uXXXX escape"
  | propertyName => "Expecting property name enclosed in double quotes"
  | colon => "Expecting ':' delimiter"
  | comma => "Expecting ',' delimiter"
  | extraData => "Extra data"
  | byteOrderMark => "Unexpected UTF-8 BOM (decode using utf-8-sig)"

/-- A `JSONDecodeError` counts the characters from its position to the end of the text.
The other faults are a `ValueError` for an integer of too many digits and a
`RecursionError`. -/
inductive Fault
  | decode (message : Message) (left : Nat)
  | value
  | recursion
deriving DecidableEq

section Utf8

def tailByte (b : UInt8) : Bool :=
  0x80 ≤ b && b ≤ 0xBF

def secondOfThree (a b : UInt8) : Bool :=
  tailByte b && (a ≠ 0xE0 || 0xA0 ≤ b) && (a ≠ 0xED || b ≤ 0x9F)

def secondOfFour (a b : UInt8) : Bool :=
  tailByte b && (a ≠ 0xF0 || 0x90 ≤ b) && (a ≠ 0xF4 || b ≤ 0x8F)

/-- `raw.decode("utf-8")`. -/
def decodeUtf8 : Bytes → Option (List Char)
  | [] => some []
  | a :: rest =>
      if a < 0x80 then (decodeUtf8 rest).map (Char.ofNat a.toNat :: ·)
      else match rest with
        | [] => none
        | b :: rest =>
          if 0xC2 ≤ a ∧ a ≤ 0xDF ∧ tailByte b = true then
            (decodeUtf8 rest).map (Char.ofNat (a.toNat % 32 * 64 + b.toNat % 64) :: ·)
          else match rest with
            | [] => none
            | c :: rest =>
              if 0xE0 ≤ a ∧ a ≤ 0xEF ∧ secondOfThree a b = true ∧ tailByte c = true then
                (decodeUtf8 rest).map (Char.ofNat
                  ((a.toNat % 16 * 64 + b.toNat % 64) * 64 + c.toNat % 64) :: ·)
              else match rest with
                | [] => none
                | d :: rest =>
                  if 0xF0 ≤ a ∧ a ≤ 0xF4 ∧ secondOfFour a b = true ∧ tailByte c = true ∧
                      tailByte d = true then
                    (decodeUtf8 rest).map (Char.ofNat (((a.toNat % 8 * 64 + b.toNat % 64) * 64 +
                      c.toNat % 64) * 64 + d.toNat % 64) :: ·)
                  else none

end Utf8

section Strings

def hexValue (c : Char) : Option Nat :=
  if '0' ≤ c ∧ c ≤ '9' then some (c.toNat - 48)
  else if 'a' ≤ c ∧ c ≤ 'f' then some (c.toNat - 87)
  else if 'A' ≤ c ∧ c ≤ 'F' then some (c.toNat - 55)
  else none

/-- Four hexadecimal digits, which may not end the text. -/
def hexDigits : List Char → Option (Nat × List Char)
  | a :: b :: c :: d :: rest =>
      if rest = [] then none
      else do
        let a ← hexValue a
        let b ← hexValue b
        let c ← hexValue c
        let d ← hexValue d
        some (((a * 16 + b) * 16 + c) * 16 + d, rest)
  | _ => none

def isHigh (code : Nat) : Bool :=
  0xD800 ≤ code && code ≤ 0xDBFF

def isLow (code : Nat) : Bool :=
  0xDC00 ≤ code && code ≤ 0xDFFF

def joinPair (high low : Nat) : Nat :=
  0x10000 + (high - 0xD800) * 0x400 + (low - 0xDC00)

/-- A `\u` escape after its two characters. A low half that follows a high one is read
with it, unless it ends the text. -/
def unicodeEscape (text : List Char) : Except Fault (Nat × List Char) :=
  match hexDigits text with
  | none => .error (.decode .invalidUnicodeEscape (text.length + 1))
  | some (code, rest) =>
      if isHigh code ∧ rest.take 2 = ['\\', 'u'] ∧ 6 < rest.length then
        match hexDigits (rest.drop 2) with
        | none => .error (.decode .invalidUnicodeEscape (rest.length - 1))
        | some (low, more) =>
            if isLow low then .ok (joinPair code low, more) else .ok (code, rest)
      else .ok (code, rest)

def shortEscape (c : Char) : Option Nat :=
  [('"', 34), ('\\', 92), ('/', 47), ('b', 8), ('f', 12), ('n', 10), ('r', 13), ('t', 9)].lookup c

/-- The next code point of a string, or none at its closing quote. -/
def nextCode (quote : Nat) : List Char → Except Fault (Option Nat × List Char)
  | [] => .error (.decode .unterminatedString quote)
  | c :: rest =>
      if c = '"' then .ok (none, rest)
      else if c = '\\' then
        match rest with
        | [] => .error (.decode .unterminatedString quote)
        | e :: more =>
            if e = 'u' then (unicodeEscape more).map fun (code, rest) => (some code, rest)
            else match shortEscape e with
              | some code => .ok (some code, more)
              | none => .error (.decode .invalidEscape (more.length + 2))
      else if c.toNat < 32 then .error (.decode .controlCharacter (rest.length + 1))
      else .ok (some c.toNat, rest)

/-- A string after its opening quote. The fuel is at least the length of the text. -/
def scanCodes (quote : Nat) : Nat → List Char → Except Fault (List Nat × List Char)
  | 0, _ => .error (.decode .unterminatedString quote)
  | fuel + 1, text => do
      match ← nextCode quote text with
      | (none, rest) => .ok ([], rest)
      | (some code, rest) =>
          let (codes, rest) ← scanCodes quote fuel rest
          .ok (code :: codes, rest)

def scanString (text : List Char) : Except Fault (List Nat × List Char) :=
  scanCodes (text.length + 1) text.length text

end Strings

section Numbers

def fraction : List Char → List Char
  | c :: d :: rest => if c = '.' ∧ d.isDigit then c :: d :: rest.takeWhile Char.isDigit else []
  | _ => []

/-- An exponent has digits; its sign needs a character after it. -/
def exponent : List Char → List Char
  | c :: s :: rest =>
      let signed := (s = '-' ∨ s = '+') ∧ rest ≠ []
      let digits := (if signed then rest else s :: rest).takeWhile Char.isDigit
      if (c = 'e' ∨ c = 'E') ∧ digits ≠ [] then
        c :: if signed then s :: digits else digits
      else []
  | _ => []

/-- The most digits of an integer that the interpreter reads. -/
def maxDigits : Nat :=
  4300

/-- An integer's digits: a zero alone, or others. -/
def leadingDigits : List Char → List Char
  | '0' :: _ => ['0']
  | text => text.takeWhile Char.isDigit

def scanNumber (text : List Char) : Except Fault (Value × List Char) :=
  let sign := if text.head? = some '-' then ['-'] else []
  let body := text.drop sign.length
  let digits := leadingDigits body
  let rest := body.drop digits.length
  let point := fraction rest
  let power := exponent (rest.drop point.length)
  if digits = [] then .error (.decode .expectingValue text.length)
  else if point ≠ [] ∨ power ≠ [] then
    .ok (.float (sign ++ digits ++ point ++ power), rest.drop (point.length + power.length))
  else if maxDigits < digits.length then .error .value
  else
    let n : Int := Nat.ofDigitChars 10 digits 0
    .ok (.int (if sign = [] then n else -n), rest)

def constants : List (List Char × Value) :=
  [("null".toList, .null), ("true".toList, .bool true), ("false".toList, .bool false),
    ("NaN".toList, .float "NaN".toList), ("Infinity".toList, .float "Infinity".toList),
    ("-Infinity".toList, .float "-Infinity".toList)]

end Numbers

section Decoder

def isBlank (c : Char) : Bool :=
  c = ' ' || c = '\t' || c = '\n' || c = '\r'

def skipBlanks (text : List Char) : List Char :=
  text.dropWhile isBlank

/-- The text after a character that has to be there. -/
def expect (c : Char) (message : Message) (text : List Char) : Except Fault (List Char) :=
  if text.head? = some c then .ok text.tail else .error (.decode message text.length)

mutual
/-- One value, and what follows it. A container takes one level of the recursion that
the interpreter allows. The fuel is at least twice the length of the text. -/
def scanOnce : Nat → Nat → List Char → Except Fault (Value × List Char)
  | _, _, [] => .error (.decode .expectingValue 0)
  | 0, _, text => .error (.decode .expectingValue text.length)
  | fuel + 1, depth, c :: rest =>
      if c = '"' then do
        let (codes, rest) ← scanString rest
        .ok (.str codes, rest)
      else if c = '{' then
        match depth with
        | 0 => .error .recursion
        | depth + 1 =>
            if (skipBlanks rest).head? = some '}' then .ok (.dict [], (skipBlanks rest).tail)
            else do
              let (fields, rest) ← scanFields fuel depth (skipBlanks rest)
              .ok (.dict fields, rest)
      else if c = '[' then
        match depth with
        | 0 => .error .recursion
        | depth + 1 =>
            if (skipBlanks rest).head? = some ']' then .ok (.list [], (skipBlanks rest).tail)
            else do
              let (items, rest) ← scanItems fuel depth (skipBlanks rest)
              .ok (.list items, rest)
      else match constants.find? fun (word, _) => word.isPrefixOf (c :: rest) with
        | some (word, v) => .ok (v, (c :: rest).drop word.length)
        | none => scanNumber (c :: rest)
def scanFields : Nat → Nat → List Char → Except Fault (List (List Nat × Value) × List Char)
  | 0, _, text => .error (.decode .propertyName text.length)
  | fuel + 1, depth, text => do
      let rest ← expect '"' .propertyName text
      let (key, rest) ← scanString rest
      let rest ← expect ':' .colon (skipBlanks rest)
      let (value, rest) ← scanOnce fuel depth (skipBlanks rest)
      if (skipBlanks rest).head? = some '}' then .ok ([(key, value)], (skipBlanks rest).tail)
      else do
        let rest ← expect ',' .comma (skipBlanks rest)
        let (fields, rest) ← scanFields fuel depth (skipBlanks rest)
        .ok ((key, value) :: fields, rest)
def scanItems : Nat → Nat → List Char → Except Fault (List Value × List Char)
  | 0, _, text => .error (.decode .expectingValue text.length)
  | fuel + 1, depth, text => do
      let (value, rest) ← scanOnce fuel depth text
      if (skipBlanks rest).head? = some ']' then .ok ([value], (skipBlanks rest).tail)
      else do
        let rest ← expect ',' .comma (skipBlanks rest)
        let (items, rest) ← scanItems fuel depth (skipBlanks rest)
        .ok (value :: items, rest)
end

/-- `JSONDecoder().raw_decode(text)`. -/
def rawDecode (depth : Nat) (text : List Char) : Except Fault (Value × List Char) :=
  scanOnce (2 * text.length) depth text

/-- `json.loads(text)`. -/
def loads (depth : Nat) (text : List Char) : Except Fault Value :=
  if text.head? = some '\uFEFF' then .error (.decode .byteOrderMark text.length)
  else do
    let (value, rest) ← rawDecode depth (skipBlanks text)
    if skipBlanks rest = [] then .ok value
    else .error (.decode .extraData (skipBlanks rest).length)

end Decoder

section Encoder

def hexDigit (n : Nat) : Char :=
  if n < 10 then Char.ofNat (48 + n) else Char.ofNat (87 + n)

def unitEscape (n : Nat) : List Char :=
  ['\\', 'u', hexDigit (n / 4096 % 16), hexDigit (n / 256 % 16), hexDigit (n / 16 % 16),
    hexDigit (n % 16)]

/-- The text of a code point, in pieces: a character, an escape, or the escapes of a
surrogate pair. -/
def codePieces (code : Nat) : List (List Char) :=
  if code = 34 then [['\\', '"']]
  else if code = 92 then [['\\', '\\']]
  else if code = 8 then [['\\', 'b']]
  else if code = 12 then [['\\', 'f']]
  else if code = 10 then [['\\', 'n']]
  else if code = 13 then [['\\', 'r']]
  else if code = 9 then [['\\', 't']]
  else if 32 ≤ code ∧ code ≤ 126 then [[Char.ofNat code]]
  else if code < 0x10000 then [unitEscape code]
  else [unitEscape (0xD800 + (code - 0x10000) / 0x400), unitEscape (0xDC00 + (code - 0x10000) % 0x400)]

def dumpCodes (codes : List Nat) : List Char :=
  codes.flatMap fun code => (codePieces code).flatten

inductive Scalar
  | bool (b : Bool)
  | int (n : Nat)
  | str (codes : List Nat)

def Scalar.value : Scalar → Value
  | bool b => .bool b
  | int n => .int n
  | str codes => .str codes

def Scalar.dump : Scalar → List Char
  | bool true => "true".toList
  | bool false => "false".toList
  | int n => Nat.toDigits 10 n
  | str codes => '"' :: (dumpCodes codes ++ ['"'])

/-- The blanks that an encoder writes: before every field, after every colon and before
the closing brace. -/
structure Layout where
  indent : List Char
  gap : List Char
  last : List Char
  blank : indent.all isBlank ∧ gap.all isBlank ∧ last.all isBlank

/-- `separators=(",", ":")`. -/
def Layout.compact : Layout :=
  ⟨[], [], [], by simp⟩

/-- `indent=2`. -/
def Layout.indented : Layout :=
  ⟨['\n', ' ', ' '], [' '], ['\n'], by decide⟩

def dumpField (l : Layout) (field : List Nat × Scalar) : List Char :=
  '"' :: (dumpCodes field.1 ++ '"' :: ':' :: (l.gap ++ field.2.dump))

def dumpFields (l : Layout) : List (List Nat × Scalar) → List Char
  | [] => []
  | [field] => l.indent ++ dumpField l field ++ l.last ++ ['}']
  | field :: fields => l.indent ++ dumpField l field ++ ',' :: dumpFields l fields

/-- `json.dumps` of a mapping that is not empty. -/
def dumpDict (l : Layout) (fields : List (List Nat × Scalar)) : List Char :=
  '{' :: dumpFields l fields

end Encoder

end HccastWired.Foundation.PyJson
