import Mathlib

/-!
# JSON text

Values, the compact text of a value, and the value of a text. Numbers are
integers and strings need no escapes.
-/

namespace HccastWired.Foundation

inductive Json
  | null
  | bool (b : Bool)
  | int (n : Int)
  | str (s : String)
  | arr (items : List Json)
  | obj (fields : List (String × Json))

namespace Json

section Dumps

def dumpsInt : Int → List Char
  | .ofNat n => Nat.toDigits 10 n
  | .negSucc n => '-' :: Nat.toDigits 10 (n + 1)

def dumpsString (s : String) : List Char :=
  '"' :: s.toList ++ ['"']

mutual
/-- The text of a value, with no blanks between its parts. The tails write what
follows the first item of an array or the first field of an object. -/
def dumps : Json → List Char
  | .null => ['n', 'u', 'l', 'l']
  | .bool true => ['t', 'r', 'u', 'e']
  | .bool false => ['f', 'a', 'l', 's', 'e']
  | .int n => dumpsInt n
  | .str s => dumpsString s
  | .arr [] => ['[', ']']
  | .arr (j :: items) => '[' :: (j.dumps ++ dumpsItems items)
  | .obj [] => ['{', '}']
  | .obj ((k, j) :: fields) => '{' :: (dumpsString k ++ ':' :: (j.dumps ++ dumpsFields fields))
def dumpsItems : List Json → List Char
  | [] => [']']
  | j :: items => ',' :: (j.dumps ++ dumpsItems items)
def dumpsFields : List (String × Json) → List Char
  | [] => ['}']
  | (k, j) :: fields => ',' :: (dumpsString k ++ ':' :: (j.dumps ++ dumpsFields fields))
end

/-- A character that a string holds without an escape. -/
def plainChar (c : Char) : Bool :=
  32 ≤ c.toNat && c.toNat < 127 && c != '"' && c != '\\'

def plainString (s : String) : Bool :=
  s.toList.all plainChar

mutual
/-- Every string of the value, keys included, needs no escapes. -/
def plain : Json → Bool
  | .str s => plainString s
  | .arr items => plainItems items
  | .obj fields => plainFields fields
  | _ => true
def plainItems : List Json → Bool
  | [] => true
  | j :: items => j.plain && plainItems items
def plainFields : List (String × Json) → Bool
  | [] => true
  | (k, j) :: fields => plainString k && j.plain && plainFields fields
end

mutual
/-- No object of the value repeats a key. -/
def unique : Json → Bool
  | .arr items => uniqueItems items
  | .obj fields => (fields.map Prod.fst).Nodup && uniqueFields fields
  | _ => true
def uniqueItems : List Json → Bool
  | [] => true
  | j :: items => j.unique && uniqueItems items
def uniqueFields : List (String × Json) → Bool
  | [] => true
  | (_, j) :: fields => j.unique && uniqueFields fields
end

end Dumps

section Loads

def isBlank (c : Char) : Bool :=
  c = ' ' || c = '\t' || c = '\n' || c = '\r'

def skipBlanks (text : List Char) : List Char :=
  text.dropWhile isBlank

/-- The characters up to the closing quote, and what follows it. -/
def parseString : List Char → Option (List Char × List Char)
  | [] => none
  | c :: rest =>
      if c = '"' then some ([], rest)
      else if plainChar c then (parseString rest).map fun (cs, rest) => (c :: cs, rest)
      else none

/-- The longest run of digits. A zero is not followed by another digit. -/
def parseNat : List Char → Option (Nat × List Char)
  | [] => none
  | c :: rest =>
      if c = '0' then some (0, rest)
      else if c.isDigit then
        some (Nat.ofDigitChars 10 (c :: rest.takeWhile Char.isDigit) 0, rest.dropWhile Char.isDigit)
      else none

def parseInt : List Char → Option (Int × List Char)
  | '-' :: rest => (parseNat rest).map fun (n, rest) => (-n, rest)
  | text => (parseNat text).map fun (n, rest) => (n, rest)

/-- A keyword whose first character has been read. -/
def parseWord (word : List Char) (j : Json) (text : List Char) : Option (Json × List Char) :=
  if text.take word.length = word then some (j, text.drop word.length) else none

mutual
/-- One value, and what follows it. Every call reads at least one character. -/
def parseValue : Nat → List Char → Option (Json × List Char)
  | 0, _ => none
  | fuel + 1, text =>
      match skipBlanks text with
      | [] => none
      | c :: rest =>
          if c = 'n' then parseWord ['u', 'l', 'l'] .null rest
          else if c = 't' then parseWord ['r', 'u', 'e'] (.bool true) rest
          else if c = 'f' then parseWord ['a', 'l', 's', 'e'] (.bool false) rest
          else if c = '"' then
            (parseString rest).map fun (cs, rest) => (.str (String.ofList cs), rest)
          else if c = '[' then
            if (skipBlanks rest).head? = some ']' then some (.arr [], (skipBlanks rest).tail)
            else (parseValue fuel rest).bind fun (j, rest) =>
              (parseItems fuel rest).map fun (items, rest) => (.arr (j :: items), rest)
          else if c = '{' then
            if (skipBlanks rest).head? = some '}' then some (.obj [], (skipBlanks rest).tail)
            else (parseField fuel rest).bind fun (field, rest) =>
              (parseFields fuel rest).map fun (fields, rest) => (.obj (field :: fields), rest)
          else (parseInt (c :: rest)).map fun (n, rest) => (.int n, rest)
def parseItems : Nat → List Char → Option (List Json × List Char)
  | 0, _ => none
  | fuel + 1, text =>
      match skipBlanks text with
      | [] => none
      | c :: rest =>
          if c = ']' then some ([], rest)
          else if c = ',' then
            (parseValue fuel rest).bind fun (j, rest) =>
              (parseItems fuel rest).map fun (items, rest) => (j :: items, rest)
          else none
def parseField : Nat → List Char → Option ((String × Json) × List Char)
  | 0, _ => none
  | fuel + 1, text =>
      match skipBlanks text with
      | [] => none
      | c :: rest =>
          if c = '"' then
            (parseString rest).bind fun (cs, rest) =>
              if (skipBlanks rest).head? = some ':' then
                (parseValue fuel (skipBlanks rest).tail).map fun (j, rest) =>
                  ((String.ofList cs, j), rest)
              else none
          else none
def parseFields : Nat → List Char → Option (List (String × Json) × List Char)
  | 0, _ => none
  | fuel + 1, text =>
      match skipBlanks text with
      | [] => none
      | c :: rest =>
          if c = '}' then some ([], rest)
          else if c = ',' then
            (parseField fuel rest).bind fun (field, rest) =>
              (parseFields fuel rest).map fun (fields, rest) => (field :: fields, rest)
          else none
end

/-- The value of a text with nothing but blanks around it. -/
def loads (text : List Char) : Option Json :=
  (parseValue text.length text).bind fun (j, rest) =>
    if skipBlanks rest = [] then some j else none

end Loads

section RoundTrip

variable {text rest : List Char} {c : Char}

/-- What follows a number does not go on with another digit. -/
def Ends (text : List Char) : Prop :=
  ∀ c rest, text = c :: rest → c.isDigit = false

theorem ends_cons (hc : c.isDigit = false) : Ends (c :: rest) := by
  intro d rest' h
  cases h
  exact hc

theorem skipBlanks_cons (hc : isBlank c = false) : skipBlanks (c :: rest) = c :: rest := by
  simp [skipBlanks, hc]

theorem Ends.span {ds : List Char} (hr : Ends rest) (hd : ∀ d ∈ ds, d.isDigit = true) :
    (ds ++ rest).takeWhile Char.isDigit = ds ∧ (ds ++ rest).dropWhile Char.isDigit = rest := by
  rw [List.takeWhile_append_of_pos hd, List.dropWhile_append_of_pos hd]
  cases rest with
  | nil => simp
  | cons c rest => simp [hr c rest rfl]

theorem toDigits_head_ne {n : Nat} (hn : 0 < n) : (Nat.toDigits 10 n).head? ≠ some '0' := by
  induction n using Nat.strongRecOn with
  | ind n ih =>
      rw [Nat.toDigits_eq_if (by decide)]
      split
      · next hlt =>
        have hall : ∀ d < 10, 0 < d → (some d.digitChar) ≠ some '0' := by decide
        exact hall n hlt hn
      · next hge =>
        rw [List.head?_append_of_ne_nil _ Nat.toDigits_ne_nil]
        exact ih (n / 10) (by omega) (by omega)

theorem parseNat_toDigits (n : Nat) (hr : Ends rest) :
    parseNat (Nat.toDigits 10 n ++ rest) = some (n, rest) := by
  have hdigit : ∀ d ∈ Nat.toDigits 10 n, d.isDigit = true := fun d hd =>
    Nat.isDigit_of_mem_toDigits (by decide) (by decide) hd
  by_cases hz : n = 0
  · subst hz
    simp [parseNat]
  · have hvalue := @Nat.ofDigitChars_toDigits 10 n (by decide) (by decide)
    cases hds : Nat.toDigits 10 n with
    | nil => exact absurd hds Nat.toDigits_ne_nil
    | cons d ds =>
        rw [hds] at hdigit hvalue
        have hd := hdigit d (by simp)
        obtain ⟨htake, hdrop⟩ := hr.span fun e he => hdigit e (List.mem_cons_of_mem d he)
        have hne : d ≠ '0' := by
          intro hzero
          exact toDigits_head_ne (Nat.pos_of_ne_zero hz) (by rw [hds, hzero]; rfl)
        simp [parseNat, hne, hd, htake, hdrop, hvalue]

theorem parseInt_dumpsInt (n : Int) (hr : Ends rest) :
    parseInt (dumpsInt n ++ rest) = some (n, rest) := by
  cases n with
  | ofNat n =>
      have hdigit : ∀ d ∈ Nat.toDigits 10 n, d.isDigit = true := fun d hd =>
        Nat.isDigit_of_mem_toDigits (by decide) (by decide) hd
      have hparse := parseNat_toDigits n hr
      simp only [dumpsInt]
      cases hds : Nat.toDigits 10 n with
      | nil => exact absurd hds Nat.toDigits_ne_nil
      | cons d ds =>
          have hne : d ≠ '-' := by
            rintro rfl
            have hminus := hdigit '-' (by rw [hds]; simp)
            revert hminus
            decide
          rw [hds] at hparse
          simp only [List.cons_append] at hparse ⊢
          rw [parseInt, hparse]
          · rfl
          · intro rest' h
            exact hne (List.cons.inj h).1
  | negSucc n =>
      simp only [dumpsInt, List.cons_append, parseInt, parseNat_toDigits (n + 1) hr]
      rfl

theorem parseString_append {cs : List Char} (hcs : cs.all plainChar = true) :
    parseString (cs ++ '"' :: rest) = some (cs, rest) := by
  induction cs with
  | nil => simp [parseString]
  | cons c cs ih =>
      obtain ⟨hc, hcs⟩ : plainChar c = true ∧ cs.all plainChar = true := by simpa using hcs
      have hne : c ≠ '"' := by
        rintro rfl
        revert hc
        decide
      simp [parseString, hne, hc, ih hcs]

theorem parseString_dumpsString {s : String} (hs : plainString s = true) :
    parseString (s.toList ++ '"' :: rest) = some (s.toList, rest) :=
  parseString_append hs

/-- A text that a value can start with. -/
structure Starts (c : Char) : Prop where
  blank : isBlank c = false
  bracket : c ≠ ']'

theorem starts_of_mem (h : c ∈ ['n', 't', 'f', '"', '[', '{', '-']) : Starts c := by
  have hall : ['n', 't', 'f', '"', '[', '{', '-'].all (fun c => !isBlank c && c != ']') = true := by
    decide
  have hc := List.all_eq_true.mp hall c h
  simp only [Bool.and_eq_true, Bool.not_eq_true', bne_iff_ne] at hc
  exact ⟨hc.1, hc.2⟩

theorem isDigit_ne {ds : List Char} (hds : ds.all (fun d => !d.isDigit) = true)
    (h : c.isDigit = true) : ∀ d ∈ ds, c ≠ d := by
  rintro d hd rfl
  have hno := List.all_eq_true.mp hds c hd
  rw [h] at hno
  cases hno

theorem starts_of_isDigit (h : c.isDigit = true) : Starts c := by
  have hne : ∀ d ∈ [' ', '\t', '\n', '\r', ']'], c ≠ d := isDigit_ne (by decide) h
  simp only [List.forall_mem_cons] at hne
  obtain ⟨hspace, htab, hnewline, hreturn, hbracket, -⟩ := hne
  exact ⟨by simp [isBlank, hspace, htab, hnewline, hreturn], hbracket⟩

theorem dumpsInt_head (n : Int) : ∃ c cs, dumpsInt n = c :: cs ∧ (c = '-' ∨ c.isDigit = true) := by
  cases n with
  | ofNat n =>
      cases hds : Nat.toDigits 10 n with
      | nil => exact absurd hds Nat.toDigits_ne_nil
      | cons d ds =>
          refine ⟨d, ds, hds, Or.inr ?_⟩
          exact Nat.isDigit_of_mem_toDigits (by decide) (by decide) (hds ▸ List.mem_cons_self)
  | negSucc n => exact ⟨'-', _, rfl, Or.inl rfl⟩

theorem dumps_head (j : Json) : ∃ c cs, j.dumps = c :: cs ∧ Starts c := by
  cases j with
  | null => exact ⟨_, _, by rw [dumps], starts_of_mem (by decide)⟩
  | bool b => cases b <;> exact ⟨_, _, by rw [dumps], starts_of_mem (by decide)⟩
  | int n =>
      obtain ⟨c, cs, hcs, hc | hc⟩ := dumpsInt_head n
      · exact ⟨c, cs, by rw [dumps, hcs], hc ▸ starts_of_mem (by decide)⟩
      · exact ⟨c, cs, by rw [dumps, hcs], starts_of_isDigit hc⟩
  | str s => exact ⟨'"', _, by rw [dumps, dumpsString, List.cons_append], starts_of_mem (by decide)⟩
  | arr items => cases items <;> exact ⟨'[', _, by rw [dumps], starts_of_mem (by decide)⟩
  | obj fields =>
      rcases fields with _ | ⟨⟨k, j⟩, fields⟩ <;>
        exact ⟨'{', _, by rw [dumps], starts_of_mem (by decide)⟩

theorem ends_dumpsItems (items : List Json) : Ends (dumpsItems items ++ rest) := by
  cases items <;> simp only [dumpsItems, List.cons_append] <;> exact ends_cons (by decide)

theorem ends_dumpsFields (fields : List (String × Json)) : Ends (dumpsFields fields ++ rest) := by
  rcases fields with _ | ⟨⟨k, j⟩, fields⟩ <;> simp only [dumpsFields, List.cons_append] <;>
    exact ends_cons (by decide)

mutual
theorem parseValue_dumps : ∀ (j : Json) (fuel : Nat) (rest : List Char), j.plain = true →
    j.dumps.length ≤ fuel → Ends rest → parseValue fuel (j.dumps ++ rest) = some (j, rest)
  | j, 0, rest, _, hfuel, _ => by
      obtain ⟨c, cs, hcs, -⟩ := dumps_head j
      rw [hcs] at hfuel
      simp at hfuel
  | .null, fuel + 1, rest, _, _, _ => by
      simp [dumps, parseValue, skipBlanks_cons, isBlank, parseWord]
  | .bool true, fuel + 1, rest, _, _, _ => by
      simp [dumps, parseValue, skipBlanks_cons, isBlank, parseWord]
  | .bool false, fuel + 1, rest, _, _, _ => by
      simp [dumps, parseValue, skipBlanks_cons, isBlank, parseWord]
  | .int n, fuel + 1, rest, _, _, hr => by
      have hparse := parseInt_dumpsInt n hr
      obtain ⟨c, cs, hcs, hc⟩ := dumpsInt_head n
      have hstart : Starts c := hc.elim (fun h => h ▸ starts_of_mem (by decide)) starts_of_isDigit
      have hne : ∀ d ∈ ['n', 't', 'f', '"', '[', '{'], c ≠ d := by
        intro d hd
        rcases hc with rfl | hc
        · rintro rfl
          revert hd
          decide
        · exact isDigit_ne (by decide) hc d hd
      simp only [List.forall_mem_cons] at hne
      obtain ⟨hn, ht, hf, hq, ha, ho, -⟩ := hne
      rw [hcs, List.cons_append] at hparse
      simp only [dumps, hcs, List.cons_append, parseValue, skipBlanks_cons hstart.blank, hn, ht,
        hf, hq, ha, ho, if_false, hparse]
      rfl
  | .str s, fuel + 1, rest, hp, _, _ => by
      have hs : plainString s = true := hp
      simp [dumps, dumpsString, parseValue, skipBlanks_cons, isBlank, parseString_dumpsString hs]
  | .arr [], fuel + 1, rest, _, _, _ => by
      simp [dumps, parseValue, skipBlanks_cons, isBlank]
  | .arr (j :: items), fuel + 1, rest, hp, hfuel, hr => by
      obtain ⟨hj, hitems⟩ : j.plain = true ∧ plainItems items = true := by
        simpa [plain, plainItems] using hp
      simp only [dumps, List.length_cons, List.length_append] at hfuel
      have hvalue := parseValue_dumps j fuel (dumpsItems items ++ rest) hj (by omega)
        (ends_dumpsItems items)
      have htail := parseItems_dumps items fuel rest hitems (by omega)
      obtain ⟨c, cs, hcs, hstart⟩ := dumps_head j
      simp only [dumps, List.cons_append, List.append_assoc, parseValue,
        skipBlanks_cons (show isBlank '[' = false by decide)]
      rw [hcs, List.cons_append] at hvalue ⊢
      simp [skipBlanks_cons hstart.blank, hstart.bracket, hvalue, htail]
  | .obj [], fuel + 1, rest, _, _, _ => by
      simp [dumps, parseValue, skipBlanks_cons, isBlank]
  | .obj ((k, j) :: fields), fuel + 1, rest, hp, hfuel, hr => by
      obtain ⟨⟨hk, hj⟩, hfields⟩ : (plainString k = true ∧ j.plain = true) ∧
          plainFields fields = true := by
        simpa [plain, plainFields] using hp
      simp only [dumps, List.length_cons, List.length_append] at hfuel
      have hfield := parseField_dumps k j fuel (dumpsFields fields ++ rest) hk hj (by
        simp only [List.length_append, List.length_cons]
        omega) (ends_dumpsFields fields)
      have htail := parseFields_dumps fields fuel rest hfields (by omega)
      simp only [dumpsString, List.append_assoc, List.cons_append, List.nil_append] at hfield
      simp [dumps, parseValue, dumpsString, skipBlanks_cons, isBlank, hfield, htail]
theorem parseItems_dumps : ∀ (items : List Json) (fuel : Nat) (rest : List Char),
    plainItems items = true → (dumpsItems items).length ≤ fuel →
    parseItems fuel (dumpsItems items ++ rest) = some (items, rest)
  | [], 0, rest, _, hfuel => by simp [dumpsItems] at hfuel
  | [], fuel + 1, rest, _, _ => by simp [dumpsItems, parseItems, skipBlanks_cons, isBlank]
  | j :: items, 0, rest, _, hfuel => by simp [dumpsItems] at hfuel
  | j :: items, fuel + 1, rest, hp, hfuel => by
      obtain ⟨hj, hitems⟩ : j.plain = true ∧ plainItems items = true := by
        simpa [plainItems] using hp
      simp only [dumpsItems, List.length_cons, List.length_append] at hfuel
      have hvalue := parseValue_dumps j fuel (dumpsItems items ++ rest) hj (by omega)
        (ends_dumpsItems items)
      have htail := parseItems_dumps items fuel rest hitems (by omega)
      simp [dumpsItems, parseItems, skipBlanks_cons, isBlank, hvalue, htail]
theorem parseField_dumps : ∀ (k : String) (j : Json) (fuel : Nat) (rest : List Char),
    plainString k = true → j.plain = true →
    (dumpsString k ++ ':' :: j.dumps).length ≤ fuel → Ends rest →
    parseField fuel (dumpsString k ++ ':' :: j.dumps ++ rest) = some ((k, j), rest)
  | k, j, 0, rest, _, _, hfuel, _ => by simp [dumpsString] at hfuel
  | k, j, fuel + 1, rest, hk, hj, hfuel, hr => by
      simp only [dumpsString, List.length_cons, List.length_append] at hfuel
      have hvalue := parseValue_dumps j fuel rest hj (by omega) hr
      simp [dumpsString, parseField, skipBlanks_cons, isBlank, parseString_dumpsString hk, hvalue]
theorem parseFields_dumps : ∀ (fields : List (String × Json)) (fuel : Nat) (rest : List Char),
    plainFields fields = true → (dumpsFields fields).length ≤ fuel →
    parseFields fuel (dumpsFields fields ++ rest) = some (fields, rest)
  | [], 0, rest, _, hfuel => by simp [dumpsFields] at hfuel
  | [], fuel + 1, rest, _, _ => by simp [dumpsFields, parseFields, skipBlanks_cons, isBlank]
  | (k, j) :: fields, 0, rest, _, hfuel => by simp [dumpsFields] at hfuel
  | (k, j) :: fields, fuel + 1, rest, hp, hfuel => by
      obtain ⟨⟨hk, hj⟩, hfields⟩ : (plainString k = true ∧ j.plain = true) ∧
          plainFields fields = true := by
        simpa [plainFields] using hp
      simp only [dumpsFields, List.length_cons, List.length_append] at hfuel
      have hfield := parseField_dumps k j fuel (dumpsFields fields ++ rest) hk hj (by
        simp only [List.length_append, List.length_cons]
        omega) (ends_dumpsFields fields)
      have htail := parseFields_dumps fields fuel rest hfields (by omega)
      simp only [List.append_assoc, List.cons_append] at hfield
      simp [dumpsFields, parseFields, skipBlanks_cons, isBlank, hfield, htail]
end

/-- Reading the text of a value, with blanks after it, gives the value back. -/
theorem loads_dumps {j : Json} (hj : j.plain = true) {blanks : List Char}
    (hblanks : skipBlanks blanks = []) : loads (j.dumps ++ blanks) = some j := by
  have hends : Ends blanks := by
    rintro c rest rfl
    have hc : isBlank c = true := by
      by_contra hc
      rw [skipBlanks_cons (by simpa using hc)] at hblanks
      cases hblanks
    by_contra hdigit
    have hstart := starts_of_isDigit (by simpa using hdigit)
    rw [hstart.blank] at hc
    cases hc
  have hparse := parseValue_dumps j (j.dumps ++ blanks).length blanks hj (by simp) hends
  rw [loads, hparse]
  simp [hblanks]

end RoundTrip

section Ascii

/-- The bytes of a text of ASCII characters. -/
def asciiBytes (text : List Char) : Option (List UInt8) :=
  if text.all (fun c => c.toNat < 128) then some (text.map fun c => UInt8.ofNat c.toNat) else none

def asciiText (bytes : List UInt8) : Option (List Char) :=
  if bytes.all (fun b => b.toNat < 128) then some (bytes.map fun b => Char.ofNat b.toNat) else none

theorem asciiText_asciiBytes {text : List Char} (h : ∀ c ∈ text, c.toNat < 128) :
    ∃ bytes, asciiBytes text = some bytes ∧ bytes.length = text.length ∧
      asciiText bytes = some text := by
  refine ⟨text.map fun c => UInt8.ofNat c.toNat, ?_, by simp, ?_⟩
  · simpa [asciiBytes] using h
  · have hbyte : ∀ c ∈ text, (UInt8.ofNat c.toNat).toNat = c.toNat := fun c hc => by
      have hlt := h c hc
      simp
      omega
    have hall : (text.map fun c => UInt8.ofNat c.toNat).all (fun b => b.toNat < 128) = true := by
      simp only [List.all_map, List.all_eq_true]
      intro c hc
      simpa [hbyte c hc] using h c hc
    rw [asciiText, if_pos hall, List.map_map]
    congr 1
    conv_rhs => rw [← List.map_id text]
    refine List.map_congr_left fun c hc => ?_
    simp [hbyte c hc, Char.ofNat_toNat]

theorem asciiBytes_asciiText {bytes : List UInt8} {text : List Char}
    (h : asciiText bytes = some text) : asciiBytes text = some bytes := by
  rw [asciiText] at h
  split at h
  · next hall =>
    obtain rfl := Option.some.inj h
    have hback : ∀ b ∈ bytes, (Char.ofNat b.toNat).toNat = b.toNat := by
      intro b hb
      have hlt : b.toNat < 128 := by simpa using List.all_eq_true.mp hall b hb
      have hvalid : b.toNat.isValidChar := .inl (by omega)
      rw [Char.ofNat, dif_pos hvalid]
      rfl
    have hascii : (bytes.map fun b => Char.ofNat b.toNat).all (fun c => c.toNat < 128) = true := by
      simp only [List.all_map, List.all_eq_true]
      intro b hb
      simpa [hback b hb] using List.all_eq_true.mp hall b hb
    rw [asciiBytes, if_pos hascii, List.map_map]
    congr 1
    conv_rhs => rw [← List.map_id bytes]
    refine List.map_congr_left fun b hb => ?_
    simp [hback b hb]
  · cases h

theorem ascii_of_plainChar {c : Char} (h : plainChar c = true) : c.toNat < 128 := by
  simp only [plainChar, Bool.and_eq_true, decide_eq_true_eq] at h
  omega

theorem ascii_cons {c : Char} {cs : List Char} (hc : c.toNat < 128)
    (hcs : ∀ c ∈ cs, c.toNat < 128) : ∀ d ∈ c :: cs, d.toNat < 128 :=
  List.forall_mem_cons.mpr ⟨hc, hcs⟩

theorem ascii_append {a b : List Char} (ha : ∀ c ∈ a, c.toNat < 128)
    (hb : ∀ c ∈ b, c.toNat < 128) : ∀ c ∈ a ++ b, c.toNat < 128 :=
  List.forall_mem_append.mpr ⟨ha, hb⟩

theorem dumpsString_ascii {s : String} (h : plainString s = true) :
    ∀ c ∈ dumpsString s, c.toNat < 128 :=
  ascii_append (ascii_cons (by decide) fun c hc => ascii_of_plainChar (List.all_eq_true.mp h c hc))
    (ascii_cons (by decide) (by simp))

theorem toDigits_ascii (n : Nat) : ∀ c ∈ Nat.toDigits 10 n, c.toNat < 128 := by
  intro c hc
  have hdigit : c.isDigit = true := Nat.isDigit_of_mem_toDigits (by decide) (by decide) hc
  simp only [Char.isDigit, Bool.and_eq_true, decide_eq_true_eq] at hdigit
  have hle : c.val.toNat ≤ 57 := hdigit.2
  exact Nat.lt_of_le_of_lt hle (by decide)

theorem dumpsInt_ascii (n : Int) : ∀ c ∈ dumpsInt n, c.toNat < 128 := by
  cases n with
  | ofNat n => exact toDigits_ascii n
  | negSucc n => exact ascii_cons (by decide) (toDigits_ascii (n + 1))

mutual
/-- The text of a value is ASCII. -/
theorem dumps_ascii : ∀ j : Json, j.plain = true → ∀ c ∈ j.dumps, c.toNat < 128
  | .null, _ => by simp [dumps]
  | .bool true, _ => by simp [dumps]
  | .bool false, _ => by simp [dumps]
  | .int n, _ => by
      rw [dumps]
      exact dumpsInt_ascii n
  | .str s, hp => by
      rw [dumps]
      exact dumpsString_ascii hp
  | .arr [], _ => by simp [dumps]
  | .arr (j :: items), hp => by
      obtain ⟨hj, hitems⟩ : j.plain = true ∧ plainItems items = true := by
        simpa [plain, plainItems] using hp
      rw [dumps]
      exact ascii_cons (by decide) (ascii_append (dumps_ascii j hj) (dumpsItems_ascii items hitems))
  | .obj [], _ => by simp [dumps]
  | .obj ((k, j) :: fields), hp => by
      obtain ⟨⟨hk, hj⟩, hfields⟩ : (plainString k = true ∧ j.plain = true) ∧
          plainFields fields = true := by
        simpa [plain, plainFields] using hp
      rw [dumps]
      exact ascii_cons (by decide) (ascii_append (dumpsString_ascii hk) (ascii_cons (by decide)
        (ascii_append (dumps_ascii j hj) (dumpsFields_ascii fields hfields))))
theorem dumpsItems_ascii : ∀ items : List Json, plainItems items = true →
    ∀ c ∈ dumpsItems items, c.toNat < 128
  | [], _ => by simp [dumpsItems]
  | j :: items, hp => by
      obtain ⟨hj, hitems⟩ : j.plain = true ∧ plainItems items = true := by
        simpa [plainItems] using hp
      rw [dumpsItems]
      exact ascii_cons (by decide) (ascii_append (dumps_ascii j hj) (dumpsItems_ascii items hitems))
theorem dumpsFields_ascii : ∀ fields : List (String × Json), plainFields fields = true →
    ∀ c ∈ dumpsFields fields, c.toNat < 128
  | [], _ => by simp [dumpsFields]
  | (k, j) :: fields, hp => by
      obtain ⟨⟨hk, hj⟩, hfields⟩ : (plainString k = true ∧ j.plain = true) ∧
          plainFields fields = true := by
        simpa [plainFields] using hp
      rw [dumpsFields]
      exact ascii_cons (by decide) (ascii_append (dumpsString_ascii hk) (ascii_cons (by decide)
        (ascii_append (dumps_ascii j hj) (dumpsFields_ascii fields hfields))))
end

end Ascii

end Json

end HccastWired.Foundation
