import HccastWired.Foundation.PyJsonText

/-!
# Texts that are cut short

The decoder on the first part of a text of the encoder. It stops at the end of the part,
or in a string that has not ended, unless the part ends in a `\u` escape or right behind
one.
-/

namespace HccastWired.Foundation.PyJson

section Pieces

/-- The first characters of a text that is written in pieces end in a `\u` escape, after
its second character, or right behind it. -/
def cutsEscape : List (List Char) → Nat → Bool
  | [], _ => false
  | piece :: pieces, n =>
      if n ≤ piece.length then piece.take 2 = ['\\', 'u'] && 2 ≤ n
      else cutsEscape pieces (n - piece.length)

def codesPieces (codes : List Nat) : List (List Char) :=
  codes.flatMap codePieces

def Scalar.pieces : Scalar → List (List Char)
  | .str codes => ['"'] :: (codesPieces codes ++ [['"']])
  | s => [s.dump]

def fieldPieces (l : Layout) (field : List Nat × Scalar) : List (List Char) :=
  ['"'] :: (codesPieces field.1 ++ ['"'] :: [':'] :: l.gap :: field.2.pieces)

def fieldsPieces (l : Layout) : List (List Nat × Scalar) → List (List Char)
  | [] => []
  | [field] => l.indent :: (fieldPieces l field ++ [l.last, ['}']])
  | field :: fields => l.indent :: (fieldPieces l field ++ [','] :: fieldsPieces l fields)

/-- The text of a mapping in pieces. -/
def dictPieces (l : Layout) (fields : List (List Nat × Scalar)) : List (List Char) :=
  ['{'] :: fieldsPieces l fields

variable {l : Layout} {codes : List Nat}

theorem flatten_codesPieces (codes : List Nat) : (codesPieces codes).flatten = dumpCodes codes := by
  induction codes with
  | nil => rfl
  | cons code codes ih =>
    rw [dumpCodes_cons, ← ih]
    simp [codesPieces]

theorem Scalar.flatten_pieces (s : Scalar) : s.pieces.flatten = s.dump := by
  cases s with
  | str codes => simp [Scalar.pieces, Scalar.dump, flatten_codesPieces]
  | bool b => simp [Scalar.pieces]
  | int n => simp [Scalar.pieces]

theorem flatten_fieldPieces (l : Layout) (field : List Nat × Scalar) :
    (fieldPieces l field).flatten = dumpField l field := by
  simp [fieldPieces, dumpField, flatten_codesPieces, Scalar.flatten_pieces]

theorem flatten_fieldsPieces (l : Layout) (fields : List (List Nat × Scalar)) :
    (fieldsPieces l fields).flatten = dumpFields l fields := by
  induction fields with
  | nil => rfl
  | cons field more ih =>
    cases more with
    | nil => simp [fieldsPieces, dumpFields, flatten_fieldPieces]
    | cons next more =>
      rw [fieldsPieces.eq_3 _ _ _ (by simp), dumpFields.eq_3 _ _ _ (by simp), ← ih]
      simp [flatten_fieldPieces]

/-- The pieces make up the text. -/
theorem flatten_dictPieces (l : Layout) (fields : List (List Nat × Scalar)) :
    (dictPieces l fields).flatten = dumpDict l fields := by
  rw [dictPieces, List.flatten_cons, flatten_fieldsPieces]
  rfl

theorem cutsEscape_append (xs ys : List (List Char)) (n : Nat) :
    cutsEscape (xs ++ ys) n =
      if n ≤ xs.flatten.length then cutsEscape xs n else cutsEscape ys (n - xs.flatten.length) := by
  induction xs generalizing n with
  | nil =>
    cases n with
    | zero =>
      cases ys with
      | nil => rfl
      | cons piece pieces => simp [cutsEscape]
    | succ n => simp
  | cons piece pieces ih =>
    simp only [List.cons_append, cutsEscape, List.flatten_cons, List.length_append, ih]
    split_ifs with h₁ h₂ h₃ h₄ <;> first | rfl | omega | (congr 1; omega)

end Pieces

section Codes

variable {α β : Type} {quote fuel n : Nat} {codes : List Nat}

/-- The text that ends here may go on. -/
def Fault.unfinished : Fault → Bool
  | .decode message left =>
      message = .unterminatedString ||
        (left = 0 && (message = .expectingValue || message = .propertyName || message = .colon ||
          message = .comma))
  | _ => false

/-- The decoder stops where the text has been cut. -/
def Stops (inEscape : Bool) (x : Except Fault α) : Prop :=
  ∃ e, x = .error e ∧
    if inEscape = true then ∃ left, e = .decode .invalidUnicodeEscape (left + 1)
    else e.unfinished = true

theorem Stops.bind {inEscape : Bool} {x : Except Fault α} {f : α → Except Fault β}
    (h : Stops inEscape x) : Stops inEscape (x >>= f) := by
  obtain ⟨e, rfl, he⟩ := h
  exact ⟨e, rfl, he⟩

theorem Stops.map {inEscape : Bool} {x : Except Fault α} {f : α → β} (h : Stops inEscape x) :
    Stops inEscape (x.map f) := by
  obtain ⟨e, rfl, he⟩ := h
  exact ⟨e, rfl, he⟩

theorem stops_unterminated {text : List Char} (h : nextCode quote text =
    .error (.decode .unterminatedString quote)) : Stops false (scanCodes quote fuel text) := by
  cases fuel with
  | zero => exact ⟨_, rfl, rfl⟩
  | succ fuel =>
    rw [scanCodes, h]
    exact ⟨_, rfl, rfl⟩

/-- An escape that is cut after its second character or right behind it. -/
theorem stops_digits {digits : List Char} (h : digits.length ≤ 4) :
    Stops true (scanCodes quote (fuel + 1) ('\\' :: 'u' :: digits)) := by
  rw [scanCodes, nextCode_escape, unicodeEscape, hexDigits_short h]
  exact ⟨_, rfl, by rw [if_pos rfl]; exact ⟨_, rfl⟩⟩

theorem length_unitEscape (code : Nat) : (unitEscape code).length = 6 := rfl

theorem cutsEscape_unit (code n : Nat) (pieces : List (List Char)) :
    cutsEscape (unitEscape code :: pieces) n =
      if n ≤ 6 then decide (2 ≤ n) else cutsEscape pieces (n - 6) := by
  have hescape : (unitEscape code).take 2 = ['\\', 'u'] := rfl
  change (if n ≤ 6 then decide ((unitEscape code).take 2 = ['\\', 'u']) && decide (2 ≤ n)
    else cutsEscape pieces (n - 6)) = _
  rw [decide_eq_true hescape, Bool.true_and]

/-- A `\u` escape that is cut anywhere, its end included. -/
theorem stops_unit (code : Nat) (hn : n ≤ 6) (hfuel : n ≤ fuel) :
    Stops (decide (2 ≤ n)) (scanCodes quote fuel ((unitEscape code).take n)) := by
  rw [unitEscape_eq]
  match n, hn with
  | 0, _ => exact stops_unterminated rfl
  | 1, _ => exact stops_unterminated rfl
  | n + 2, hn =>
    rw [List.take_succ_cons, List.take_succ_cons, decide_eq_true (by omega)]
    obtain ⟨fuel, rfl⟩ : ∃ k, fuel = k + 1 := ⟨fuel - 1, by omega⟩
    apply stops_digits
    rw [List.length_take, length_escapeDigits]
    omega

/-- A string without halves of surrogate pairs that is cut before its closing quote. -/
theorem stops_codes (hcodes : ∀ c ∈ codes, c < 0x110000) (hhigh : ∀ c ∈ codes, isHigh c = false)
    (hn : n ≤ (dumpCodes codes).length) (hfuel : n ≤ fuel) :
    Stops (cutsEscape (codesPieces codes) n) (scanCodes quote fuel ((dumpCodes codes).take n)) := by
  induction codes generalizing n fuel with
  | nil =>
    have hzero : n = 0 := Nat.le_zero.mp hn
    subst hzero
    exact stops_unterminated rfl
  | cons code codes ih =>
    rw [List.forall_mem_cons] at hcodes hhigh
    have hpieces : codesPieces (code :: codes) = codePieces code ++ codesPieces codes := rfl
    rw [dumpCodes_cons, List.take_append, hpieces, cutsEscape_append]
    split
    · next hle =>
      rw [Nat.sub_eq_zero_of_le hle, List.take_zero, List.append_nil]
      have hwritten := written_codePieces hcodes.1
      generalize codePieces code = pieces at hwritten hle
      cases hwritten with
      | short e hu he =>
        have hnot : cutsEscape [['\\', e]] n = false := by
          simp [cutsEscape, hu]
        rw [hnot, List.flatten_singleton]
        have hle : n ≤ 2 := hle
        obtain rfl | rfl | rfl : n = 0 ∨ n = 1 ∨ n = 2 := by omega
        · exact stops_unterminated rfl
        · exact stops_unterminated rfl
        · obtain ⟨fuel, rfl⟩ : ∃ k, fuel = k + 1 := ⟨fuel - 1, by omega⟩
          have hnext : nextCode quote ['\\', e] = .ok (some code, []) := by
            simp [nextCode, hu, he]
          rw [show List.take 2 ['\\', e] = ['\\', e] from rfl, scanCodes_succ hnext]
          exact (stops_unterminated rfl).map
      | plain c hquote hslash hc hcontrol =>
        have hnot : cutsEscape [[c]] n = false := by
          simp [cutsEscape, hslash]
        rw [hnot, List.flatten_singleton]
        have hle : n ≤ 1 := hle
        obtain rfl | rfl : n = 0 ∨ n = 1 := by omega
        · exact stops_unterminated rfl
        · obtain ⟨fuel, rfl⟩ : ∃ k, fuel = k + 1 := ⟨fuel - 1, by omega⟩
          have hnext : nextCode quote [c] = .ok (some code, []) := by
            simp [nextCode, hquote, hslash, hc, Nat.not_lt.mpr hcontrol]
          rw [show List.take 1 [c] = [c] from rfl, scanCodes_succ hnext]
          exact (stops_unterminated rfl).map
      | unit hunit =>
        rw [List.flatten_singleton] at hle ⊢
        rw [cutsEscape_unit, if_pos (show n ≤ 6 from hle)]
        exact stops_unit code hle hfuel
      | pair high low hh hl hjoin =>
        simp only [List.flatten_cons, List.flatten_nil, List.append_nil, List.length_append,
          length_unitEscape] at hle ⊢
        rw [cutsEscape_unit, cutsEscape_unit, if_pos (show n - 6 ≤ 6 by omega), List.take_append,
          length_unitEscape]
        split
        · next hfirst =>
          rw [Nat.sub_eq_zero_of_le hfirst, List.take_zero, List.append_nil]
          exact stops_unit high hfirst hfuel
        · next hsecond =>
          -- The second half is too short to be read with the first one.
          obtain ⟨fuel, rfl⟩ : ∃ k, fuel = k + 1 := ⟨fuel - 1, by omega⟩
          have htail : (unitEscape low).take (n - 6) ≠ [] := by
            rw [Ne, List.take_eq_nil_iff]
            simp only [unitEscape_eq, reduceCtorEq, or_false]
            omega
          have hshort : ((unitEscape low).take (n - 6)).length ≤ 6 := by
            rw [List.length_take, length_unitEscape]
            omega
          have hnext : nextCode quote (unitEscape high ++ (unitEscape low).take (n - 6)) =
              .ok (some high, (unitEscape low).take (n - 6)) := by
            rw [unitEscape_eq high, List.cons_append, List.cons_append, nextCode_escape,
              unicodeEscape_single (isHigh_lt hh) htail]
            · rfl
            · intro _ _ hlong
              omega
          rw [List.take_of_length_le (by rw [length_unitEscape]; omega), scanCodes_succ hnext]
          apply Stops.map
          apply stops_unit low
          · omega
          · omega
    · next hlt =>
      have hpos := length_flatten_pos hcodes.1
      obtain ⟨fuel, rfl⟩ : ∃ k, fuel = k + 1 := ⟨fuel - 1, by omega⟩
      rw [dumpCodes_cons, List.length_append] at hn
      have htail : (dumpCodes codes).take (n - (codePieces code).flatten.length) ≠ [] := by
        rw [Ne, List.take_eq_nil_iff, ← List.length_eq_zero_iff]
        omega
      have hnext := @nextCode_single quote code _ hcodes.1 htail fun hboth => by
        rw [hhigh.1] at hboth
        cases hboth
      rw [List.take_of_length_le (Nat.le_of_not_le hlt), scanCodes_succ hnext]
      apply Stops.map
      apply ih hcodes.2 hhigh.2
      · omega
      · omega

end Codes

section Fields

variable {l : Layout} {depth fuel n : Nat}

theorem cutsEscape_zero (pieces : List (List Char)) : cutsEscape pieces 0 = false := by
  cases pieces with
  | nil => rfl
  | cons piece pieces => simp [cutsEscape]

/-- A piece that is no escape is passed over. -/
theorem cutsEscape_plain {piece : List Char} {pieces : List (List Char)}
    (h : piece.take 2 ≠ ['\\', 'u']) :
    cutsEscape (piece :: pieces) n = cutsEscape pieces (n - piece.length) := by
  rw [cutsEscape]
  split
  · next hle => rw [Nat.sub_eq_zero_of_le hle, cutsEscape_zero, decide_eq_false h, Bool.false_and]
  · rfl

theorem take_two_of_blank {blanks : List Char} (h : blanks.all isBlank = true) :
    blanks.take 2 ≠ ['\\', 'u'] := by
  intro htake
  have hmem : '\\' ∈ blanks := List.mem_of_mem_take (htake ▸ List.mem_cons_self)
  have hblank := List.all_eq_true.mp h _ hmem
  revert hblank
  decide

theorem take_two_of_digits (k : Nat) : (Nat.toDigits 10 k).take 2 ≠ ['\\', 'u'] := by
  intro htake
  have hmem : '\\' ∈ Nat.toDigits 10 k := by
    apply List.mem_of_mem_take
    rw [htake]
    exact List.mem_cons_self
  have hdigit := toDigits_isDigit k _ hmem
  revert hdigit
  decide

theorem skipBlanks_blank {blanks : List Char} (h : blanks.all isBlank = true) (n : Nat) :
    skipBlanks (blanks.take n) = [] :=
  List.dropWhile_eq_nil_iff.mpr fun c hc => List.all_eq_true.mp h c (List.mem_of_mem_take hc)

/-- A text without halves of surrogate pairs, or an integer that is short enough. -/
def Scalar.Regular : Scalar → Prop
  | .bool _ => False
  | .int n => (Nat.toDigits 10 n).length ≤ maxDigits
  | .str codes => ∀ c ∈ codes, c < 0x110000 ∧ isHigh c = false

theorem Scalar.Regular.fits {s : Scalar} (h : s.Regular) : s.Fits := by
  cases s with
  | bool b => exact h.elim
  | int n => exact h
  | str codes => exact fun c hc => (h c hc).1

theorem cutsEscape_dump {s : Scalar} (h : s.Regular) {pieces : List (List Char)}
    (hn : s.dump.length ≤ n) :
    cutsEscape (s.pieces ++ pieces) n = cutsEscape pieces (n - s.dump.length) := by
  cases s with
  | bool b => exact h.elim
  | int k =>
    exact cutsEscape_plain (take_two_of_digits k)
  | str codes =>
    have hlength : (Scalar.str codes).dump.length = (dumpCodes codes).length + 2 := by
      simp [Scalar.dump]
    rw [hlength] at hn ⊢
    simp only [Scalar.pieces, List.cons_append, List.append_assoc, List.nil_append]
    rw [cutsEscape_plain (by decide), cutsEscape_append, flatten_codesPieces, List.length_singleton,
      if_neg (by omega), cutsEscape_plain (by decide), List.length_singleton]
    congr 1
    omega

/-- A value that is cut short: the decoder stops, or takes the first digits of an integer
for the whole. -/
theorem stops_dump {s : Scalar} (h : s.Regular) (hpos : 0 < n) (hn : n < s.dump.length)
    (pieces : List (List Char)) :
    Stops (cutsEscape (s.pieces ++ pieces) n) (scanOnce (fuel + 1) depth (s.dump.take n)) ∨
      cutsEscape (s.pieces ++ pieces) n = false ∧
        ∃ v, scanOnce (fuel + 1) depth (s.dump.take n) = .ok (v, []) := by
  cases s with
  | bool b => exact h.elim
  | int k =>
    right
    have hdigits := toDigits_isDigit k
    have htake : ∀ d ∈ (Nat.toDigits 10 k).take n, d.isDigit = true := fun d hd =>
      hdigits d (List.mem_of_mem_take hd)
    constructor
    · change cutsEscape (Nat.toDigits 10 k :: pieces) n = false
      have hle : n ≤ (Nat.toDigits 10 k).length := hn.le
      rw [cutsEscape_plain (take_two_of_digits k), Nat.sub_eq_zero_of_le hle, cutsEscape_zero]
    · have hne : (Nat.toDigits 10 k).take n ≠ [] := by
        rw [Ne, List.take_eq_nil_iff]
        rintro (rfl | hnil)
        · exact absurd hpos (by decide)
        · exact Nat.toDigits_ne_nil hnil
      have hzero : ((Nat.toDigits 10 k).take n).head? = some '0' →
          (Nat.toDigits 10 k).take n = ['0'] := by
        intro hhead
        rw [List.head?_take, if_neg hpos.ne'] at hhead
        rw [Scalar.dump, toDigits_zero hhead] at hn
        exact absurd hn (by simp; omega)
      have hlength : ((Nat.toDigits 10 k).take n).length ≤ maxDigits :=
        (List.length_take_le' n _).trans h
      have hscan := @scanNumber_digits [] _ htake hne hzero hlength (fun _ hc => by cases hc)
      rw [List.append_nil] at hscan
      obtain ⟨d, ds, hds⟩ := List.exists_cons_of_ne_nil hne
      refine ⟨.int (Nat.ofDigitChars 10 ((Nat.toDigits 10 k).take n) 0), ?_⟩
      rw [Scalar.dump, hds, scanOnce_digit (htake d (hds ▸ List.mem_cons_self)), ← hds]
      exact hscan
  | str codes =>
    left
    have hlength : (Scalar.str codes).dump.length = (dumpCodes codes).length + 2 := by
      simp [Scalar.dump]
    obtain ⟨k, rfl⟩ : ∃ k, n = k + 1 := ⟨n - 1, by omega⟩
    rw [hlength] at hn
    have htake : (Scalar.str codes).dump.take (k + 1) = '"' :: (dumpCodes codes).take k := by
      rw [Scalar.dump, List.take_succ_cons, List.take_append_of_le_length (by omega)]
    have hcut : cutsEscape ((Scalar.str codes).pieces ++ pieces) (k + 1) =
        cutsEscape (codesPieces codes) k := by
      simp only [Scalar.pieces, List.cons_append, List.append_assoc]
      rw [cutsEscape_plain (by decide), cutsEscape_append, flatten_codesPieces,
        List.length_singleton, Nat.add_sub_cancel, if_pos (by omega)]
    have hstop := @stops_codes (((dumpCodes codes).take k).length + 1)
      ((dumpCodes codes).take k).length k codes (fun c hc => (h c hc).1) (fun c hc => (h c hc).2)
      (by omega) (by rw [List.length_take]; omega)
    rw [htake, hcut]
    simp only [scanOnce, if_true]
    exact hstop.bind

/-- What the decoder does after a field's key. -/
def afterKey (fuel depth : Nat) (key : List Nat) (text : List Char) :
    Except Fault (List (List Nat × Value) × List Char) := do
  let rest ← expect ':' .colon (skipBlanks text)
  let (value, rest) ← scanOnce fuel depth (skipBlanks rest)
  closeField fuel depth (key, value) rest

theorem scanFields_quote {rest : List Char} : scanFields (fuel + 1) depth ('"' :: rest) = (do
    let (key, rest) ← scanString rest
    afterKey fuel depth key rest) := by
  rw [scanFields]
  rfl

theorem stops_nothing (fuel : Nat) : Stops false (scanFields fuel depth []) := by
  cases fuel with
  | zero => exact ⟨_, rfl, rfl⟩
  | succ fuel => exact ⟨_, rfl, rfl⟩

theorem closeField_nil (field : List Nat × Value) : Stops false (closeField fuel depth field []) :=
  ⟨_, rfl, rfl⟩

variable {close : List Char} {closePieces : List (List Char)} {field : List Nat × Scalar}

/-- A field's colon and value, cut short. -/
theorem stops_afterKey {s : Scalar} {key : List Nat} (h : s.Regular)
    (hends : ∀ m, NumberEnds (close.take m))
    (hclose : ∀ m v, m < close.length → m ≤ n → Stops (cutsEscape closePieces m)
      (closeField (fuel + 1) depth (key, v) (close.take m)))
    (hn : n < (':' :: (l.gap ++ (s.dump ++ close))).length) :
    Stops (cutsEscape ([':'] :: l.gap :: (s.pieces ++ closePieces)) n)
      (afterKey (fuel + 1) depth key ((':' :: (l.gap ++ (s.dump ++ close))).take n)) := by
  cases n with
  | zero =>
    rw [cutsEscape_zero]
    exact ⟨_, rfl, rfl⟩
  | succ n =>
    rw [cutsEscape_plain (by decide), cutsEscape_plain (take_two_of_blank l.blank.2.1),
      List.length_singleton, List.take_succ_cons, Nat.add_sub_cancel]
    simp only [List.length_cons, List.length_append] at hn
    have hcolon : ∀ rest, afterKey (fuel + 1) depth key (':' :: rest) = (do
        let (value, rest) ← scanOnce (fuel + 1) depth (skipBlanks rest)
        closeField (fuel + 1) depth (key, value) rest) := by
      intro rest
      rw [afterKey, skipBlanks_cons rfl]
      rfl
    rw [hcolon]
    by_cases hgap : n ≤ l.gap.length
    · rw [List.take_append_of_le_length hgap, skipBlanks_blank l.blank.2.1,
        Nat.sub_eq_zero_of_le hgap, cutsEscape_zero]
      exact ⟨_, rfl, rfl⟩
    · obtain ⟨c, rest, hdump, hblank⟩ := s.dump_head
      have hskip : skipBlanks ((l.gap ++ (s.dump ++ close)).take n) =
          (s.dump ++ close).take (n - l.gap.length) := by
        obtain ⟨k, hk⟩ : ∃ k, n - l.gap.length = k + 1 := ⟨n - l.gap.length - 1, by omega⟩
        rw [List.take_append, List.take_of_length_le (by omega), skipBlanks_append l.blank.2.1, hdump,
          hk, List.cons_append, List.take_succ_cons, skipBlanks_cons hblank]
      rw [hskip]
      by_cases hvalue : n - l.gap.length < s.dump.length
      · rw [List.take_append_of_le_length hvalue.le]
        rcases stops_dump h (by omega) hvalue closePieces with hstop | ⟨hcut, v, hv⟩
        · exact hstop.bind
        · rw [hcut, hv]
          exact @closeField_nil depth (fuel + 1) (key, v)
      · have hle := Nat.le_of_not_lt hvalue
        rw [List.take_append, List.take_of_length_le hle, scanOnce_dump h.fits (hends _),
          cutsEscape_dump h hle]
        exact hclose _ _ (by omega) (by omega)

/-- A field and what closes it, cut short. -/
theorem stops_field (hkey : ∀ c ∈ field.1, c < 0x110000 ∧ isHigh c = false)
    (h : field.2.Regular) (hends : ∀ m, NumberEnds (close.take m))
    (hclose : ∀ m v, m < close.length → m ≤ n → Stops (cutsEscape closePieces m)
      (closeField (fuel + 1) depth (merge field.1, v) (close.take m)))
    (hn : n < (l.indent ++ (dumpField l field ++ close)).length) :
    Stops (cutsEscape (l.indent :: (fieldPieces l field ++ closePieces)) n)
      (scanFields (fuel + 2) depth (skipBlanks ((l.indent ++ (dumpField l field ++ close)).take n))) := by
  rw [cutsEscape_plain (take_two_of_blank l.blank.1)]
  by_cases hindent : n ≤ l.indent.length
  · rw [List.take_append_of_le_length hindent, skipBlanks_blank l.blank.1,
      Nat.sub_eq_zero_of_le hindent, cutsEscape_zero]
    exact stops_nothing _
  · obtain ⟨k, hk⟩ : ∃ k, n - l.indent.length = k + 1 := ⟨n - l.indent.length - 1, by omega⟩
    have hskip : skipBlanks ((l.indent ++ (dumpField l field ++ close)).take n) =
        '"' :: (dumpCodes field.1 ++ '"' :: ':' :: (l.gap ++ (field.2.dump ++ close))).take k := by
      rw [List.take_append, List.take_of_length_le (by omega), skipBlanks_append l.blank.1, hk,
        dumpField]
      simp only [List.cons_append, List.append_assoc, List.take_succ_cons]
      exact skipBlanks_cons rfl
    simp only [List.length_append, dumpField, List.length_cons] at hn
    rw [hskip, hk, scanFields_quote]
    simp only [fieldPieces, List.cons_append, List.append_assoc]
    rw [cutsEscape_plain (by decide), List.length_singleton, Nat.add_sub_cancel, cutsEscape_append,
      flatten_codesPieces]
    by_cases hcodes : k ≤ (dumpCodes field.1).length
    · rw [if_pos hcodes, List.take_append_of_le_length hcodes]
      apply Stops.bind
      apply stops_codes (fun c hc => (hkey c hc).1) (fun c hc => (hkey c hc).2) hcodes
      rw [List.length_take]
      omega
    · obtain ⟨j, hj⟩ : ∃ j, k - (dumpCodes field.1).length = j + 1 :=
        ⟨k - (dumpCodes field.1).length - 1, by omega⟩
      rw [if_neg hcodes, hj, cutsEscape_plain (by decide), List.length_singleton, Nat.add_sub_cancel,
        List.take_append, List.take_of_length_le (by omega), hj, List.take_succ_cons,
        scanString_dumpCodes fun c hc => (hkey c hc).1]
      apply stops_afterKey h hends
      · intro m v hm hle
        exact hclose m v hm (by omega)
      · simp only [List.length_cons, List.length_append]
        omega

/-- The last field is closed by a brace. -/
theorem stops_close_last (field : List Nat × Value) (hn : n < (l.last ++ ['}']).length) :
    Stops (cutsEscape [l.last, ['}']] n) (closeField fuel depth field ((l.last ++ ['}']).take n)) := by
  rw [List.length_append, List.length_singleton] at hn
  rw [cutsEscape_plain (take_two_of_blank l.blank.2.2), Nat.sub_eq_zero_of_le (by omega),
    cutsEscape_zero, List.take_append_of_le_length (by omega), closeField,
    skipBlanks_blank l.blank.2.2]
  exact ⟨_, rfl, rfl⟩

theorem stops_close_comma {more : List Char} {pieces : List (List Char)}
    (field : List Nat × Value) (hmore : ∀ m, m < more.length → m < n →
      Stops (cutsEscape pieces m) (scanFields fuel depth (skipBlanks (more.take m))))
    (hn : n < (',' :: more).length) :
    Stops (cutsEscape ([','] :: pieces) n) (closeField fuel depth field ((',' :: more).take n)) := by
  cases n with
  | zero =>
    rw [cutsEscape_zero]
    exact closeField_nil field
  | succ n =>
    rw [cutsEscape_plain (by decide), List.length_singleton, Nat.add_sub_cancel,
      List.take_succ_cons, closeField, skipBlanks_cons (by rfl), List.head?_cons,
      if_neg (by decide)]
    rw [List.length_cons] at hn
    exact (hmore n (by omega) (by omega)).bind

theorem numberEnds_take {text : List Char} (h : NumberEnds text) (m : Nat) :
    NumberEnds (text.take m) := by
  intro c hc
  rw [List.head?_take] at hc
  split at hc
  · cases hc
  · exact h c hc

/-- A field of a text that can be cut anywhere but in its escapes. -/
def Regular (field : List Nat × Scalar) : Prop :=
  (∀ c ∈ field.1, c < 0x110000 ∧ isHigh c = false) ∧ field.2.Regular

theorem Regular.fits {field : List Nat × Scalar} (h : Regular field) : Fits field :=
  ⟨fun c hc => (h.1 c hc).1, h.2.fits⟩

/-- The fields of a mapping, cut short. -/
theorem stops_fields (fields : List (List Nat × Scalar)) (h : ∀ field ∈ fields, Regular field)
    (hn : n < (dumpFields l fields).length) (hfuel : 2 * n + 1 ≤ fuel) :
    Stops (cutsEscape (fieldsPieces l fields) n)
      (scanFields fuel depth (skipBlanks ((dumpFields l fields).take n))) := by
  induction fields generalizing n fuel with
  | nil => cases hn
  | cons field more ih =>
    rw [List.forall_mem_cons] at h
    cases n with
    | zero =>
      rw [cutsEscape_zero]
      exact stops_nothing fuel
    | succ n =>
      obtain ⟨fuel, rfl⟩ : ∃ k, fuel = k + 2 := ⟨fuel - 2, by omega⟩
      cases more with
      | nil =>
        rw [dumpFields, List.append_assoc, List.append_assoc] at hn ⊢
        rw [fieldsPieces]
        apply stops_field h.1.1 h.1.2
        · exact numberEnds_take (numberEnds_last l)
        · intro m v hm _
          exact stops_close_last _ hm
        · exact hn
      | cons next more =>
        rw [fieldsPieces.eq_3 _ _ _ (by simp)]
        rw [dumpFields.eq_3 _ _ _ (by simp), List.append_assoc] at hn ⊢
        apply stops_field h.1.1 h.1.2
        · exact numberEnds_take (numberEnds_cons (by decide))
        · intro m v hm hle
          apply stops_close_comma _ _ hm
          intro k hk hlt
          exact ih h.2 hk (by omega)
        · exact hn

theorem dumpFields_quote {fields : List (List Nat × Scalar)} (hne : fields ≠ []) :
    ∃ rest, dumpFields l fields = l.indent ++ '"' :: rest := by
  cases fields with
  | nil => exact absurd rfl hne
  | cons field more =>
    cases more with
    | nil => exact ⟨_, by rw [dumpFields, List.append_assoc, List.append_assoc, dumpField]; rfl⟩
    | cons next more =>
      exact ⟨_, by
        rw [dumpFields.eq_3 _ _ _ (by simp), List.append_assoc, dumpField]
        rfl⟩

/-- A text that is not cut. -/
theorem cutsEscape_end {fields : List (List Nat × Scalar)} (hne : fields ≠ [])
    (hn : (dumpDict l fields).length ≤ n) : cutsEscape (dictPieces l fields) n = false := by
  have hlast : ∃ pieces, dictPieces l fields = pieces ++ [['}']] := by
    rw [dictPieces]
    clear hn
    induction fields with
    | nil => exact absurd rfl hne
    | cons field more ih =>
      cases more with
      | nil => exact ⟨['{'] :: l.indent :: (fieldPieces l field ++ [l.last]), by simp [fieldsPieces]⟩
      | cons next more =>
        obtain ⟨pieces, hpieces⟩ := ih (List.cons_ne_nil _ _)
        refine ⟨['{'] :: l.indent :: (fieldPieces l field ++ [','] :: pieces.tail), ?_⟩
        cases pieces with
        | nil => cases hpieces
        | cons piece pieces =>
          rw [List.cons_append, List.cons.injEq] at hpieces
          rw [fieldsPieces.eq_3 _ _ _ (by simp), hpieces.2]
          simp
  obtain ⟨pieces, hpieces⟩ := hlast
  have hflat := flatten_dictPieces l fields
  rw [← hflat, hpieces, List.flatten_append, List.length_append] at hn
  rw [hpieces, cutsEscape_append, if_neg, cutsEscape_plain (by decide)]
  · rfl
  · have hone : ([['}']] : List (List Char)).flatten.length = 1 := rfl
    omega

theorem skipBlanks_fields_take {fields : List (List Nat × Scalar)} (hne : fields ≠ []) :
    (skipBlanks ((dumpFields l fields).take n)).head? ≠ some '}' := by
  obtain ⟨rest, hrest⟩ := @dumpFields_quote l fields hne
  rw [hrest]
  by_cases hindent : n ≤ l.indent.length
  · rw [List.take_append_of_le_length hindent, skipBlanks_blank l.blank.1]
    simp
  · obtain ⟨k, hk⟩ : ∃ k, n - l.indent.length = k + 1 := ⟨n - l.indent.length - 1, by omega⟩
    rw [List.take_append, List.take_of_length_le (by omega), skipBlanks_append l.blank.1, hk,
      List.take_succ_cons, skipBlanks_cons (by rfl), List.head?_cons]
    decide

/-- The decoder on the first characters of a mapping's text. -/
theorem stops_dict {fields : List (List Nat × Scalar)} (hne : fields ≠ [])
    (h : ∀ field ∈ fields, Regular field) (hpos : 0 < n) (hn : n < (dumpDict l fields).length) :
    Stops (cutsEscape (dictPieces l fields) n)
      (rawDecode (depth + 1) ((dumpDict l fields).take n)) := by
  obtain ⟨n, rfl⟩ : ∃ k, n = k + 1 := ⟨n - 1, by omega⟩
  have hlt : n < (dumpFields l fields).length := by
    rw [dumpDict, List.length_cons] at hn
    omega
  have hhead := @skipBlanks_fields_take l n fields hne
  rw [dictPieces, dumpDict, List.take_succ_cons, cutsEscape_plain (by decide),
    List.length_singleton, Nat.add_sub_cancel, rawDecode, List.length_cons, List.length_take,
    Nat.min_eq_left hlt.le, Nat.mul_succ, scanOnce_brace hhead]
  apply Stops.map
  exact stops_fields fields h hlt (Nat.le_refl _)

end Fields

end HccastWired.Foundation.PyJson
