import HccastWired.Foundation.Json
import HccastWired.Foundation.PyJson

/-!
# Texts of the encoder under the decoder

What the decoder reads from a text of the encoder, and from a text that is cut short.
-/

namespace HccastWired.Foundation.PyJson

section Escapes

theorem hexValue_hexDigit {n : Nat} (h : n < 16) : hexValue (hexDigit n) = some n := by
  have hall : (List.range 16).all (fun n => hexValue (hexDigit n) == some n) = true := by
    decide
  simpa using List.all_eq_true.mp hall n (List.mem_range.mpr h)

/-- The digits of an escape after its first two characters. -/
def escapeDigits (n : Nat) : List Char :=
  [hexDigit (n / 4096 % 16), hexDigit (n / 256 % 16), hexDigit (n / 16 % 16), hexDigit (n % 16)]

theorem unitEscape_eq (n : Nat) : unitEscape n = '\\' :: 'u' :: escapeDigits n := rfl

theorem hexDigits_escapeDigits {n : Nat} {tail : List Char} (h : n < 0x10000) (htail : tail ≠ []) :
    hexDigits (escapeDigits n ++ tail) = some (n, tail) := by
  have hlast : ∀ k, k % 16 < 16 := fun k => Nat.mod_lt k (by decide)
  simp only [escapeDigits, List.cons_append, List.nil_append, hexDigits, if_neg htail,
    hexValue_hexDigit (hlast _), Option.bind_eq_bind, Option.bind_some, Option.some.injEq,
    Prod.mk.injEq, and_true]
  omega

theorem hexDigits_short {text : List Char} (h : text.length ≤ 4) : hexDigits text = none := by
  match text, h with
  | [], _ => rfl
  | [_], _ => rfl
  | [_, _], _ => rfl
  | [_, _, _], _ => rfl
  | [_, _, _, _], _ => rfl

theorem joinPair_halves {code : Nat} (h : 0x10000 ≤ code) :
    joinPair (0xD800 + (code - 0x10000) / 0x400) (0xDC00 + (code - 0x10000) % 0x400) = code := by
  have hsplit := Nat.div_add_mod (code - 0x10000) 0x400
  have hcode : code - 0x10000 + 0x10000 = code := Nat.sub_add_cancel h
  generalize code - 0x10000 = m at *
  generalize m / 0x400 = q at *
  generalize m % 0x400 = r at *
  unfold joinPair
  omega

/-- How the encoder writes a code point. -/
inductive Written (code : Nat) : List (List Char) → Prop
  | short (e : Char) (hu : e ≠ 'u') (he : shortEscape e = some code) : Written code [['\\', e]]
  | plain (c : Char) (hquote : c ≠ '"') (hslash : c ≠ '\\') (hcode : c.toNat = code)
      (hcontrol : 32 ≤ code) : Written code [[c]]
  | unit (hcode : code < 0x10000) : Written code [unitEscape code]
  | pair (high low : Nat) (hhigh : isHigh high = true) (hlow : isLow low = true)
      (hjoin : joinPair high low = code) : Written code [unitEscape high, unitEscape low]

theorem written_codePieces {code : Nat} (h : code < 0x110000) :
    Written code (codePieces code) := by
  unfold codePieces
  split
  · next hc => exact .short '"' (by decide) (by rw [hc]; rfl)
  split
  · next hc => exact .short '\\' (by decide) (by rw [hc]; rfl)
  split
  · next hc => exact .short 'b' (by decide) (by rw [hc]; rfl)
  split
  · next hc => exact .short 'f' (by decide) (by rw [hc]; rfl)
  split
  · next hc => exact .short 'n' (by decide) (by rw [hc]; rfl)
  split
  · next hc => exact .short 'r' (by decide) (by rw [hc]; rfl)
  split
  · next hc => exact .short 't' (by decide) (by rw [hc]; rfl)
  split
  · next hquote hslash _ _ _ _ _ hplain =>
    have hcode : (Char.ofNat code).toNat = code := by
      have hvalid : code.isValidChar := .inl (by omega)
      rw [Char.ofNat, dif_pos hvalid]
      rfl
    refine .plain (Char.ofNat code) ?_ ?_ hcode hplain.1
    · intro hc
      rw [hc] at hcode
      exact hquote hcode.symm
    · intro hc
      rw [hc] at hcode
      exact hslash hcode.symm
  split
  · next hunit => exact .unit hunit
  · next hastral =>
    apply Written.pair
    · simp only [isHigh, Bool.and_eq_true, decide_eq_true_eq]
      omega
    · simp only [isLow, Bool.and_eq_true, decide_eq_true_eq]
      omega
    · exact joinPair_halves (by omega)

end Escapes

section Strings

theorem isHigh_lt {code : Nat} (h : isHigh code = true) : code < 0x10000 := by
  simp only [isHigh, Bool.and_eq_true, decide_eq_true_eq] at h
  omega

theorem isLow_lt {code : Nat} (h : isLow code = true) : code < 0x10000 := by
  simp only [isLow, Bool.and_eq_true, decide_eq_true_eq] at h
  omega

theorem not_isLow_of_isHigh {code : Nat} (h : isHigh code = true) : isLow code = false := by
  simp only [isHigh, Bool.and_eq_true, decide_eq_true_eq] at h
  simp only [isLow, Bool.and_eq_false_iff, decide_eq_false_iff_not]
  omega

/-- What the decoder makes of halves of surrogate pairs that stand next to each other. -/
def merge : List Nat → List Nat
  | high :: low :: codes =>
      if isHigh high ∧ isLow low then joinPair high low :: merge codes
      else high :: merge (low :: codes)
  | codes => codes

variable {quote code : Nat} {tail : List Char} {codes : List Nat}

theorem length_escapeDigits (n : Nat) : (escapeDigits n).length = 4 := rfl

@[simp] theorem dumpCodes_nil : dumpCodes [] = [] := rfl

@[simp] theorem dumpCodes_cons :
    dumpCodes (code :: codes) = (codePieces code).flatten ++ dumpCodes codes := rfl

/-- An escape of a half that begins no pair, or of another code point. -/
theorem unicodeEscape_single (hcode : code < 0x10000) (htail : tail ≠ [])
    (h : isHigh code = true → tail.take 2 = ['\\', 'u'] → 6 < tail.length →
      ∃ low more, hexDigits (tail.drop 2) = some (low, more) ∧ isLow low = false) :
    unicodeEscape (escapeDigits code ++ tail) = .ok (code, tail) := by
  unfold unicodeEscape
  rw [hexDigits_escapeDigits hcode htail]
  dsimp only
  split
  · next hpair =>
    obtain ⟨low, more, hlow, hnot⟩ := h hpair.1 hpair.2.1 hpair.2.2
    simp [hlow, hnot]
  · rfl

theorem unicodeEscape_pair {high low : Nat} (hhigh : isHigh high = true) (hlow : isLow low = true)
    (htail : tail ≠ []) :
    unicodeEscape (escapeDigits high ++ (unitEscape low ++ tail)) = .ok (joinPair high low, tail) := by
  have hlength := List.length_pos_iff.mpr htail
  have hcond : isHigh high = true ∧ (unitEscape low ++ tail).take 2 = ['\\', 'u'] ∧
      6 < (unitEscape low ++ tail).length := by
    refine ⟨hhigh, by simp [unitEscape_eq], ?_⟩
    simp only [unitEscape_eq, List.cons_append, List.length_cons, List.length_append,
      length_escapeDigits]
    omega
  have hdigits : hexDigits ((unitEscape low ++ tail).drop 2) = some (low, tail) :=
    hexDigits_escapeDigits (isLow_lt hlow) htail
  unfold unicodeEscape
  rw [hexDigits_escapeDigits (isHigh_lt hhigh) (by simp [unitEscape_eq])]
  dsimp only
  rw [if_pos hcond, hdigits]
  simp [hlow]

theorem nextCode_escape (text : List Char) :
    nextCode quote ('\\' :: 'u' :: text) =
      (unicodeEscape text).map fun (code, rest) => (some code, rest) := by
  simp [nextCode]

/-- The first code point of the rest of a string. -/
theorem nextCode_single (hcode : code < 0x110000) (htail : tail ≠ [])
    (h : isHigh code = true → tail.take 2 = ['\\', 'u'] → 6 < tail.length →
      ∃ low more, hexDigits (tail.drop 2) = some (low, more) ∧ isLow low = false) :
    nextCode quote ((codePieces code).flatten ++ tail) = .ok (some code, tail) := by
  have hwritten := written_codePieces hcode
  generalize codePieces code = pieces at hwritten
  cases hwritten with
  | short e hu he => simp [nextCode, hu, he]
  | plain c hquote hslash hc hcontrol => simp [nextCode, hquote, hslash, hc, Nat.not_lt.mpr hcontrol]
  | unit hunit =>
    rw [List.flatten_singleton, unitEscape_eq, List.cons_append, List.cons_append, nextCode_escape,
      unicodeEscape_single hunit htail h]
    rfl
  | pair high low hhigh hlow hjoin =>
    simp only [List.flatten_cons, List.flatten_nil, List.append_nil, List.append_assoc]
    rw [unitEscape_eq high, List.cons_append, List.cons_append, nextCode_escape,
      unicodeEscape_pair hhigh hlow htail, hjoin]
    rfl

/-- An escape that follows in a string is that of its first code point, or of a high half. -/
theorem following_escape (hcodes : ∀ c ∈ codes, c < 0x110000)
    (h : (dumpCodes codes ++ '"' :: tail).take 2 = ['\\', 'u']) :
    ∃ low more, hexDigits ((dumpCodes codes ++ '"' :: tail).drop 2) = some (low, more) ∧
      (isLow low = true → codes.head? = some low) := by
  cases codes with
  | nil => simp at h
  | cons code codes =>
    have hwritten := written_codePieces (hcodes code List.mem_cons_self)
    rw [dumpCodes_cons, List.append_assoc] at h ⊢
    have hrest : dumpCodes codes ++ '"' :: tail ≠ [] := by simp
    generalize dumpCodes codes ++ '"' :: tail = rest at *
    generalize codePieces code = pieces at hwritten h ⊢
    cases hwritten with
    | short e hu he =>
      simp only [List.flatten_singleton, List.cons_append, List.nil_append, List.take_succ_cons,
        List.take_zero, List.cons.injEq, true_and, and_true] at h
      exact (hu h).elim
    | plain c hquote hslash hc hcontrol =>
      simp only [List.flatten_singleton, List.cons_append, List.nil_append, List.take_succ_cons,
        List.cons.injEq] at h
      exact (hslash h.1).elim
    | unit hunit =>
      refine ⟨code, rest, ?_, fun _ => rfl⟩
      rw [List.flatten_singleton]
      exact hexDigits_escapeDigits hunit hrest
    | pair high low hhigh hlow hjoin =>
      refine ⟨high, unitEscape low ++ rest, ?_, fun hboth => ?_⟩
      · simp only [List.flatten_cons, List.flatten_nil, List.append_nil, List.append_assoc]
        exact hexDigits_escapeDigits (isHigh_lt hhigh) (by simp [unitEscape_eq])
      · rw [not_isLow_of_isHigh hhigh] at hboth
        cases hboth

theorem codePieces_half (h : isHigh code = true ∨ isLow code = true) :
    codePieces code = [unitEscape code] := by
  have hrange : 0xD800 ≤ code ∧ code < 0x10000 := by
    simp only [isHigh, isLow, Bool.and_eq_true, decide_eq_true_eq] at h
    omega
  unfold codePieces
  simp only [show code ≠ 34 by omega, show code ≠ 92 by omega, show code ≠ 8 by omega,
    show code ≠ 12 by omega, show code ≠ 10 by omega, show code ≠ 13 by omega,
    show code ≠ 9 by omega, show ¬ (32 ≤ code ∧ code ≤ 126) by omega, hrange.2, if_true, if_false]

theorem scanCodes_succ {fuel : Nat} {text rest : List Char}
    (h : nextCode quote text = .ok (some code, rest)) :
    scanCodes quote (fuel + 1) text =
      (scanCodes quote fuel rest).map fun (codes, rest) => (code :: codes, rest) := by
  rw [scanCodes, h]
  simp only [bind, Except.bind]
  cases scanCodes quote fuel rest with
  | ok result => rfl
  | error e => rfl

theorem length_flatten_pos (hcode : code < 0x110000) : 0 < (codePieces code).flatten.length := by
  have hwritten := written_codePieces hcode
  generalize codePieces code = pieces at hwritten
  cases hwritten with
  | short => simp
  | plain => simp
  | unit => simp [unitEscape_eq]
  | pair => simp [unitEscape_eq]

/-- The decoder reads a string of the encoder, but joins halves that stand next to each
other. -/
theorem scanCodes_dumpCodes (hcodes : ∀ c ∈ codes, c < 0x110000) :
    ∀ fuel, (dumpCodes codes).length < fuel →
      scanCodes quote fuel (dumpCodes codes ++ '"' :: tail) = .ok (merge codes, tail) := by
  induction codes using merge.induct with
  | case1 high low codes hpair ih =>
    intro fuel hfuel
    have hrest : dumpCodes codes ++ '"' :: tail ≠ [] := by simp
    obtain ⟨fuel, rfl⟩ := Nat.exists_eq_add_one_of_ne_zero (Nat.ne_zero_of_lt hfuel)
    rw [dumpCodes_cons, dumpCodes_cons, codePieces_half (.inl hpair.1),
      codePieces_half (.inr hpair.2), List.flatten_singleton, List.flatten_singleton] at hfuel ⊢
    have hnext : nextCode quote (unitEscape high ++ (unitEscape low ++ (dumpCodes codes ++
        '"' :: tail))) = .ok (some (joinPair high low), dumpCodes codes ++ '"' :: tail) := by
      rw [unitEscape_eq high, List.cons_append, List.cons_append, nextCode_escape,
        unicodeEscape_pair hpair.1 hpair.2 hrest]
      rfl
    rw [List.append_assoc, List.append_assoc, scanCodes_succ hnext, merge, if_pos hpair,
      ih (fun c hc => hcodes c (by simp [hc])) fuel]
    · rfl
    · simp only [List.length_append] at hfuel
      simp only [unitEscape_eq, List.length_cons] at hfuel
      omega
  | case2 high low codes hpair ih =>
    intro fuel hfuel
    obtain ⟨fuel, rfl⟩ := Nat.exists_eq_add_one_of_ne_zero (Nat.ne_zero_of_lt hfuel)
    have hrest : ∀ c ∈ low :: codes, c < 0x110000 := fun c hc => hcodes c (by simp [hc])
    have hhigh := hcodes high List.mem_cons_self
    have hnext : nextCode quote ((codePieces high).flatten ++ (dumpCodes (low :: codes) ++
        '"' :: tail)) = .ok (some high, dumpCodes (low :: codes) ++ '"' :: tail) := by
      apply nextCode_single hhigh (by simp)
      intro hboth htake _
      obtain ⟨code, more, hdigits, hcode⟩ := following_escape hrest htake
      refine ⟨code, more, hdigits, ?_⟩
      by_contra hlow
      rw [Bool.not_eq_false] at hlow
      have hsame : low = code := by simpa using hcode hlow
      exact hpair ⟨hboth, hsame ▸ hlow⟩
    rw [dumpCodes_cons] at hfuel ⊢
    rw [List.append_assoc, scanCodes_succ hnext, merge, if_neg hpair, ih hrest fuel]
    · rfl
    · have hpos := length_flatten_pos hhigh
      rw [List.length_append] at hfuel
      omega
  | case3 codes hnone =>
    intro fuel hfuel
    obtain ⟨fuel, rfl⟩ := Nat.exists_eq_add_one_of_ne_zero (Nat.ne_zero_of_lt hfuel)
    match codes, hnone with
    | [], _ => rfl
    | [code], _ =>
      have hcode := hcodes code List.mem_cons_self
      have hnext : nextCode quote ((codePieces code).flatten ++ '"' :: tail) =
          .ok (some code, '"' :: tail) := by
        apply nextCode_single hcode (by simp)
        intro _ htake _
        simp at htake
      have hpos := length_flatten_pos hcode
      rw [dumpCodes_cons, dumpCodes_nil, List.append_nil] at hfuel ⊢
      rw [scanCodes_succ hnext]
      obtain ⟨fuel, rfl⟩ := Nat.exists_eq_add_one_of_ne_zero (show fuel ≠ 0 by omega)
      rfl
    | high :: low :: codes, hnone => exact (hnone high low codes rfl).elim

theorem scanString_dumpCodes (hcodes : ∀ c ∈ codes, c < 0x110000) :
    scanString (dumpCodes codes ++ '"' :: tail) = .ok (merge codes, tail) := by
  apply scanCodes_dumpCodes hcodes
  simp

/-- No high half of a surrogate pair stands before a low one. -/
def WellPaired (codes : List Nat) : Prop :=
  codes.IsChain fun high low => ¬ (isHigh high = true ∧ isLow low = true)

/-- A character is no half of a surrogate pair. -/
theorem isHigh_char (c : Char) : isHigh c.toNat = false := by
  have hvalid := c.valid
  simp only [UInt32.isValidChar, Nat.isValidChar] at hvalid
  simp only [isHigh, Bool.and_eq_false_iff, decide_eq_false_iff_not, Char.toNat]
  omega

theorem char_lt (c : Char) : c.toNat < 0x110000 := by
  have hvalid := c.valid
  simp only [UInt32.isValidChar, Nat.isValidChar] at hvalid
  simp only [Char.toNat]
  omega

theorem isHigh_codes (text : String) : ∀ c ∈ PyJson.codes text, isHigh c = false := by
  simp only [PyJson.codes, List.forall_mem_map]
  exact fun c _ => isHigh_char c

theorem wellPaired_of_not_high {codes : List Nat} (h : ∀ c ∈ codes, isHigh c = false) :
    WellPaired codes := by
  apply List.isChain_iff_forall_rel_of_append_cons_cons.mpr
  rintro high low front back rfl ⟨hhigh, -⟩
  rw [h high (by simp)] at hhigh
  cases hhigh

theorem wellPaired_of_lt {codes : List Nat} (h : ∀ c ∈ codes, c < 0xD800) : WellPaired codes := by
  apply wellPaired_of_not_high
  intro c hc
  have hlt := h c hc
  simp only [isHigh, Bool.and_eq_false_iff, decide_eq_false_iff_not]
  omega

theorem merge_length_le (codes : List Nat) : (merge codes).length ≤ codes.length := by
  induction codes using merge.induct with
  | case1 high low codes hpair ih =>
    rw [merge, if_pos hpair]
    simp only [List.length_cons]
    omega
  | case2 high low codes hpair ih =>
    rw [merge, if_neg hpair]
    simpa using ih
  | case3 codes hnone => rw [merge.eq_2 codes hnone]

theorem merge_eq_iff (codes : List Nat) : merge codes = codes ↔ WellPaired codes := by
  induction codes using merge.induct with
  | case1 high low codes hpair ih =>
    rw [merge, if_pos hpair, WellPaired, List.isChain_cons_cons]
    constructor
    · intro h
      have hlength := congrArg List.length h
      have hle := merge_length_le codes
      simp only [List.length_cons] at hlength
      omega
    · intro h
      exact (h.1 hpair).elim
  | case2 high low codes hpair ih =>
    rw [merge, if_neg hpair, WellPaired, List.isChain_cons_cons, List.cons_inj_right, ih]
    exact ⟨fun h => ⟨hpair, h⟩, fun h => h.2⟩
  | case3 codes hnone =>
    match codes, hnone with
    | [], _ => simp [merge, WellPaired]
    | [code], _ => simp [merge, WellPaired]
    | high :: low :: codes, hnone => exact (hnone high low codes rfl).elim

end Strings

section Numbers

variable {tail digits : List Char}

/-- What may follow a number that has ended. -/
def NumberEnds (tail : List Char) : Prop :=
  ∀ c ∈ tail.head?, c.isDigit = false ∧ c ≠ '.' ∧ c ≠ 'e' ∧ c ≠ 'E'

theorem NumberEnds.fraction (h : NumberEnds tail) : fraction tail = [] := by
  match tail with
  | [] => rfl
  | [_] => rfl
  | c :: d :: rest => simp [PyJson.fraction, (h c rfl).2.1]

theorem NumberEnds.exponent (h : NumberEnds tail) : exponent tail = [] := by
  match tail with
  | [] => rfl
  | [_] => rfl
  | c :: s :: rest => simp [PyJson.exponent, (h c rfl).2.2.1, (h c rfl).2.2.2]

theorem leadingDigits_append (hdigits : ∀ d ∈ digits, d.isDigit = true) (hne : digits ≠ [])
    (hzero : digits.head? = some '0' → digits = ['0']) (h : NumberEnds tail) :
    leadingDigits (digits ++ tail) = digits := by
  have hends : Json.Ends tail := by
    intro c rest heq
    exact (h c (by rw [heq]; rfl)).1
  cases digits with
  | nil => exact (hne rfl).elim
  | cons d ds =>
    by_cases hd : d = '0'
    · subst hd
      rw [hzero rfl]
      rfl
    · rw [List.cons_append, leadingDigits.eq_2 _ (by simpa using hd), ← List.cons_append]
      exact (hends.span hdigits).1

/-- An integer and what follows it. -/
theorem scanNumber_digits (hdigits : ∀ d ∈ digits, d.isDigit = true) (hne : digits ≠ [])
    (hzero : digits.head? = some '0' → digits = ['0']) (hlength : digits.length ≤ maxDigits)
    (h : NumberEnds tail) :
    scanNumber (digits ++ tail) = .ok (.int (Nat.ofDigitChars 10 digits 0), tail) := by
  have hsign : (digits ++ tail).head? ≠ some '-' := by
    rw [List.head?_append_of_ne_nil _ hne]
    intro hminus
    have hdigit := hdigits '-' (List.mem_of_mem_head? hminus)
    revert hdigit
    decide
  unfold scanNumber
  simp only [if_neg hsign, List.length_nil, List.drop_zero, leadingDigits_append hdigits hne hzero h,
    List.drop_left, h.fraction, h.exponent, if_neg hne, if_neg (Nat.not_lt.mpr hlength)]
  simp

theorem toDigits_isDigit (n : Nat) : ∀ d ∈ Nat.toDigits 10 n, d.isDigit = true := fun d hd =>
  Nat.isDigit_of_mem_toDigits (by decide) (by decide) hd

theorem toDigits_zero {n : Nat} (h : (Nat.toDigits 10 n).head? = some '0') :
    Nat.toDigits 10 n = ['0'] := by
  by_cases hn : n = 0
  · subst hn
    rfl
  · exact (Json.toDigits_head_ne (Nat.pos_of_ne_zero hn) h).elim

end Numbers

section Values

variable {depth fuel : Nat} {tail : List Char}

/-- The decoder can read the text of the value. -/
def Scalar.Fits : Scalar → Prop
  | bool _ => True
  | int n => (Nat.toDigits 10 n).length ≤ maxDigits
  | str codes => ∀ c ∈ codes, c < 0x110000

/-- What it reads from it. -/
def Scalar.read : Scalar → Value
  | str codes => .str (merge codes)
  | s => s.value

theorem Scalar.dump_head (s : Scalar) : ∃ c rest, s.dump = c :: rest ∧ isBlank c = false := by
  cases s with
  | bool b =>
    cases b with
    | true => exact ⟨'t', "rue".toList, rfl, rfl⟩
    | false => exact ⟨'f', "alse".toList, rfl, rfl⟩
  | str codes => exact ⟨'"', _, rfl, rfl⟩
  | int n =>
    cases hds : Nat.toDigits 10 n with
    | nil => exact (Nat.toDigits_ne_nil hds).elim
    | cons d ds =>
      refine ⟨d, ds, hds, ?_⟩
      have hdigit := toDigits_isDigit n d (by rw [hds]; exact List.mem_cons_self)
      by_contra hblank
      simp only [isBlank, Bool.not_eq_false, Bool.or_eq_true, decide_eq_true_eq] at hblank
      rcases hblank with ((rfl | rfl) | rfl) | rfl <;> revert hdigit <;> decide

/-- A digit begins neither a string nor a container nor a constant. -/
theorem scanOnce_digit {d : Char} {rest : List Char} (hd : d.isDigit = true) :
    scanOnce (fuel + 1) depth (d :: rest) = scanNumber (d :: rest) := by
  have hne : ∀ c : Char, c.isDigit = false → d ≠ c := by
    rintro c hc rfl
    rw [hc] at hd
    cases hd
  have hconstant : constants.find? (fun x => x.1.isPrefixOf (d :: rest)) = none := by
    simp [constants, (hne 'n' (by decide)).symm, (hne 't' (by decide)).symm,
      (hne 'f' (by decide)).symm, (hne 'N' (by decide)).symm, (hne 'I' (by decide)).symm,
      (hne '-' (by decide)).symm]
  simp only [scanOnce, if_neg (hne '"' (by decide)), if_neg (hne '\x7b' (by decide)),
    if_neg (hne '[' (by decide)), hconstant]

theorem scanOnce_dump {s : Scalar} (h : s.Fits) (htail : NumberEnds tail) :
    scanOnce (fuel + 1) depth (s.dump ++ tail) = .ok (s.read, tail) := by
  cases s with
  | bool b =>
    cases b with
    | true => simp [Scalar.dump, scanOnce, constants, Scalar.read, Scalar.value]
    | false => simp [Scalar.dump, scanOnce, constants, Scalar.read, Scalar.value]
  | str codes =>
    have hscan : scanString (dumpCodes codes ++ ['"'] ++ tail) = .ok (merge codes, tail) := by
      rw [List.append_assoc]
      exact scanString_dumpCodes h
    simp only [Scalar.dump, List.cons_append, scanOnce, if_true, hscan]
    rfl
  | int n =>
    cases hds : Nat.toDigits 10 n with
    | nil => exact (Nat.toDigits_ne_nil hds).elim
    | cons d ds =>
      have hdigit := toDigits_isDigit n d (by rw [hds]; exact List.mem_cons_self)
      have hnumber := scanNumber_digits (toDigits_isDigit n) Nat.toDigits_ne_nil toDigits_zero h
        htail
      rw [Nat.ofDigitChars_toDigits (by decide) (by decide)] at hnumber
      rw [hds] at hnumber
      rw [Scalar.dump, hds, List.cons_append, scanOnce_digit hdigit]
      exact hnumber

end Values

section Fields

variable {l : Layout} {depth : Nat} {tail : List Char}

theorem skipBlanks_append {blanks rest : List Char} (h : blanks.all isBlank = true) :
    skipBlanks (blanks ++ rest) = skipBlanks rest :=
  List.dropWhile_append_of_pos (List.all_eq_true.mp h)

theorem skipBlanks_cons {c : Char} {rest : List Char} (h : isBlank c = false) :
    skipBlanks (c :: rest) = c :: rest := by
  simp [skipBlanks, h]

/-- A field that the decoder can read. -/
def Fits (field : List Nat × Scalar) : Prop :=
  (∀ c ∈ field.1, c < 0x110000) ∧ field.2.Fits

/-- The field that it reads. -/
def readField (field : List Nat × Scalar) : List Nat × Value :=
  (merge field.1, field.2.read)

/-- The decoder after a field. -/
def closeField (fuel depth : Nat) (field : List Nat × Value) (rest : List Char) :
    Except Fault (List (List Nat × Value) × List Char) :=
  if (skipBlanks rest).head? = some '}' then .ok ([field], (skipBlanks rest).tail)
  else do
    let rest ← expect ',' .comma (skipBlanks rest)
    let (fields, rest) ← scanFields fuel depth (skipBlanks rest)
    .ok (field :: fields, rest)

theorem scanFields_field {fuel : Nat} {field : List Nat × Scalar} (h : Fits field)
    (htail : NumberEnds tail) :
    scanFields (fuel + 2) depth (dumpField l field ++ tail) =
      closeField (fuel + 1) depth (readField field) tail := by
  obtain ⟨c, rest, hdump, hblank⟩ := field.2.dump_head
  have hgap : skipBlanks (l.gap ++ (field.2.dump ++ tail)) = field.2.dump ++ tail := by
    rw [skipBlanks_append l.blank.2.1, hdump, List.cons_append, skipBlanks_cons hblank]
  rw [scanFields]
  simp only [dumpField, List.cons_append, List.append_assoc, expect, List.head?_cons, if_true,
    List.tail_cons, bind, Except.bind, scanString_dumpCodes h.1, show ∀ rest, skipBlanks (':' :: rest) = ':' :: rest from fun _ => skipBlanks_cons rfl,
    hgap, scanOnce_dump h.2 htail]
  rfl

theorem numberEnds_cons {c : Char} {rest : List Char}
    (h : c.isDigit = false ∧ c ≠ '.' ∧ c ≠ 'e' ∧ c ≠ 'E') : NumberEnds (c :: rest) := by
  intro d hd
  obtain rfl := Option.some.inj hd
  exact h

theorem numberEnds_blank {c : Char} {rest : List Char} (h : isBlank c = true) :
    NumberEnds (c :: rest) := by
  apply numberEnds_cons
  simp only [isBlank, Bool.or_eq_true, decide_eq_true_eq] at h
  rcases h with ((rfl | rfl) | rfl) | rfl <;> decide

theorem numberEnds_last (l : Layout) : NumberEnds (l.last ++ '}' :: tail) := by
  have hlast := l.blank.2.2
  cases hcase : l.last with
  | nil => exact numberEnds_cons (by decide)
  | cons c rest =>
    rw [hcase, List.all_cons, Bool.and_eq_true] at hlast
    exact numberEnds_blank hlast.1

/-- The decoder reads the fields of the encoder. -/
theorem scanFields_dumpFields (fields : List (List Nat × Scalar)) (hne : fields ≠ [])
    (h : ∀ field ∈ fields, Fits field) :
    ∀ fuel, fields.length < fuel →
      scanFields fuel depth (skipBlanks (dumpFields l fields ++ tail)) =
        .ok (fields.map readField, tail) := by
  induction fields with
  | nil => exact (hne rfl).elim
  | cons field more ih =>
    intro fuel hfuel
    have hfield := h field List.mem_cons_self
    obtain ⟨fuel, rfl⟩ : ∃ n, fuel = n + 2 := ⟨fuel - 2, by rw [List.length_cons] at hfuel; omega⟩
    have hquote : ∀ rest, skipBlanks (l.indent ++ (dumpField l field ++ rest)) =
        dumpField l field ++ rest := fun rest => by
      rw [skipBlanks_append l.blank.1]
      exact skipBlanks_cons rfl
    cases more with
    | nil =>
      rw [dumpFields]
      simp only [List.append_assoc, List.cons_append, List.nil_append]
      rw [hquote, scanFields_field hfield (numberEnds_last l), closeField,
        skipBlanks_append l.blank.2.2, skipBlanks_cons (by rfl)]
      rfl
    | cons next more =>
      have hrest := ih (by simp) (fun field hmem => h field (List.mem_cons_of_mem _ hmem))
        (fuel + 1) (by rw [List.length_cons] at hfuel; omega)
      rw [dumpFields.eq_3 _ _ _ (by simp)]
      simp only [List.append_assoc, List.cons_append]
      rw [hquote, scanFields_field hfield (numberEnds_cons (by decide)), closeField,
        skipBlanks_cons (by rfl)]
      simp only [List.head?_cons, expect, if_true, List.tail_cons, bind, Except.bind, hrest]
      rfl

theorem length_le_dumpFields (l : Layout) (fields : List (List Nat × Scalar)) :
    fields.length ≤ (dumpFields l fields).length := by
  induction fields with
  | nil => simp
  | cons field more ih =>
    cases more with
    | nil =>
      simp only [dumpFields, List.length_append, List.length_cons, List.length_nil]
      omega
    | cons next more =>
      rw [dumpFields.eq_3 _ _ _ (by simp)]
      simp only [List.length_append, List.length_cons] at ih ⊢
      omega

theorem skipBlanks_dumpFields {fields : List (List Nat × Scalar)} (hne : fields ≠ []) :
    ∃ rest, skipBlanks (dumpFields l fields ++ tail) = '"' :: rest := by
  match fields, hne with
  | [field], _ =>
    simp only [dumpFields, List.append_assoc]
    rw [skipBlanks_append l.blank.1]
    exact ⟨_, skipBlanks_cons rfl⟩
  | field :: next :: more, _ =>
    rw [dumpFields.eq_3 _ _ _ (by simp)]
    simp only [List.append_assoc]
    rw [skipBlanks_append l.blank.1]
    exact ⟨_, skipBlanks_cons rfl⟩

theorem scanOnce_brace {fuel : Nat} {rest : List Char}
    (h : (skipBlanks rest).head? ≠ some '}') :
    scanOnce (fuel + 1) (depth + 1) ('{' :: rest) =
      (scanFields fuel depth (skipBlanks rest)).map fun (fields, rest) => (.dict fields, rest) := by
  simp only [scanOnce, if_neg h, if_neg (show '{' ≠ '"' by decide), if_true]
  cases scanFields fuel depth (skipBlanks rest) with
  | ok result => rfl
  | error e => rfl

/-- The decoder reads a mapping of the encoder, and leaves what follows it. -/
theorem rawDecode_dumpDict {fields : List (List Nat × Scalar)} (hne : fields ≠ [])
    (h : ∀ field ∈ fields, Fits field) :
    rawDecode (depth + 1) (dumpDict l fields ++ tail) =
      .ok (.dict (fields.map readField), tail) := by
  obtain ⟨rest, hrest⟩ := @skipBlanks_dumpFields l tail fields hne
  have hhead : (skipBlanks (dumpFields l fields ++ tail)).head? ≠ some '}' := by
    rw [hrest, List.head?_cons]
    decide
  have hlength := length_le_dumpFields l fields
  rw [rawDecode, dumpDict, List.cons_append, List.length_cons, Nat.mul_succ, scanOnce_brace hhead,
    scanFields_dumpFields fields hne h]
  · rfl
  · rw [List.length_append]
    omega

end Fields

section Lookup

theorem lookup_of_mem {β : Type} {entries : List (List Nat × β)} {key : List Nat} {v : β}
    (hnodup : (entries.map Prod.fst).Nodup) (hmem : (key, v) ∈ entries) :
    entries.lookup key = some v := by
  induction entries with
  | nil => cases hmem
  | cons entry rest ih =>
    rw [List.map_cons, List.nodup_cons] at hnodup
    rcases List.mem_cons.mp hmem with rfl | hrest
    · simp [List.lookup]
    · have hne : key ≠ entry.1 := by
        rintro rfl
        exact hnodup.1 (List.mem_map.mpr ⟨_, hrest, rfl⟩)
      rw [List.lookup, beq_eq_false_iff_ne.mpr hne]
      exact ih hnodup.2 hrest

/-- The value of a key that is not repeated. -/
theorem lookup_reverse_of_mem {β : Type} {entries : List (List Nat × β)} {key : List Nat} {v : β}
    (hnodup : (entries.map Prod.fst).Nodup) (hmem : (key, v) ∈ entries) :
    entries.reverse.lookup key = some v := by
  apply lookup_of_mem
  · rw [List.map_reverse]
    exact List.nodup_reverse.mpr hnodup
  · exact List.mem_reverse.mpr hmem

end Lookup

section Ascii

/-- A character that the encoder writes, blanks aside. -/
def printable (c : Char) : Bool :=
  32 ≤ c.toNat && c.toNat < 127

theorem printable_hexDigit {n : Nat} (h : n < 16) : printable (hexDigit n) = true := by
  have hall : (List.range 16).all (fun n => printable (hexDigit n)) = true := by
    decide
  exact List.all_eq_true.mp hall n (List.mem_range.mpr h)

theorem printable_unitEscape (n : Nat) : (unitEscape n).all printable = true := by
  have hlast : ∀ k, printable (hexDigit (k % 16)) = true := fun k =>
    printable_hexDigit (Nat.mod_lt k (by decide))
  simp only [unitEscape, List.all_cons, List.all_nil, hlast, Bool.and_true]
  decide

theorem printable_dumpCodes (codes : List Nat) : (dumpCodes codes).all printable = true := by
  induction codes with
  | nil => rfl
  | cons code codes ih =>
    rw [dumpCodes_cons, List.all_append, ih, Bool.and_true]
    unfold codePieces
    split_ifs with h₁ h₂ h₃ h₄ h₅ h₆ h₇ hplain hunit
    any_goals decide
    · have hcode : (Char.ofNat code).toNat = code := by
        have hvalid : code.isValidChar := .inl (by omega)
        rw [Char.ofNat, dif_pos hvalid]
        rfl
      simp only [List.flatten_singleton, List.all_cons, List.all_nil, printable, hcode,
        Bool.and_true, Bool.and_eq_true, decide_eq_true_eq]
      omega
    · simp [printable_unitEscape]
    · simp [printable_unitEscape]

theorem printable_digit {c : Char} (h : c.isDigit = true) : printable c = true := by
  simp only [Char.isDigit, Bool.and_eq_true, decide_eq_true_eq] at h
  have hlow : 48 ≤ c.toNat := h.1
  have hhigh : c.toNat ≤ 57 := h.2
  simp only [printable, Bool.and_eq_true, decide_eq_true_eq]
  omega

theorem Scalar.printable_dump (s : Scalar) : s.dump.all printable = true := by
  cases s with
  | bool b =>
    cases b with
    | true => decide
    | false => decide
  | int n => exact List.all_eq_true.mpr fun d hd => printable_digit (toDigits_isDigit n d hd)
  | str codes => simp [Scalar.dump, printable_dumpCodes, show printable '"' = true by decide]

/-- A compact text has printable characters only. -/
theorem printable_dumpFields (fields : List (List Nat × Scalar)) :
    (dumpFields .compact fields).all printable = true := by
  have hfield : ∀ field, (dumpField .compact field).all printable = true := fun field => by
    simp [dumpField, Layout.compact, printable_dumpCodes, Scalar.printable_dump,
      show printable '"' = true by decide, show printable ':' = true by decide]
  induction fields with
  | nil => rfl
  | cons field more ih =>
    cases more with
    | nil =>
      rw [dumpFields, List.all_append, List.all_append, List.all_append, hfield]
      decide
    | cons next more =>
      rw [dumpFields.eq_3 _ _ _ (by simp), List.all_append, List.all_append, List.all_cons, hfield,
        ih]
      decide

theorem printable_dumpDict (fields : List (List Nat × Scalar)) :
    (dumpDict .compact fields).all printable = true := by
  rw [dumpDict, List.all_cons, printable_dumpFields, Bool.and_true]
  decide

theorem ascii_blanks {blanks : List Char} (h : blanks.all isBlank = true) :
    ∀ c ∈ blanks, c.toNat < 0x80 := by
  intro c hc
  have hblank := List.all_eq_true.mp h c hc
  simp only [isBlank, Bool.or_eq_true, decide_eq_true_eq] at hblank
  rcases hblank with ((rfl | rfl) | rfl) | rfl <;> decide

theorem ascii_printable {text : List Char} (h : text.all printable = true) :
    ∀ c ∈ text, c.toNat < 0x80 := by
  intro c hc
  have hprintable := List.all_eq_true.mp h c hc
  simp only [printable, Bool.and_eq_true, decide_eq_true_eq] at hprintable
  omega

theorem ascii_dumpField (l : Layout) (field : List Nat × Scalar) :
    ∀ c ∈ dumpField l field, c.toNat < 0x80 := by
  have hquote : '"'.toNat < 0x80 := by decide
  have hcolon : ':'.toNat < 0x80 := by decide
  simp only [dumpField, List.forall_mem_cons, List.forall_mem_append]
  exact ⟨hquote, ascii_printable (printable_dumpCodes _), hquote, hcolon, ascii_blanks l.blank.2.1,
    ascii_printable (Scalar.printable_dump _)⟩

/-- A text of the encoder has no other characters. -/
theorem ascii_dumpDict (l : Layout) (fields : List (List Nat × Scalar)) :
    ∀ c ∈ dumpDict l fields, c.toNat < 0x80 := by
  have hfields : ∀ c ∈ dumpFields l fields, c.toNat < 0x80 := by
    induction fields with
    | nil => exact List.forall_mem_nil _
    | cons field more ih =>
      cases more with
      | nil =>
        simp only [dumpFields, List.forall_mem_append, List.forall_mem_singleton]
        exact ⟨⟨⟨ascii_blanks l.blank.1, ascii_dumpField l field⟩, ascii_blanks l.blank.2.2⟩, by decide⟩
      | cons next more =>
        rw [dumpFields.eq_3 _ _ _ (by simp)]
        simp only [List.forall_mem_append, List.forall_mem_cons]
        exact ⟨⟨ascii_blanks l.blank.1, ascii_dumpField l field⟩, by decide, ih⟩
  rw [dumpDict, List.forall_mem_cons]
  exact ⟨by decide, hfields⟩

theorem decodeUtf8_ascii {raw : Bytes} (h : ∀ b ∈ raw, b < 0x80) :
    decodeUtf8 raw = some (raw.map fun b => Char.ofNat b.toNat) := by
  induction raw with
  | nil => rfl
  | cons b raw ih =>
    rw [List.forall_mem_cons] at h
    rw [decodeUtf8.eq_def]
    dsimp only
    rw [if_pos h.1, ih h.2]
    rfl

end Ascii

end HccastWired.Foundation.PyJson
