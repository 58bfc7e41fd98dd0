import HccastWired.Foundation.BigEndian
import HccastWired.Network.Peer

/-!
# WFD subelements

`sink_available` walks over radio data with a cursor. The walk comes to an end, reads
inside the string only, and accepts exactly the concatenations of complete subelements
whose last device information announces an available sink.
-/

namespace HccastWired.Network

open Foundation BigEndian

/-- A type, a length of two bytes and a body of that length. -/
structure Subelement where
  kind : UInt8
  body : List UInt8
  short : body.length < 65536

def Subelement.encode (e : Subelement) : List UInt8 :=
  e.kind :: (toBytes 2 e.body.length ++ e.body)

/-- The device information of an available primary or dual-role sink with a control port. -/
def Subelement.AvailableSink (e : Subelement) : Prop :=
  let flags := ofBytes (e.body.take 2)
  (flags % 4 = 1 ∨ flags % 4 = 3) ∧ flags.testBit 4 = true ∧
    ofBytes ((e.body.drop 2).take 2) ≠ 0

/-- The device informations among the subelements. -/
def deviceInformations (elements : List Subelement) : List Subelement :=
  elements.filter fun e => e.kind = 0

/-- The grammar: complete subelements, each device information of six bytes, and the last
of these an available sink. -/
def AnnouncesSink (data : List UInt8) : Prop :=
  ∃ elements : List Subelement, data = elements.flatMap Subelement.encode ∧
    (∀ e ∈ deviceInformations elements, e.body.length = 6) ∧
    ∃ e, (deviceInformations elements).getLast? = some e ∧ e.AvailableSink

namespace SinkParser

/-- The variables of the loop. -/
structure State where
  cursor : Nat
  available : Bool

/-- What a pass of the loop does: another pass, or a return. -/
inductive Pass
  | next (s : State)
  | returns (result : Bool)

/-- The bytes from one place up to another. -/
abbrev Range := Nat × Nat

/-- `data[start:stop]`. -/
def slice (data : List UInt8) (start stop : Nat) : List UInt8 :=
  (data.drop start).take (stop - start)

def sinkFlags (flags port : Nat) : Bool :=
  (flags &&& 3 == 1 || flags &&& 3 == 3) && flags &&& 0x10 != 0 && port != 0

/-- A pass of the `while` loop, and the ranges that it reads. -/
def pass (data : List UInt8) (s : State) : List Range × Pass :=
  if s.cursor < data.length then
    if data.length - s.cursor < 3 then ([], .returns false)
    else
      let kind := slice data s.cursor (s.cursor + 1)
      let size := ofBytes (slice data (s.cursor + 1) (s.cursor + 3))
      let header := [(s.cursor, s.cursor + 1), (s.cursor + 1, s.cursor + 3)]
      let cursor := s.cursor + 3
      if data.length - cursor < size then (header, .returns false)
      else if kind = [0] then
        if size ≠ 6 then (header, .returns false)
        else
          let flags := ofBytes (slice data cursor (cursor + 2))
          let port := ofBytes (slice data (cursor + 2) (cursor + 4))
          (header ++ [(cursor, cursor + 2), (cursor + 2, cursor + 4)],
            .next ⟨cursor + size, sinkFlags flags port⟩)
      else (header, .next ⟨cursor + size, s.available⟩)
  else ([], .returns s.available)

/-- So many passes, if they come to a return: the ranges and the result. -/
def passes (data : List UInt8) : Nat → State → Option (List Range × Bool)
  | 0, _ => none
  | fuel + 1, s =>
      match pass data s with
      | (ranges, .returns result) => some (ranges, result)
      | (ranges, .next s) => (passes data fuel s).map fun (more, result) => (ranges ++ more, result)

/-- `sink_available` of a byte string. -/
def run (fuel : Nat) (data : List UInt8) : Option (List Range × Bool) :=
  if 1024 < data.length then some ([], false) else passes data fuel ⟨0, false⟩

end SinkParser

section Elements

variable {data rest tail : List UInt8} {kind high low : UInt8} {e : Subelement}

theorem toBytes_two (n : Nat) : toBytes 2 n = [UInt8.ofNat (n / 256), UInt8.ofNat n] := rfl

theorem ofBytes_two (high low : UInt8) : ofBytes [high, low] = high.toNat * 256 + low.toNat := by
  simp [ofBytes]

theorem toBytes_ofBytes_two (high low : UInt8) : toBytes 2 (ofBytes [high, low]) = [high, low] := by
  have hlow := low.toNat_lt
  rw [ofBytes_two, toBytes_two]
  have hhigh : UInt8.ofNat ((high.toNat * 256 + low.toNat) / 256) = high := by
    rw [show (high.toNat * 256 + low.toNat) / 256 = high.toNat by omega, UInt8.ofNat_toNat]
  have hbyte : UInt8.ofNat (high.toNat * 256 + low.toNat) = low := by
    have hmod : ∀ n, (UInt8.ofNat n).toNat = n % 256 := by simp
    apply UInt8.toNat_inj.mp
    rw [hmod]
    omega
  rw [hhigh, hbyte]

/-- What the three bytes of a header say about the subelement that they begin. -/
theorem encode_append_eq_iff : kind :: high :: low :: rest = e.encode ++ tail ↔
    e.kind = kind ∧ e.body.length = ofBytes [high, low] ∧ rest = e.body ++ tail := by
  have hlength : ofBytes (toBytes 2 e.body.length) = e.body.length := ofBytes_toBytes 2 _ e.short
  constructor
  · intro h
    simp only [Subelement.encode, toBytes_two, List.cons_append, List.nil_append, List.cons.injEq] at h
    obtain ⟨rfl, rfl, rfl, rfl⟩ := h
    exact ⟨rfl, hlength.symm, rfl⟩
  · rintro ⟨rfl, hsize, rfl⟩
    rw [Subelement.encode, hsize, toBytes_ofBytes_two]
    rfl

theorem encode_append_inj {d e : Subelement} {xs ys : List UInt8}
    (h : e.encode ++ xs = d.encode ++ ys) : e = d ∧ xs = ys := by
  obtain ⟨hkind, hlength, hrest⟩ := encode_append_eq_iff.mp h
  have hsize : ofBytes (toBytes 2 e.body.length) = e.body.length := ofBytes_toBytes 2 _ e.short
  obtain ⟨hbody, htail⟩ := List.append_inj hrest (by rw [hlength]; exact hsize.symm)
  cases e
  cases d
  simp only at hkind hbody
  subst hkind
  subst hbody
  exact ⟨rfl, htail⟩

theorem length_encode (e : Subelement) : e.encode.length = e.body.length + 3 := by
  rw [Subelement.encode, List.length_cons, List.length_append, length_toBytes]
  omega

end Elements

namespace SinkParser

variable {data : List UInt8} {s : State}

/-- What a subelement makes of the result. -/
def settle (available : Bool) (e : Subelement) : Bool :=
  if e.kind = 0 then
    sinkFlags (ofBytes (e.body.take 2)) (ofBytes ((e.body.drop 2).take 2))
  else available

/-- The unread bytes are complete subelements that turn the result to true. -/
def Accepts (available : Bool) (unread : List UInt8) : Prop :=
  ∃ elements : List Subelement, unread = elements.flatMap Subelement.encode ∧
    (∀ e ∈ deviceInformations elements, e.body.length = 6) ∧
    elements.foldl settle available = true

theorem accepts_nil (available : Bool) : Accepts available [] ↔ available = true := by
  constructor
  · rintro ⟨elements, hdata, -, hresult⟩
    cases elements with
    | nil => exact hresult
    | cons e elements =>
      have hlength := congrArg List.length hdata
      rw [List.flatMap_cons, List.length_append, length_encode, List.length_nil] at hlength
      omega
  · intro h
    exact ⟨[], rfl, fun e he => absurd he List.not_mem_nil, h⟩

/-- Bytes that begin with no complete subelement are not accepted. -/
theorem not_accepts {available : Bool} {unread : List UInt8} (hne : unread ≠ [])
    (h : ∀ (e : Subelement) tail, unread = e.encode ++ tail → e.kind = 0 ∧ e.body.length ≠ 6) :
    ¬ Accepts available unread := by
  rintro ⟨elements, hdata, hsix, -⟩
  cases elements with
  | nil => exact hne hdata
  | cons e elements =>
    obtain ⟨hkind, hlength⟩ := h e _ hdata
    apply hlength
    apply hsix
    rw [deviceInformations, List.filter_cons_of_pos (by simp [hkind])]
    exact List.mem_cons_self

/-- A complete subelement at the beginning of the unread bytes. -/
theorem accepts_encode {available : Bool} {e : Subelement} {tail : List UInt8}
    (hsix : e.kind = 0 → e.body.length = 6) :
    Accepts available (e.encode ++ tail) ↔ Accepts (settle available e) tail := by
  have hall : ∀ elements : List Subelement,
      (∀ d ∈ deviceInformations (e :: elements), d.body.length = 6) ↔
        ∀ d ∈ deviceInformations elements, d.body.length = 6 := by
    intro elements
    simp only [deviceInformations, List.filter_cons]
    split
    · next hkind =>
      rw [List.forall_mem_cons]
      exact and_iff_right (hsix (of_decide_eq_true hkind))
    · rfl
  constructor
  · rintro ⟨elements, hdata, hdevices, hresult⟩
    cases elements with
    | nil =>
      have hlength := congrArg List.length hdata
      rw [List.length_append, length_encode, List.flatMap_nil, List.length_nil] at hlength
      omega
    | cons d elements =>
      obtain ⟨rfl, htail⟩ := encode_append_inj hdata
      exact ⟨elements, htail, (hall elements).mp hdevices, hresult⟩
  · rintro ⟨elements, rfl, hdevices, hresult⟩
    exact ⟨e :: elements, rfl, (hall elements).mpr hdevices, hresult⟩

/-- The last device information decides. -/
theorem foldl_settle (elements : List Subelement) (available : Bool) :
    elements.foldl settle available =
      ((deviceInformations elements).getLast?.map (settle available)).getD available := by
  induction elements using List.reverseRecOn with
  | nil => rfl
  | append_singleton elements e ih =>
    rw [List.foldl_append, deviceInformations, List.filter_append]
    by_cases hkind : e.kind = 0
    · rw [List.filter_cons_of_pos (by simp [hkind]), List.filter_nil, List.getLast?_concat]
      simp [settle, hkind]
    · rw [List.filter_cons_of_neg (by simp [hkind]), List.filter_nil, List.append_nil,
        List.foldl_cons, List.foldl_nil, ih]
      simp only [settle, if_neg hkind]
      rfl

theorem sinkFlags_iff (e : Subelement) :
    sinkFlags (ofBytes (e.body.take 2)) (ofBytes ((e.body.drop 2).take 2)) = true ↔
      e.AvailableSink := by
  have hand : ∀ flags : Nat, flags &&& 3 = flags % 4 := fun flags => Nat.and_two_pow_sub_one_eq_mod flags 2
  have hbit : ∀ flags : Nat, flags &&& 0x10 ≠ 0 ↔ flags.testBit 4 = true := by
    intro flags
    rw [show 0x10 = 2 ^ 4 from rfl, Nat.and_two_pow]
    cases flags.testBit 4 <;> simp
  simp only [sinkFlags, Subelement.AvailableSink, Bool.and_eq_true, Bool.or_eq_true, beq_iff_eq,
    bne_iff_ne, hand, hbit, and_assoc]

theorem accepts_false_iff (data : List UInt8) : Accepts false data ↔ AnnouncesSink data := by
  apply exists_congr
  intro elements
  have hlast : elements.foldl settle false = true ↔
      ∃ e, (deviceInformations elements).getLast? = some e ∧ e.AvailableSink := by
    rw [foldl_settle]
    cases hdevices : (deviceInformations elements).getLast? with
    | none => simp
    | some e =>
      have hkind : e.kind = 0 := by
        have hmem := List.mem_of_getLast? hdevices
        exact of_decide_eq_true (List.mem_filter.mp hmem).2
      simp only [Option.map_some, Option.getD_some, settle, hkind, if_true, sinkFlags_iff,
        Option.some.injEq, exists_eq_left']
  rw [hlast]

/-- The header at a place of the string. -/
theorem drop_header {c : Nat} (h : c + 3 ≤ data.length) :
    ∃ kind high low, data.drop c = kind :: high :: low :: data.drop (c + 3) := by
  refine ⟨data[c], data[c + 1], data[c + 2], ?_⟩
  rw [List.drop_eq_getElem_cons (by omega), List.drop_eq_getElem_cons (by omega),
    List.drop_eq_getElem_cons (by omega)]

/-- A pass that another one follows. -/
theorem next_exact {fuel : Nat} {ranges : List Range}
    (hranges : ∀ r ∈ ranges, r.1 < r.2 ∧ r.2 ≤ data.length) (h : ∃ more result,
      passes data fuel s = some (more, result) ∧
        (∀ r ∈ more, r.1 < r.2 ∧ r.2 ≤ data.length) ∧
        (result = true ↔ Accepts s.available (data.drop s.cursor))) :
    ∃ all result,
      ((passes data fuel s).map fun (more, result) => (ranges ++ more, result)) =
          some (all, result) ∧
        (∀ r ∈ all, r.1 < r.2 ∧ r.2 ≤ data.length) ∧
        (result = true ↔ Accepts s.available (data.drop s.cursor)) := by
  obtain ⟨more, result, hrun, hmore, hresult⟩ := h
  refine ⟨ranges ++ more, result, ?_, ?_, hresult⟩
  · rw [hrun]
    rfl
  · exact List.forall_mem_append.mpr ⟨hranges, hmore⟩

/-- The loop returns, has read inside the string, and accepts what the grammar does. -/
theorem passes_exact {fuel : Nat} (hcursor : s.cursor ≤ data.length)
    (hfuel : data.length - s.cursor < fuel) : ∃ ranges result,
      passes data fuel s = some (ranges, result) ∧
        (∀ r ∈ ranges, r.1 < r.2 ∧ r.2 ≤ data.length) ∧
        (result = true ↔ Accepts s.available (data.drop s.cursor)) := by
  induction fuel generalizing s with
  | zero => omega
  | succ fuel ih =>
    rw [passes, pass]
    by_cases hmore : s.cursor < data.length
    · have hunread : data.drop s.cursor ≠ [] := by
        rw [Ne, List.drop_eq_nil_iff]
        omega
      rw [if_pos hmore]
      by_cases hheader : data.length - s.cursor < 3
      · rw [if_pos hheader]
        refine ⟨[], false, rfl, fun r hr => absurd hr List.not_mem_nil, ?_⟩
        rw [Bool.false_eq_true, false_iff]
        apply not_accepts hunread
        intro e tail htail
        have hlength := congrArg List.length htail
        rw [List.length_drop, List.length_append, length_encode] at hlength
        omega
      · obtain ⟨kind, high, low, hdrop⟩ := @drop_header data s.cursor (by omega)
        have hkind : slice data s.cursor (s.cursor + 1) = [kind] := by
          rw [slice, hdrop, Nat.add_sub_cancel_left]
          rfl
        have hsize : slice data (s.cursor + 1) (s.cursor + 3) = [high, low] := by
          rw [slice, ← List.drop_drop, hdrop, show s.cursor + 3 - (s.cursor + 1) = 2 by omega]
          rfl
        have hlow : ofBytes [high, low] < 65536 := by
          have hhigh := high.toNat_lt
          have hlow := low.toNat_lt
          rw [ofBytes_two]
          omega
        rw [if_neg hheader, hkind, hsize, hdrop]
        generalize hn : ofBytes [high, low] = n at hlow ⊢
        have hrange : ∀ r ∈ [(s.cursor, s.cursor + 1), (s.cursor + 1, s.cursor + 3)],
            r.1 < r.2 ∧ r.2 ≤ data.length := by
          simp only [List.mem_cons, List.not_mem_nil, or_false, forall_eq_or_imp, forall_eq]
          omega
        dsimp only
        by_cases hshort : data.length - (s.cursor + 3) < n
        · rw [if_pos hshort]
          refine ⟨_, false, rfl, hrange, ?_⟩
          rw [Bool.false_eq_true, false_iff]
          apply not_accepts (List.cons_ne_nil _ _)
          intro e tail htail
          obtain ⟨-, hlength, hrest⟩ := encode_append_eq_iff.mp htail
          have hcount := congrArg List.length hrest
          rw [List.length_drop, List.length_append] at hcount
          omega
        · let e : Subelement :=
            ⟨kind, (data.drop (s.cursor + 3)).take n, by rw [List.length_take]; omega⟩
          have hbody : e.body.length = n := by
            rw [List.length_take, List.length_drop]
            omega
          have hencode : kind :: high :: low :: data.drop (s.cursor + 3) =
              e.encode ++ data.drop (s.cursor + 3 + n) := by
            rw [encode_append_eq_iff, hn]
            have htake := (List.take_append_drop n (data.drop (s.cursor + 3))).symm
            rw [List.drop_drop] at htake
            exact ⟨rfl, hbody, htake⟩
          rw [if_neg hshort]
          by_cases hzero : kind = 0
          · subst hzero
            rw [if_pos rfl]
            by_cases hsix : n = 6
            · subst hsix
              have hflags : e.body.take 2 = slice data (s.cursor + 3) (s.cursor + 3 + 2) := by
                rw [slice, Nat.add_sub_cancel_left]
                exact List.take_take
              have hport : (e.body.drop 2).take 2 =
                  slice data (s.cursor + 3 + 2) (s.cursor + 3 + 4) := by
                rw [slice, show s.cursor + 3 + 4 - (s.cursor + 3 + 2) = 2 by omega,
                  ← List.drop_drop, List.drop_take, List.take_take]
                rfl
              have hsettle : settle s.available e =
                  sinkFlags (ofBytes (slice data (s.cursor + 3) (s.cursor + 3 + 2)))
                    (ofBytes (slice data (s.cursor + 3 + 2) (s.cursor + 3 + 4))) := by
                rw [← hflags, ← hport]
                rfl
              rw [if_neg (by decide), hencode, accepts_encode fun _ => hbody, hsettle]
              apply next_exact _ (ih _ _)
              · rw [List.forall_mem_append]
                refine ⟨hrange, ?_⟩
                simp only [List.mem_cons, List.not_mem_nil, or_false, forall_eq_or_imp, forall_eq]
                omega
              · dsimp only
                omega
              · dsimp only
                omega
            · rw [if_pos hsix]
              refine ⟨_, false, rfl, hrange, ?_⟩
              rw [Bool.false_eq_true, false_iff]
              apply not_accepts (List.cons_ne_nil _ _)
              intro d tail htail
              obtain ⟨hkind, hlength, -⟩ := encode_append_eq_iff.mp htail
              exact ⟨hkind, by omega⟩
          · have hsettle : settle s.available e = s.available := if_neg hzero
            rw [if_neg (by simpa using hzero), hencode, accepts_encode fun h => absurd h hzero, hsettle]
            apply next_exact hrange (ih _ _)
            · dsimp only
              omega
            · dsimp only
              omega
    · have hend : data.drop s.cursor = [] := List.drop_eq_nil_iff.mpr (by omega)
      rw [if_neg hmore]
      refine ⟨[], s.available, rfl, fun r hr => absurd hr List.not_mem_nil, ?_⟩
      rw [hend, accepts_nil]

end SinkParser

section Unread

open SinkParser

theorem word16_eq (high low : UInt8) : word16 high low = ofBytes [high, low] :=
  (ofBytes_two high low).symm

theorem deviceInformation_eq (a b c d : UInt8) (rest : List UInt8) :
    deviceInformation (a :: b :: c :: d :: rest) = sinkFlags (word16 a b) (word16 c d) := by
  have hand : word16 a b &&& 3 = word16 a b % 4 := Nat.and_two_pow_sub_one_eq_mod _ 2
  have hbit : (word16 a b / 16 % 2 == 1) = (word16 a b &&& 0x10 != 0) := by
    have htest : (word16 a b / 16 % 2 == 1) = (word16 a b).testBit 4 := by
      rw [Nat.testBit_eq_decide_div_mod_eq]
      rfl
    rw [htest, show 0x10 = 2 ^ 4 from rfl, Nat.and_two_pow]
    cases (word16 a b).testBit 4 <;> rfl
  rw [deviceInformation, sinkFlags, hand, hbit]

/-- A header that is followed by enough bytes begins a subelement. -/
theorem exists_encode {kind high low : UInt8} {rest : List UInt8}
    (h : word16 high low ≤ rest.length) : ∃ e : Subelement, e.kind = kind ∧
      e.body = rest.take (word16 high low) ∧
      kind :: high :: low :: rest = e.encode ++ rest.drop (word16 high low) := by
  have hsize : word16 high low < 65536 := by
    have hhigh := high.toNat_lt
    have hlow := low.toNat_lt
    rw [word16]
    omega
  have hbody : (rest.take (word16 high low)).length = word16 high low := List.length_take_of_le h
  refine ⟨⟨kind, rest.take (word16 high low), by rwa [hbody]⟩, rfl, rfl, ?_⟩
  rw [encode_append_eq_iff, ← word16_eq]
  exact ⟨rfl, hbody, (List.take_append_drop _ _).symm⟩

/-- The loop over the unread bytes accepts what the grammar does. -/
theorem sinkLoop_exact (unread : List UInt8) (available : Bool) :
    sinkLoop unread available = true ↔ Accepts available unread := by
  fun_induction sinkLoop unread available with
  | case1 available => exact (accepts_nil available).symm
  | case2 kind high low rest available size hshort =>
    rw [Bool.false_eq_true, false_iff]
    apply not_accepts (List.cons_ne_nil _ _)
    intro e tail htail
    obtain ⟨-, hlength, hrest⟩ := encode_append_eq_iff.mp htail
    rw [← word16_eq] at hlength
    rw [hrest, List.length_append] at hshort
    omega
  | case3 high low rest available size hlong hsix =>
    rw [Bool.false_eq_true, false_iff]
    apply not_accepts (List.cons_ne_nil _ _)
    intro e tail htail
    obtain ⟨hkind, hlength, -⟩ := encode_append_eq_iff.mp htail
    rw [← word16_eq] at hlength
    exact ⟨hkind, by omega⟩
  | case4 high low rest available size hlong hsix ih =>
    obtain ⟨e, hkind, hbody, hencode⟩ := @exists_encode 0 high low rest (Nat.le_of_not_lt hlong)
    have hlength : e.body.length = 6 := by
      rw [hbody, List.length_take]
      omega
    have hsettle : settle available e = deviceInformation rest := by
      have hsize : word16 high low = 6 := not_not.mp hsix
      have hlong : 6 ≤ rest.length := by omega
      rw [settle, if_pos hkind, hbody, hsize]
      match rest, hlong with
      | a :: b :: c :: d :: rest, _ =>
        rw [deviceInformation_eq, word16_eq, word16_eq]
        rfl
    rw [hencode, accepts_encode fun _ => hlength, hsettle]
    exact ih
  | case5 kind high low rest available size hlong hkind ih =>
    obtain ⟨e, rfl, hbody, hencode⟩ := @exists_encode kind high low rest (Nat.le_of_not_lt hlong)
    rw [hencode, accepts_encode fun h => absurd h hkind, settle, if_neg hkind]
    exact ih
  | case6 unread available hnil hheader =>
    rw [Bool.false_eq_true, false_iff]
    apply not_accepts hnil
    intro e tail htail
    obtain ⟨kind, high, low, rest, hencode⟩ : ∃ kind high low rest,
        e.encode ++ tail = kind :: high :: low :: rest := ⟨_, _, _, _, rfl⟩
    exact absurd (htail.trans hencode) (hheader kind high low rest)

/-- The helper offers the peers that the grammar allows. -/
theorem sinkAvailable_iff (data : List UInt8) :
    sinkAvailable data = true ↔ data.length ≤ 1024 ∧ AnnouncesSink data := by
  rw [sinkAvailable]
  split
  · next hlong =>
    rw [Bool.false_eq_true, false_iff]
    intro h
    exact absurd h.1 (Nat.not_le.mpr hlong)
  · next hlong =>
    rw [sinkLoop_exact, accepts_false_iff, and_iff_right (Nat.le_of_not_lt hlong)]

end Unread

/-- A run comes to an end after at most one pass for each byte and one more, reads inside
the string only, and accepts it exactly if the grammar does. -/
theorem sink_available_exact (data : List UInt8) :
    ∃ ranges result, SinkParser.run (data.length + 1) data = some (ranges, result) ∧
      (∀ r ∈ ranges, r.1 < r.2 ∧ r.2 ≤ data.length) ∧
      (result = true ↔ data.length ≤ 1024 ∧ AnnouncesSink data) := by
  rw [SinkParser.run]
  split
  · next hlong =>
    refine ⟨[], false, rfl, fun r hr => absurd hr List.not_mem_nil, ?_⟩
    rw [Bool.false_eq_true, false_iff]
    intro h
    exact absurd h.1 (Nat.not_le.mpr hlong)
  · next hlong =>
    obtain ⟨ranges, result, hrun, hranges, hresult⟩ :=
      @SinkParser.passes_exact data ⟨0, false⟩ (data.length + 1) (Nat.zero_le _)
        (Nat.lt_succ_of_le (Nat.sub_le _ _))
    refine ⟨ranges, result, hrun, hranges, ?_⟩
    rw [hresult, List.drop_zero, SinkParser.accepts_false_iff, and_iff_right (Nat.le_of_not_lt hlong)]

end HccastWired.Network
