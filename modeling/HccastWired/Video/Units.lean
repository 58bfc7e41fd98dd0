import HccastWired.Video.AnnexB

/-!
# The units of a stream

The units of a whole byte string are defined without reads and buffers. The splitter
yields those that are not empty, however its input arrives: a start code that is found
stays where it is when more bytes come.
-/

namespace HccastWired.Video

open Foundation

/-! ## Start codes -/

section StartCode

variable {data : Protocol.Bytes}

/-- Four bytes decide whether a start code is there. -/
theorem startCodeAt_append_of_long (h : 4 ≤ data.length) (more : Protocol.Bytes) :
    startCodeAt (data ++ more) = startCodeAt data := by
  simp only [startCodeAt, List.take_append_of_le_length h,
    List.take_append_of_le_length (show 3 ≤ data.length by omega)]

/-- A start code stays one. -/
theorem startCodeAt_append {length : Nat} (h : startCodeAt data = some length) (more : Protocol.Bytes) :
    startCodeAt (data ++ more) = some length := by
  by_cases hlong : 4 ≤ data.length
  · rw [startCodeAt_append_of_long hlong, h]
  · obtain ⟨hmin, hle⟩ := startCodeAt_length h
    have hthree : data.length = 3 := by
      unfold startCodeAt at h
      split at h
      · next h4 =>
        have := congrArg List.length h4
        simp only [List.length_take, List.length_cons, List.length_nil] at this
        omega
      · split at h
        · next h3 =>
          have := congrArg List.length h3
          simp only [List.length_take, List.length_cons, List.length_nil] at this
          omega
        · cases h
    unfold startCodeAt at h
    rw [List.take_of_length_le (by omega), List.take_of_length_le (by omega)] at h
    split at h
    · next h4 =>
      rw [h4] at hthree
      cases hthree
    · split at h
      · next h3 =>
        rw [h3, ← h]
        simp [startCodeAt]
      · cases h

end StartCode

/-- The bytes before the first start code, and the others. -/
def cut : Protocol.Bytes → Protocol.Bytes × Protocol.Bytes
  | [] => ([], [])
  | byte :: rest =>
      if (startCodeAt (byte :: rest)).isSome then ([], byte :: rest)
      else (byte :: (cut rest).1, (cut rest).2)

/-- The stream from its first start code on. -/
def fromFirst (data : Protocol.Bytes) : Protocol.Bytes := (cut data).2

section Cut

theorem cut_join (data : Protocol.Bytes) : (cut data).1 ++ (cut data).2 = data := by
  induction data with
  | nil => rfl
  | cons byte rest ih =>
      rw [cut]
      split
      · rfl
      · rw [List.cons_append, ih]

theorem cut_length (data : Protocol.Bytes) : (cut data).1.length + (cut data).2.length = data.length := by
  rw [← List.length_append, cut_join]

/-- What is left begins with a start code, or nothing is left. -/
theorem cut_head (data : Protocol.Bytes) :
    (cut data).2 = [] ∨ ∃ length, startCodeAt (cut data).2 = some length := by
  induction data with
  | nil => exact Or.inl rfl
  | cons byte rest ih =>
      rw [cut]
      split
      · next h => exact Or.inr (Option.isSome_iff_exists.mp h)
      · exact ih

theorem cut_left_length {data : Protocol.Bytes} (h : (cut data).2 ≠ []) : 3 ≤ (cut data).2.length := by
  obtain hnil | ⟨length, hlength⟩ := cut_head data
  · exact absurd hnil h
  · obtain ⟨hmin, hle⟩ := startCodeAt_length hlength
    omega

/-- Once a start code is there, more bytes do not move it. -/
theorem cut_append {data : Protocol.Bytes} (h : (cut data).2 ≠ []) (more : Protocol.Bytes) :
    cut (data ++ more) = ((cut data).1, (cut data).2 ++ more) := by
  induction data with
  | nil => exact absurd rfl h
  | cons byte rest ih =>
      rw [List.cons_append, cut, cut]
      rw [cut] at h
      split at h
      · next hcode =>
        obtain ⟨length, hlength⟩ := Option.isSome_iff_exists.mp hcode
        have hmore := startCodeAt_append hlength more
        rw [List.cons_append] at hmore
        simp [hmore, hlength]
      · next hcode =>
        have hlong : 4 ≤ (byte :: rest).length := by
          have := cut_left_length h
          have := cut_length rest
          rw [List.length_cons]
          omega
        have hmore := startCodeAt_append_of_long hlong more
        rw [List.cons_append] at hmore
        rw [hmore, if_neg hcode, if_neg hcode, ih h]

/-- Without a start code the last four bytes are all that matters of a prefix. -/
theorem fromFirst_drop {data : Protocol.Bytes} (h : (cut data).2 = []) (more : Protocol.Bytes) :
    fromFirst (data.drop (data.length - 4) ++ more) = fromFirst (data ++ more) := by
  induction data with
  | nil => rfl
  | cons byte rest ih =>
      by_cases hlong : 4 < (byte :: rest).length
      · have hnone : ¬ (startCodeAt (byte :: rest)).isSome := by
          intro hcode
          rw [cut, if_pos hcode] at h
          cases h
        have hrest : (cut rest).2 = [] := by
          rw [cut, if_neg hnone] at h
          exact h
        have hmore := startCodeAt_append_of_long hlong.le more
        rw [List.cons_append] at hmore
        have hdrop : (byte :: rest).length - 4 = (rest.length - 4) + 1 := by
          rw [List.length_cons] at hlong ⊢
          omega
        rw [hdrop, List.drop_succ_cons, ih hrest, fromFirst, fromFirst, List.cons_append, cut,
          hmore, if_neg hnone]
      · rw [Nat.sub_eq_zero_of_le (Nat.le_of_not_lt hlong), List.drop_zero]

theorem findFrom_eq (data : Protocol.Bytes) (i : Nat) :
    findFrom i data = (startCodeAt (cut data).2).map fun length => (i + (cut data).1.length, length) := by
  induction data generalizing i with
  | nil => rfl
  | cons byte rest ih =>
      rw [findFrom, cut]
      cases hcode : startCodeAt (byte :: rest) with
      | some length => simp [hcode]
      | none =>
          simp only [Option.isSome_none, Bool.false_eq_true, if_false, List.length_cons]
          rw [ih, show i + 1 + (cut rest).1.length = i + ((cut rest).1.length + 1) by omega]

theorem findStartCode_eq (data : Protocol.Bytes) (start : Nat) :
    findStartCode data start = (startCodeAt (cut (data.drop start)).2).map fun length =>
      (start + (cut (data.drop start)).1.length, length) :=
  findFrom_eq (data.drop start) start

/-- A start code at the head is found there. -/
theorem findStartCode_head {data : Protocol.Bytes} {length : Nat} (h : startCodeAt data = some length) :
    findStartCode data 0 = some (0, length) := by
  have hcut : cut data = ([], data) := by
    cases data with
    | nil => rfl
    | cons byte rest => rw [cut, if_pos (by rw [h]; rfl)]
  rw [findStartCode_eq, List.drop_zero, hcut, h]
  rfl

end Cut

/-! ## Units -/

/-- A start code and the bytes up to the next one. -/
structure NalUnit where
  code : Protocol.Bytes
  body : Protocol.Bytes
deriving DecidableEq

def NalUnit.bytes (u : NalUnit) : Protocol.Bytes := u.code ++ u.body

/-- The units of a byte string that begins with a start code. -/
def units (data : Protocol.Bytes) : List NalUnit :=
  match _h : startCodeAt data with
  | none => []
  | some length =>
      ⟨data.take length, (cut (data.drop length)).1⟩ :: units (cut (data.drop length)).2
termination_by data.length
decreasing_by
  have hlength := cut_length (data.drop length)
  obtain ⟨hmin, hle⟩ := startCodeAt_length _h
  rw [List.length_drop] at hlength
  omega

theorem units_none {data : Protocol.Bytes} (h : startCodeAt data = none) : units data = [] := by
  rw [units]
  split
  · rfl
  · next length hlength =>
    rw [h] at hlength
    cases hlength

theorem units_some {data : Protocol.Bytes} {length : Nat} (h : startCodeAt data = some length) :
    units data =
      ⟨data.take length, (cut (data.drop length)).1⟩ :: units (cut (data.drop length)).2 := by
  rw [units]
  split
  · next hnone =>
    rw [h] at hnone
    cases hnone
  · next other hother =>
    obtain rfl := Option.some.inj (h.symm.trans hother)
    rfl

/-- The units are the whole string. -/
theorem units_flatten {data : Protocol.Bytes} {length : Nat} (h : startCodeAt data = some length) :
    ((units data).map NalUnit.bytes).flatten = data := by
  induction hn : data.length using Nat.strong_induction_on generalizing data length with
  | _ n ih =>
    subst hn
    have hcut := cut_length (data.drop length)
    obtain ⟨hmin, hle⟩ := startCodeAt_length h
    rw [List.length_drop] at hcut
    rw [units_some h, List.map_cons, List.flatten_cons, NalUnit.bytes]
    have hrest : ((units (cut (data.drop length)).2).map NalUnit.bytes).flatten =
        (cut (data.drop length)).2 := by
      obtain hnil | ⟨next, hnext⟩ := cut_head (data.drop length)
      · rw [hnil, units_none rfl]
        rfl
      · exact ih _ (by omega) hnext rfl
    rw [hrest, List.append_assoc, cut_join, List.take_append_drop]

/-- The stream from its first start code on, without its empty units. -/
def withoutEmptyUnits (data : Protocol.Bytes) : List Protocol.Bytes :=
  ((units (fromFirst data)).filter fun u => u.body ≠ []).map NalUnit.bytes

/-! ## The splitter -/

/-- The complete units of a buffer, and the last one, which more bytes can lengthen. -/
theorem splitLoop_units {buffer : Protocol.Bytes} {length : Nat} (h : startCodeAt buffer = some length) :
    ∃ complete last code, splitLoop buffer =
        ⟨(complete.filter fun u : NalUnit => u.body ≠ []).map NalUnit.bytes, .ok last⟩ ∧
      startCodeAt last = some code ∧ units last = [⟨last.take code, last.drop code⟩] ∧
      ∀ more, units (buffer ++ more) = complete ++ units (last ++ more) := by
  induction hn : buffer.length using Nat.strong_induction_on generalizing buffer length with
  | _ n ih =>
    subst hn
    obtain ⟨hmin, hle⟩ := startCodeAt_length h
    have hcut := cut_length (buffer.drop length)
    have hjoin := cut_join (buffer.drop length)
    rw [List.length_drop] at hcut
    by_cases hrest : (cut (buffer.drop length)).2 = []
    · -- No other start code: the whole buffer is the last unit.
      have hfollowing : findStartCode buffer length = none := by
        rw [findStartCode_eq, hrest]
        rfl
      rw [hrest, List.append_nil] at hjoin
      refine ⟨[], buffer, length, ?_, h, ?_, fun more => rfl⟩
      · rw [splitLoop, findStartCode_head h]
        simp only
        split
        · rfl
        · next hsome =>
          rw [hfollowing] at hsome
          cases hsome
      · rw [units_some h, hrest, units_none rfl, hjoin]
    · obtain hnil | ⟨next, hnext⟩ := cut_head (buffer.drop length)
      · exact absurd hnil hrest
      let body := (cut (buffer.drop length)).1
      have hfollowing : findStartCode buffer length = some (length + body.length, next) := by
        rw [findStartCode_eq, hnext]
        rfl
      have hdrop : buffer.drop (length + body.length) = (cut (buffer.drop length)).2 := by
        calc buffer.drop (length + body.length)
            = (buffer.drop length).drop body.length := List.drop_drop.symm
          _ = (body ++ (cut (buffer.drop length)).2).drop body.length := by rw [hjoin]
          _ = (cut (buffer.drop length)).2 := List.drop_left
      have htake : buffer.take (length + body.length) = buffer.take length ++ body := by
        calc buffer.take (length + body.length)
            = buffer.take length ++ (buffer.drop length).take body.length := List.take_add
          _ = buffer.take length ++ (body ++ (cut (buffer.drop length)).2).take body.length := by
              rw [hjoin]
          _ = buffer.take length ++ body := by rw [List.take_left]
      obtain ⟨complete, last, code, hloop, hlast, hunits, hmore⟩ := ih
        (cut (buffer.drop length)).2.length (by omega) hnext rfl
      refine ⟨⟨buffer.take length, body⟩ :: complete, last, code, ?_, hlast, hunits, ?_⟩
      · rw [splitLoop, findStartCode_head h]
        simp only
        split
        · next hnone =>
          rw [hfollowing] at hnone
          cases hnone
        · next following other hsome =>
          obtain ⟨rfl, -⟩ := Prod.mk.inj (Option.some.inj (hfollowing.symm.trans hsome))
          rw [hdrop, hloop]
          by_cases hbody : body = []
          · rw [if_neg (by rw [hbody, List.length_nil]; omega), List.filter_cons_of_neg (by simp [hbody])]
          · have hpos : 0 < body.length := List.length_pos_iff.mpr hbody
            rw [if_pos (by omega), Generator.yield_bind, htake,
              List.filter_cons_of_pos (by simp [hbody])]
            rfl
      · intro more
        have hmove := startCodeAt_append h more
        have hdropped : (buffer ++ more).drop length = buffer.drop length ++ more :=
          List.drop_append_of_le_length hle
        rw [units_some hmove, hdropped, cut_append hrest, hmore,
          List.take_append_of_le_length hle]
        rfl

/-- A pass that is not the last one yields the units that are complete. -/
theorem splitPass_units {buffer : Protocol.Bytes} {length : Nat} (h : startCodeAt buffer = some length) :
    ∃ complete last code, splitPass false buffer =
        ⟨(complete.filter fun u : NalUnit => u.body ≠ []).map NalUnit.bytes,
          .ok (some (last, true))⟩ ∧
      startCodeAt last = some code ∧
      ∀ more, units (buffer ++ more) = complete ++ units (last ++ more) := by
  obtain ⟨complete, last, code, hloop, hlast, -, hmore⟩ := splitLoop_units h
  refine ⟨complete, last, code, ?_, hlast, hmore⟩
  simp [splitPass, hloop, Generator.bind_returned, Generator.pure_def]

/-- The last pass yields all units. -/
theorem splitPass_ends {buffer : Protocol.Bytes} {length : Nat} (h : startCodeAt buffer = some length) :
    splitPass true buffer =
      ⟨((units buffer).filter fun u => u.body ≠ []).map NalUnit.bytes, .ok none⟩ := by
  obtain ⟨complete, last, code, hloop, hlast, hunits, hmore⟩ := splitLoop_units h
  have hall := hmore []
  rw [List.append_nil, List.append_nil, hunits] at hall
  have hbytes : last.take code ++ last.drop code = last := List.take_append_drop ..
  rw [splitPass, hloop, Generator.bind_returned, hall, List.filter_append, List.map_append]
  simp only [if_true, findStartCode_head hlast]
  by_cases hbody : last.drop code = []
  · rw [if_neg (by rw [List.drop_eq_nil_iff] at hbody; omega),
      List.filter_cons_of_neg (by simp [hbody])]
    simp [Generator.pure_def]
  · rw [if_pos (by rw [List.drop_eq_nil_iff] at hbody; omega),
      List.filter_cons_of_pos (by simp [hbody])]
    simp [Generator.yield_bind, Generator.pure_def, NalUnit.bytes, hbytes]

/-- Protocol.Bytes that begin with a start code, and the reads that follow. -/
theorem iterNals_found {buffer : Protocol.Bytes} {length : Nat} (h : startCodeAt buffer = some length)
    {reads : List Protocol.Bytes} (hreads : ∀ chunk ∈ reads, chunk ≠ []) :
    iterNals buffer true reads =
      ⟨((units (buffer ++ reads.flatten)).filter fun u => u.body ≠ []).map NalUnit.bytes,
        .ok ()⟩ := by
  induction reads generalizing buffer length with
  | nil =>
      rw [iterNals, readPass, if_pos rfl, List.append_nil, List.isEmpty_nil, splitPass_ends h,
        Generator.bind_returned]
      simp [Generator.pure_def]
  | cons chunk reads ih =>
      have hne : chunk.isEmpty = false := by simpa using hreads chunk List.mem_cons_self
      obtain ⟨complete, last, code, hpass, hlast, hmore⟩ :=
        splitPass_units (startCodeAt_append h chunk)
      have hrest := ih hlast fun other hother => hreads other (List.mem_cons_of_mem _ hother)
      rw [iterNals, readPass, if_pos rfl, hne, hpass, Generator.bind_returned]
      simp only [hrest]
      rw [List.flatten_cons, ← List.append_assoc, hmore, List.filter_append, List.map_append]

theorem findStartCode_none {data : Protocol.Bytes} (h : findStartCode data 0 = none) : (cut data).2 = [] := by
  rw [findStartCode_eq, List.drop_zero, Option.map_eq_none_iff] at h
  obtain hnil | ⟨length, hlength⟩ := cut_head data
  · exact hnil
  · rw [h] at hlength
    cases hlength

theorem findStartCode_some {data : Protocol.Bytes} {first length : Nat}
    (h : findStartCode data 0 = some (first, length)) :
    data.drop first = fromFirst data ∧ startCodeAt (fromFirst data) = some length := by
  rw [findStartCode_eq, List.drop_zero] at h
  obtain ⟨code, hcode, heq⟩ := Option.map_eq_some_iff.mp h
  obtain ⟨hfirst, rfl⟩ := Prod.mk.inj heq
  refine ⟨?_, hcode⟩
  rw [← hfirst, Nat.zero_add]
  calc data.drop (cut data).1.length
      = ((cut data).1 ++ (cut data).2).drop (cut data).1.length := by rw [cut_join]
    _ = (cut data).2 := List.drop_left

/-- Before the first start code is found it makes no difference which prefix is kept. -/
theorem iterNals_searching {buffer : Protocol.Bytes} {reads : List Protocol.Bytes}
    (hreads : ∀ chunk ∈ reads, chunk ≠ []) (hnone : (cut buffer).2 = [])
    (hcode : fromFirst (buffer ++ reads.flatten) ≠ []) :
    iterNals buffer false reads = ⟨withoutEmptyUnits (buffer ++ reads.flatten), .ok ()⟩ := by
  induction reads generalizing buffer with
  | nil =>
      rw [List.flatten_nil, List.append_nil] at hcode
      exact absurd hnone hcode
  | cons chunk reads ih =>
      have hrest : ∀ other ∈ reads, other ≠ [] := fun other hother =>
        hreads other (List.mem_cons_of_mem _ hother)
      have hne : chunk.isEmpty = false := by simpa using hreads chunk List.mem_cons_self
      rw [List.flatten_cons, ← List.append_assoc] at hcode ⊢
      cases hfind : findStartCode (buffer ++ chunk) 0 with
      | none =>
          have hmissing := findStartCode_none hfind
          have hsame := fromFirst_drop hmissing reads.flatten
          have hkept : (cut ((buffer ++ chunk).drop ((buffer ++ chunk).length - 4))).2 = [] := by
            have := fromFirst_drop hmissing []
            rw [List.append_nil, List.append_nil] at this
            exact this.trans hmissing
          have htail := ih hrest hkept (by rw [hsame]; exact hcode)
          rw [withoutEmptyUnits, hsame] at htail
          rw [iterNals, readPass, if_neg Bool.false_ne_true]
          simp only [hfind, hne, Bool.false_eq_true, if_false, Generator.pure_def,
            Generator.bind_returned, List.nil_append, htail]
          rfl
      | some found =>
          obtain ⟨hdrop, hlength⟩ := findStartCode_some hfind
          have hhead : (cut (buffer ++ chunk)).2 ≠ [] := by
            intro hnil
            rw [fromFirst, hnil] at hlength
            cases hlength
          have hfirst : fromFirst (buffer ++ chunk ++ reads.flatten) =
              fromFirst (buffer ++ chunk) ++ reads.flatten := by
            rw [fromFirst, cut_append hhead]
            rfl
          obtain ⟨complete, last, code, hpass, hlast, hmore⟩ := splitPass_units hlength
          have htail := iterNals_found hlast hrest
          rw [iterNals, readPass, if_neg Bool.false_ne_true]
          simp only [hfind, hne, hdrop, hpass, Generator.bind_returned, htail]
          rw [withoutEmptyUnits, hfirst, hmore, List.filter_append, List.map_append]

/-- However a stream with a start code arrives, the splitter yields its units from there
on, without the empty ones. -/
theorem iterNals_units {reads : List Protocol.Bytes} (hreads : ∀ chunk ∈ reads, chunk ≠ [])
    (hcode : fromFirst reads.flatten ≠ []) :
    iterNals [] false reads = ⟨withoutEmptyUnits reads.flatten, .ok ()⟩ :=
  iterNals_searching hreads rfl hcode

/-! ## Access units -/

theorem startCodeAt_take {data : Protocol.Bytes} {length : Nat} (h : startCodeAt data = some length) :
    startCodeAt (data.take length) = some length := by
  unfold startCodeAt at h
  split at h
  · next h4 =>
    obtain rfl := Option.some.inj h
    rw [h4]
    rfl
  · split at h
    · next h3 =>
      obtain rfl := Option.some.inj h
      rw [h3]
      rfl
    · cases h

/-- A unit begins with its start code. -/
theorem units_code {data : Protocol.Bytes} {u : NalUnit} (h : u ∈ units data) :
    startCodeAt u.code = some u.code.length := by
  induction hn : data.length using Nat.strong_induction_on generalizing data with
  | _ n ih =>
    subst hn
    cases hcode : startCodeAt data with
    | none =>
        rw [units_none hcode] at h
        cases h
    | some length =>
        obtain ⟨hmin, hle⟩ := startCodeAt_length hcode
        have hcut := cut_length (data.drop length)
        rw [List.length_drop] at hcut
        rw [units_some hcode] at h
        rcases List.mem_cons.mp h with rfl | h
        · rw [startCodeAt_take hcode, List.length_take, Nat.min_eq_left hle]
        · exact ih _ (by omega) h rfl

/-- The splitter's units have a type. -/
theorem withoutEmptyUnits_type {data nal : Protocol.Bytes} (h : nal ∈ withoutEmptyUnits data) :
    nal ≠ [] ∧ ∃ nalType, nalUnitType nal = .ok nalType := by
  obtain ⟨u, hu, rfl⟩ := List.mem_map.mp h
  obtain ⟨hmem, hbody⟩ := List.mem_filter.mp hu
  have hne : u.body ≠ [] := by simpa using hbody
  obtain ⟨byte, rest, hcons⟩ := List.exists_cons_of_ne_nil hne
  have hcode := startCodeAt_append (units_code hmem) u.body
  constructor
  · rw [NalUnit.bytes, hcons]
    simp
  · refine ⟨byte &&& 0x1F, ?_⟩
    rw [NalUnit.bytes, nalUnitType, startCodeLength, hcode, hcons]
    simp [bind, Except.bind, pure, Except.pure]

/-- Grouping loses nothing and yields no empty packet. -/
theorem groupLoop_flatten {pending nals : List Protocol.Bytes} {sawAud : Bool}
    (hpending : ∀ nal ∈ pending, nal ≠ []) (hsaw : sawAud = false → pending = [])
    (hnals : ∀ nal ∈ nals, nal ≠ [] ∧ ∃ nalType, nalUnitType nal = .ok nalType) :
    ∃ items rest, groupLoop pending sawAud nals = ⟨items, .ok rest⟩ ∧
      items.flatten ++ rest.flatten = pending.flatten ++ nals.flatten ∧
      (∀ packet ∈ items, packet ≠ []) ∧ ∀ nal ∈ rest, nal ≠ [] := by
  induction nals generalizing pending sawAud with
  | nil => exact ⟨[], pending, rfl, by simp, by simp, hpending⟩
  | cons nal nals ih =>
      obtain ⟨hne, nalType, htype⟩ := hnals nal List.mem_cons_self
      have hrest : ∀ other ∈ nals, other ≠ [] ∧ ∃ t, nalUnitType other = .ok t := fun other h =>
        hnals other (List.mem_cons_of_mem _ h)
      rw [groupLoop, htype]
      simp only
      by_cases haud : nalType = 9
      · obtain ⟨items, rest, hloop, hflat, hitems, hkept⟩ :=
          @ih [nal] true (by simpa using hne) (by simp) hrest
        rw [if_pos haud, hloop]
        by_cases hnone : pending = []
        · refine ⟨items, rest, ?_, ?_, hitems, hkept⟩
          · rw [if_neg (by simp [hnone])]
          · rw [hflat, hnone]
            simp
        · refine ⟨pending.flatten :: items, rest, ?_, ?_, ?_, hkept⟩
          · rw [if_pos hnone, Generator.yield_bind]
          · rw [List.flatten_cons, List.append_assoc, hflat]
            simp
          · refine List.forall_mem_cons.mpr ⟨?_, hitems⟩
            obtain ⟨first, others, rfl⟩ := List.exists_cons_of_ne_nil hnone
            have := hpending first List.mem_cons_self
            simp [this]
      · rw [if_neg haud]
        cases sawAud with
        | true =>
            obtain ⟨items, rest, hloop, hflat, hitems, hkept⟩ :=
              @ih (pending ++ [nal]) true
                (by
                  intro other hother
                  rcases List.mem_append.mp hother with h | h
                  · exact hpending other h
                  · exact List.mem_singleton.mp h ▸ hne)
                (by simp) hrest
            refine ⟨items, rest, hloop, ?_, hitems, hkept⟩
            rw [hflat]
            simp
        | false =>
            obtain rfl := hsaw rfl
            obtain ⟨items, rest, hloop, hflat, hitems, hkept⟩ :=
              @ih [] false (by simp) (by simp) hrest
            refine ⟨nal :: items, rest, ?_, ?_, List.forall_mem_cons.mpr ⟨hne, hitems⟩, hkept⟩
            · simp only [Bool.false_eq_true, if_false, Generator.yield_bind, hloop]
            · rw [List.flatten_cons, List.append_assoc, hflat]
              simp

/-- Both packetizations yield packets that are, one after the other, the units. -/
theorem packetsFromStream_flatten {reads : List Protocol.Bytes} (hreads : ∀ chunk ∈ reads, chunk ≠ [])
    (hcode : fromFirst reads.flatten ≠ []) {packetization : String}
    (hmode : packetization = "nal" ∨ packetization = "access-unit") :
    ∃ packets, packetsFromStream packetization reads = ⟨packets, .ok ()⟩ ∧
      packets.flatten = (withoutEmptyUnits reads.flatten).flatten ∧
      ∀ packet ∈ packets, packet ≠ [] := by
  have hnals := iterNals_units hreads hcode
  obtain rfl | rfl := hmode
  · exact ⟨_, by rw [packetsFromStream, if_pos rfl, hnals], rfl, fun packet hpacket =>
      (withoutEmptyUnits_type hpacket).1⟩
  · obtain ⟨items, rest, hloop, hflat, hitems, hkept⟩ :=
      @groupLoop_flatten [] (withoutEmptyUnits reads.flatten) false (by simp) (by simp)
        fun nal hnal => withoutEmptyUnits_type hnal
    rw [packetsFromStream, if_neg (by decide), if_pos rfl, iterAccessUnits, hnals, hloop,
      Generator.bind_returned]
    simp only
    rw [List.flatten_nil, List.nil_append] at hflat
    by_cases hnone : rest = []
    · rw [hnone, List.flatten_nil, List.append_nil] at hflat
      exact ⟨items, by simp [hnone, Generator.pure_def], hflat, hitems⟩
    · refine ⟨items ++ [rest.flatten], ?_, ?_, ?_⟩
      · rw [if_pos hnone]
        rfl
      · rw [List.flatten_append, List.flatten_singleton, hflat]
      · intro packet hpacket
        rcases List.mem_append.mp hpacket with h | h
        · exact hitems packet h
        · obtain ⟨first, others, rfl⟩ := List.exists_cons_of_ne_nil hnone
          have := hkept first List.mem_cons_self
          rw [List.mem_singleton.mp h]
          simp [this]

end HccastWired.Video
