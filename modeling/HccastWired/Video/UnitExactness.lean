import HccastWired.Video.Units

/-!
# Reads do not matter

What `iter_nals` yields and how it ends is a function of the bytes of the stream, and
`iter_access_units` cuts the units before each delimiter.
-/

namespace HccastWired.Video

open Foundation

/-- The whole stream in one read. -/
def wholeRead (data : Protocol.Bytes) : List Protocol.Bytes :=
  if data = [] then [] else [data]

/-- How a stream ends: without a start code only an empty one ends well. -/
def streamEnding (data : Protocol.Bytes) : Except AnnexBError Unit :=
  if fromFirst data = [] ∧ data ≠ [] then .error (.annexB "no Annex-B start code found")
  else .ok ()

/-- A unit as `iter_nals` yields it: a start code, something behind it, and no other start
code. -/
def IsNal (nal : Protocol.Bytes) : Prop :=
  ∃ length, startCodeAt nal = some length ∧ length < nal.length ∧
    findStartCode nal length = none

section Reads

theorem wholeRead_flatten (data : Protocol.Bytes) : (wholeRead data).flatten = data := by
  rw [wholeRead]
  split
  · next hnil => rw [hnil, List.flatten_nil]
  · rw [List.flatten_singleton]

theorem wholeRead_ne_nil {data chunk : Protocol.Bytes} (h : chunk ∈ wholeRead data) : chunk ≠ [] := by
  rw [wholeRead] at h
  split at h
  · exact absurd h List.not_mem_nil
  · next hne => rwa [List.mem_singleton.mp h]

/-- A stream without a start code is read to its end. -/
theorem iterNals_missing {buffer : Protocol.Bytes} {reads : List Protocol.Bytes}
    (hreads : ∀ chunk ∈ reads, chunk ≠ []) (hnone : fromFirst (buffer ++ reads.flatten) = []) :
    iterNals buffer false reads =
      ⟨[], if buffer ++ reads.flatten = [] then .ok ()
        else .error (.annexB "no Annex-B start code found")⟩ := by
  induction reads generalizing buffer with
  | nil =>
      rw [List.flatten_nil, List.append_nil] at hnone ⊢
      have hfind : findStartCode buffer 0 = none := by
        rw [findStartCode_eq, List.drop_zero]
        rw [fromFirst] at hnone
        rw [hnone]
        rfl
      rw [iterNals, readPass, if_neg Bool.false_ne_true, List.append_nil, hfind]
      by_cases hnil : buffer = []
      · simp [hnil, Generator.pure_def, Generator.bind_returned]
      · simp only [List.isEmpty_nil, if_true, if_neg hnil]
        rfl
  | cons chunk reads ih =>
      have hrest : ∀ other ∈ reads, other ≠ [] := fun other hother =>
        hreads other (List.mem_cons_of_mem _ hother)
      have hchunk : chunk ≠ [] := hreads chunk List.mem_cons_self
      have hempty : chunk.isEmpty = false := by simpa using hchunk
      rw [List.flatten_cons, ← List.append_assoc] at hnone ⊢
      have hmissing : (cut (buffer ++ chunk)).2 = [] := by
        by_contra hfound
        rw [fromFirst, cut_append hfound] at hnone
        exact hfound (List.append_eq_nil_iff.mp hnone).1
      have hfind : findStartCode (buffer ++ chunk) 0 = none := by
        rw [findStartCode_eq, List.drop_zero, hmissing]
        rfl
      have hkept : (buffer ++ chunk).drop ((buffer ++ chunk).length - 4) ≠ [] := by
        have hpos : 0 < chunk.length := List.length_pos_iff.mpr hchunk
        rw [Ne, List.drop_eq_nil_iff, List.length_append]
        omega
      have htail := ih hrest ((fromFirst_drop hmissing reads.flatten).trans hnone)
      rw [if_neg fun h => hkept (List.append_eq_nil_iff.mp h).1] at htail
      rw [iterNals, readPass, if_neg Bool.false_ne_true]
      simp only [hfind, hempty, Bool.false_eq_true, if_false, Generator.pure_def,
        Generator.bind_returned, htail]
      rw [if_neg fun h => hchunk (List.append_eq_nil_iff.mp (List.append_eq_nil_iff.mp h).1).2]
      rfl

/-- The bytes of the stream decide what is yielded and how it ends. -/
theorem iterNals_eq {reads : List Protocol.Bytes} (hreads : ∀ chunk ∈ reads, chunk ≠ []) :
    iterNals [] false reads = ⟨withoutEmptyUnits reads.flatten, streamEnding reads.flatten⟩ := by
  by_cases hcode : fromFirst reads.flatten = []
  · rw [iterNals_missing hreads (by rwa [List.nil_append]), List.nil_append, withoutEmptyUnits,
      hcode, units_none rfl, streamEnding]
    by_cases hnil : reads.flatten = []
    · simp [hnil]
    · simp [hnil, hcode]
  · rw [iterNals_units hreads hcode, streamEnding, if_neg fun h => hcode h.1]

end Reads

section Units

/-- Behind the start code of a unit there is no other. -/
theorem cut_before (data : Protocol.Bytes) : (cut (cut data).1).2 = [] := by
  induction data with
  | nil => rfl
  | cons byte rest ih =>
      rw [cut]
      split
      · rfl
      · next hnone =>
        rw [cut]
        split
        · next hcode =>
          obtain ⟨length, hlength⟩ := Option.isSome_iff_exists.mp hcode
          have hmore := startCodeAt_append hlength (cut rest).2
          rw [List.cons_append, cut_join] at hmore
          rw [hmore] at hnone
          exact absurd rfl hnone
        · exact ih

theorem units_body {data : Protocol.Bytes} {u : NalUnit} (h : u ∈ units data) : (cut u.body).2 = [] := by
  induction hn : data.length using Nat.strong_induction_on generalizing data with
  | _ n ih =>
    subst hn
    cases hcode : startCodeAt data with
    | none =>
        rw [units_none hcode] at h
        cases h
    | some length =>
        obtain ⟨hmin, hle⟩ := startCodeAt_length hcode
        have hcut := cut_length (data.drop length)
        rw [List.length_drop] at hcut
        rw [units_some hcode] at h
        obtain rfl | h := List.mem_cons.mp h
        · exact cut_before (data.drop length)
        · exact ih _ (by omega) h rfl

theorem units_isNal {data : Protocol.Bytes} {u : NalUnit} (h : u ∈ units data) (hbody : u.body ≠ []) :
    IsNal u.bytes := by
  refine ⟨u.code.length, startCodeAt_append (units_code h) u.body, ?_, ?_⟩
  · have hpos : 0 < u.body.length := List.length_pos_iff.mpr hbody
    rw [NalUnit.bytes, List.length_append]
    omega
  · rw [findStartCode_eq, NalUnit.bytes, List.drop_left, units_body h]
    rfl

theorem IsNal.type {nal : Protocol.Bytes} (h : IsNal nal) : ∃ nalType, nalUnitType nal = .ok nalType := by
  obtain ⟨length, hcode, hlong, -⟩ := h
  refine ⟨nal[length] &&& 0x1F, ?_⟩
  rw [nalUnitType, startCodeLength, hcode]
  simp [bind, Except.bind, pure, Except.pure, List.getElem?_eq_getElem hlong]

/-- All units of the stream, the empty ones too. -/
theorem fromFirst_flatten (data : Protocol.Bytes) :
    ((units (fromFirst data)).map NalUnit.bytes).flatten = fromFirst data := by
  obtain hnil | ⟨length, hlength⟩ := cut_head data
  · rw [fromFirst, hnil, units_none rfl]
    rfl
  · exact units_flatten hlength

end Units

section Groups

/-- A delimiter and what follows it up to the next one. -/
def IsGroup (group : List Protocol.Bytes) : Prop :=
  ∃ aud others, group = aud :: others ∧ nalUnitType aud = .ok 9 ∧
    ∀ nal ∈ others, nalUnitType nal ≠ .ok 9

theorem IsGroup.concat {group : List Protocol.Bytes} (h : IsGroup group) {nal : Protocol.Bytes}
    (hnal : nalUnitType nal ≠ .ok 9) : IsGroup (group ++ [nal]) := by
  obtain ⟨aud, others, rfl, haud, hothers⟩ := h
  refine ⟨aud, others ++ [nal], rfl, haud, ?_⟩
  intro other hother
  obtain h | h := List.mem_append.mp hother
  · exact hothers other h
  · rwa [List.mem_singleton.mp h]

/-- Once a delimiter was seen, the last group is pending. -/
theorem groupLoop_groups {pending nals : List Protocol.Bytes} (hpending : IsGroup pending)
    (hnals : ∀ nal ∈ nals, ∃ nalType, nalUnitType nal = .ok nalType) :
    ∃ (groups : List (List Protocol.Bytes)) (last : List Protocol.Bytes),
      groupLoop pending true nals = ⟨groups.map List.flatten, .ok last⟩ ∧
      groups.flatten ++ last = pending ++ nals ∧ (∀ group ∈ groups, IsGroup group) ∧
      IsGroup last := by
  induction nals generalizing pending with
  | nil =>
      refine ⟨[], pending, rfl, ?_, ?_, hpending⟩
      · rw [List.flatten_nil, List.nil_append, List.append_nil]
      · exact fun group hgroup => absurd hgroup List.not_mem_nil
  | cons nal nals ih =>
      obtain ⟨nalType, htype⟩ := hnals nal List.mem_cons_self
      have hrest : ∀ other ∈ nals, ∃ nalType, nalUnitType other = .ok nalType :=
        fun other hother => hnals other (List.mem_cons_of_mem _ hother)
      rw [groupLoop, htype]
      simp only
      by_cases haud : nalType = 9
      · have hnew : IsGroup [nal] := by
          refine ⟨nal, [], rfl, haud ▸ htype, ?_⟩
          exact fun other hother => absurd hother List.not_mem_nil
        obtain ⟨groups, last, hloop, hflat, hgroups, hlast⟩ := ih hnew hrest
        have hne : pending ≠ [] := by
          obtain ⟨aud, others, rfl, -⟩ := hpending
          exact List.cons_ne_nil aud others
        refine ⟨pending :: groups, last, ?_, ?_, ?_, hlast⟩
        · rw [if_pos haud, if_pos hne, Generator.yield_bind, hloop]
          rfl
        · rw [List.flatten_cons, List.append_assoc, hflat]
          rfl
        · exact List.forall_mem_cons.mpr ⟨hpending, hgroups⟩
      · have hother : nalUnitType nal ≠ .ok 9 := by
          rw [htype]
          exact fun h => haud (Except.ok.inj h)
        obtain ⟨groups, last, hloop, hflat, hgroups, hlast⟩ := ih (hpending.concat hother) hrest
        refine ⟨groups, last, ?_, ?_, hgroups, hlast⟩
        · rw [if_neg haud, if_pos trivial, hloop]
        · rw [hflat, List.append_assoc]
          rfl

/-- Before the first delimiter every unit is yielded alone. -/
theorem groupLoop_alone {nals : List Protocol.Bytes}
    (hnals : ∀ nal ∈ nals, ∃ nalType, nalUnitType nal = .ok nalType) :
    ∃ (before : List Protocol.Bytes) (groups : List (List Protocol.Bytes)) (last : List Protocol.Bytes),
      groupLoop [] false nals = ⟨before ++ groups.map List.flatten, .ok last⟩ ∧
      before ++ groups.flatten ++ last = nals ∧ (∀ nal ∈ before, nalUnitType nal ≠ .ok 9) ∧
      (∀ group ∈ groups, IsGroup group) ∧ (last = [] ∧ groups = [] ∨ IsGroup last) := by
  induction nals with
  | nil =>
      refine ⟨[], [], [], rfl, rfl, ?_, ?_, Or.inl ⟨rfl, rfl⟩⟩
      · exact fun nal hnal => absurd hnal List.not_mem_nil
      · exact fun group hgroup => absurd hgroup List.not_mem_nil
  | cons nal nals ih =>
      obtain ⟨nalType, htype⟩ := hnals nal List.mem_cons_self
      have hrest : ∀ other ∈ nals, ∃ nalType, nalUnitType other = .ok nalType :=
        fun other hother => hnals other (List.mem_cons_of_mem _ hother)
      rw [groupLoop, htype]
      simp only
      by_cases haud : nalType = 9
      · have hnew : IsGroup [nal] := by
          refine ⟨nal, [], rfl, haud ▸ htype, ?_⟩
          exact fun other hother => absurd hother List.not_mem_nil
        obtain ⟨groups, last, hloop, hflat, hgroups, hlast⟩ := groupLoop_groups hnew hrest
        refine ⟨[], groups, last, ?_, ?_, ?_, hgroups, Or.inr hlast⟩
        · rw [if_pos haud, if_neg (by simp), hloop]
          rfl
        · rw [List.nil_append, hflat]
          rfl
        · exact fun other hother => absurd hother List.not_mem_nil
      · obtain ⟨before, groups, last, hloop, hflat, hbefore, hgroups, hlast⟩ := ih hrest
        refine ⟨nal :: before, groups, last, ?_, ?_, ?_, hgroups, hlast⟩
        · rw [if_neg haud, if_neg Bool.false_ne_true, Generator.yield_bind, hloop]
          rfl
        · rw [List.cons_append, List.cons_append, hflat]
        · intro other hother
          obtain rfl | hother := List.mem_cons.mp hother
          · rw [htype]
            exact fun h => haud (Except.ok.inj h)
          · exact hbefore other hother

/-- The packets are the units before the first delimiter, and then the groups. -/
theorem iterAccessUnits_groups {nals : List Protocol.Bytes}
    (hnals : ∀ nal ∈ nals, ∃ nalType, nalUnitType nal = .ok nalType) :
    ∃ (before : List Protocol.Bytes) (groups : List (List Protocol.Bytes)),
      iterAccessUnits ⟨nals, .ok ()⟩ =
        ⟨before ++ groups.map List.flatten, .ok ()⟩ ∧
      before ++ groups.flatten = nals ∧ (∀ nal ∈ before, nalUnitType nal ≠ .ok 9) ∧
      ∀ group ∈ groups, IsGroup group := by
  obtain ⟨before, groups, last, hloop, hflat, hbefore, hgroups, hlast⟩ := groupLoop_alone hnals
  rw [iterAccessUnits, hloop, Generator.bind_returned]
  obtain ⟨rfl, rfl⟩ | hlast := hlast
  · refine ⟨before, [], ?_, ?_, hbefore, hgroups⟩
    · simp [Generator.pure_def]
    · rwa [List.append_nil] at hflat
  · have hne : last ≠ [] := by
      obtain ⟨aud, others, rfl, -⟩ := hlast
      exact List.cons_ne_nil aud others
    refine ⟨before, groups ++ [last], ?_, ?_, hbefore, ?_⟩
    · simp only [if_pos hne, List.map_append]
      rw [← List.append_assoc]
      rfl
    · rw [List.flatten_append, List.flatten_singleton, ← List.append_assoc, hflat]
    · intro group hgroup
      obtain h | h := List.mem_append.mp hgroup
      · exact hgroups group h
      · rwa [List.mem_singleton.mp h]

end Groups

/-- In whatever reads a stream arrives, the same units are yielded as in one read; they are
the non-empty ones of the units that make up the stream from its first start code on, each
with one start code, at its head, and nothing but a stream without any raises. Of such
units those before the first delimiter become packets alone, and then each packet is one
delimiter and what follows it. -/
theorem iter_nals_exact (reads : List Protocol.Bytes) (hreads : ∀ chunk ∈ reads, chunk ≠ []) :
    iterNals [] false reads = iterNals [] false (wholeRead reads.flatten) ∧
      (∃ all : List NalUnit, (all.map NalUnit.bytes).flatten = fromFirst reads.flatten ∧
        (iterNals [] false reads).items =
          (all.filter fun u => u.body ≠ []).map NalUnit.bytes ∧
        ∀ u ∈ all, startCodeAt u.bytes = some u.code.length) ∧
      (∀ nal ∈ (iterNals [] false reads).items, IsNal nal) ∧
      (iterNals [] false reads).ending = streamEnding reads.flatten ∧
      ∀ nals : List Protocol.Bytes, (∀ nal ∈ nals, IsNal nal) →
        ∃ (before : List Protocol.Bytes) (groups : List (List Protocol.Bytes)),
          iterAccessUnits ⟨nals, .ok ()⟩ =
            ⟨before ++ groups.map List.flatten, .ok ()⟩ ∧
          before ++ groups.flatten = nals ∧ (∀ nal ∈ before, nalUnitType nal ≠ .ok 9) ∧
          ∀ group ∈ groups, IsGroup group := by
  have hall := iterNals_eq hreads
  refine ⟨?_, ⟨units (fromFirst reads.flatten), ?_, ?_, ?_⟩, ?_, ?_, ?_⟩
  · rw [hall, iterNals_eq fun _ => wholeRead_ne_nil, wholeRead_flatten]
  · exact fromFirst_flatten reads.flatten
  · rw [hall, withoutEmptyUnits]
  · exact fun u hu => startCodeAt_append (units_code hu) u.body
  · rw [hall]
    intro nal hnal
    obtain ⟨u, hu, rfl⟩ := List.mem_map.mp hnal
    obtain ⟨hmem, hbody⟩ := List.mem_filter.mp hu
    exact units_isNal hmem (by simpa using hbody)
  · rw [hall]
  · exact fun nals hnals => iterAccessUnits_groups fun nal hnal => (hnals nal hnal).type

/-- A start code that is cut by a read, zero bytes before it and an empty unit. -/
theorem iter_nals_exact_cut :
    iterNals [] false [[0x7F, 0, 0], [0, 0, 1, 9, 0x10, 0, 0, 1, 0, 0, 1, 0x65]] =
        iterNals [] false [[0x7F, 0, 0, 0, 0, 1, 9, 0x10, 0, 0, 1, 0, 0, 1, 0x65]] ∧
      (iterNals [] false [[0x7F, 0, 0], [0, 0, 1, 9, 0x10, 0, 0, 1, 0, 0, 1, 0x65]]).items =
        [[0, 0, 0, 1, 9, 0x10], [0, 0, 1, 0x65]] :=
  ⟨(iter_nals_exact [[0x7F, 0, 0], [0, 0, 1, 9, 0x10, 0, 0, 1, 0, 0, 1, 0x65]]
      (by decide)).1, by decide +kernel⟩

end HccastWired.Video
