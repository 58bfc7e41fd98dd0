import HccastWired.Foundation.Grouping

/-!
# The mode that the worker selects from an advertisement

A receiver advertises modes, and a request names one by its size and rate. One
pass over the advertisement keeps the best mode so far.
-/

namespace HccastWired.Wfd

open Foundation

/-- `PbWfdRequest`. -/
structure WfdRequest where
  wireFields : UInt32
  width : Int32
  height : Int32
  fps : Int32
  bitrateSet : Bool
  bitrateKbps : Int32
deriving DecidableEq, Repr

/-- What the selection reads of `PbWfdAdvertisedMode`. -/
structure AdvertisedMode where
  width : Int32
  height : Int32
  fps : Int32
  interlaced : Bool
  profileBits : UInt32
  level : UInt32
deriving DecidableEq, Repr

/-- `PbWfdProfileResult`. -/
inductive ProfileResult
  | ok
  | incompleteMode
  | unsupportedMode
  | badBitrate
  | notAdvertised
deriving DecidableEq, Repr

/-- `pb_wfd_validate_request`; a null pointer is `none`. -/
def validateRequest (request : Option WfdRequest) : ProfileResult :=
  match request with
  | none => .unsupportedMode
  | some request =>
      if request.wireFields ≠ 0 ∧ request.wireFields ≠ 7 then .incompleteMode
      else if request.wireFields ≠ 0 ∧ (request.fps ≠ 30 ∨
          ¬ ((request.width = 1280 ∧ request.height = 720) ∨
            (request.width = 1920 ∧ request.height = 1080))) then
        .unsupportedMode
      else if request.bitrateSet = true ∧
          (request.bitrateKbps < 512 ∨ request.bitrateKbps > 8000) then
        .badBitrate
      else .ok

/-- The variables `chosen_index`, `chosen_profile` and `chosen_level`. -/
structure Chosen where
  index : Nat
  profile : UInt32
  level : UInt32
deriving DecidableEq, Repr

namespace AdvertisedMode

/-- The mode is not the requested one. -/
def differs (request : WfdRequest) (mode : AdvertisedMode) : Bool :=
  mode.interlaced || decide (mode.width ≠ request.width) ||
    decide (mode.height ≠ request.height) || decide (mode.fps ≠ request.fps)

/-- The profile that the mode would be selected for, or 0. -/
def profileFor (preferred : UInt32) (mode : AdvertisedMode) : UInt32 :=
  if mode.profileBits &&& preferred ≠ 0 then preferred
  else if mode.profileBits &&& 1 ≠ 0 then 1
  else if mode.profileBits &&& 2 ≠ 0 then 2
  else 0

end AdvertisedMode

/-- The new mode replaces the chosen one. -/
def Chosen.yieldsTo (preferred : UInt32) (chosen new : Chosen) : Bool :=
  (decide (chosen.profile ≠ preferred) && decide (new.profile = preferred)) ||
    (decide (chosen.profile = new.profile) && decide (new.level > chosen.level))

/-- One round of the loop; `found` is that something is chosen. -/
def consider (request : WfdRequest) (preferred : UInt32) (chosen : Option Chosen)
    (item : AdvertisedMode × Nat) : Option Chosen :=
  if item.1.differs request then chosen
  else if item.1.profileFor preferred = 0 then chosen
  else
    let new : Chosen := ⟨item.2, item.1.profileFor preferred, item.1.level⟩
    match chosen with
    | none => some new
    | some old => if old.yieldsTo preferred new then some new else some old

/-- The preferred profile, where it is one. -/
def preference (preferredProfile : UInt32) : UInt32 :=
  if preferredProfile ≠ 1 ∧ preferredProfile ≠ 2 then 1 else preferredProfile

/-- `pb_wfd_select_advertised_mode`. A null pointer to the modes is `none`; the
places for the results are there or not. -/
def selectAdvertisedMode (request : Option WfdRequest) (modes : Option (List AdvertisedMode))
    (preferredProfile : UInt32) (selectedIndex selectedProfile : Bool) :
    Except ProfileResult (Nat × UInt32) :=
  if validateRequest request ≠ .ok then .error (validateRequest request)
  else
    match request with
    | none => .error .unsupportedMode
    | some request =>
        if request.wireFields = 0 ∨ selectedIndex = false ∨ selectedProfile = false then
          .error .unsupportedMode
        else
          match modes with
          | none => .error .notAdvertised
          | some modes =>
              match modes.zipIdx.foldl (consider request (preference preferredProfile)) none with
              | none => .error .notAdvertised
              | some chosen => .ok (chosen.index, chosen.profile)

/-! ## The best mode -/

namespace AdvertisedMode

def Offers (profile : UInt32) (mode : AdvertisedMode) : Prop := mode.profileBits &&& profile ≠ 0

instance (profile : UInt32) (mode : AdvertisedMode) : Decidable (mode.Offers profile) :=
  inferInstanceAs (Decidable (_ ≠ _))

/-- A progressive mode of the requested size and rate, of a profile that the
worker encodes. -/
structure Serves (request : WfdRequest) (mode : AdvertisedMode) : Prop where
  progressive : mode.interlaced = false
  width : mode.width = request.width
  height : mode.height = request.height
  fps : mode.fps = request.fps
  profile : mode.Offers 1 ∨ mode.Offers 2

/-- The first mode comes before the second one: the preferred profile counts
most, then the level, then the place in the advertisement. -/
def Precedes (preferred : UInt32) (first second : AdvertisedMode × Nat) : Prop :=
  (first.1.Offers preferred ∧ ¬ second.1.Offers preferred) ∨
    ((first.1.Offers preferred ↔ second.1.Offers preferred) ∧
      (second.1.level < first.1.level ∨
        (second.1.level = first.1.level ∧ first.2 < second.2)))

end AdvertisedMode

theorem preference_cases (preferredProfile : UInt32) :
    preference preferredProfile = 1 ∨ preference preferredProfile = 2 := by
  unfold preference
  split
  · exact Or.inl rfl
  next h =>
    rw [not_and_or, not_not, not_not] at h
    exact h

/-- The candidate that a mode is. -/
def candidate (request : WfdRequest) (preferred : UInt32) (item : AdvertisedMode × Nat) :
    Option Chosen :=
  if item.1.differs request ∨ item.1.profileFor preferred = 0 then none
  else some ⟨item.2, item.1.profileFor preferred, item.1.level⟩

section Pass

variable {request : WfdRequest} {preferred : UInt32} {mode : AdvertisedMode}

/-- The pass chooses among the candidates. -/
theorem foldl_consider (items : List (AdvertisedMode × Nat)) :
    items.foldl (consider request preferred) none =
      firstBest (fun new old => old.yieldsTo preferred new)
        (items.filterMap (candidate request preferred)) := by
  induction items using List.reverseRecOn with
  | nil => rfl
  | append_singleton items last ih =>
      rw [List.foldl_append, List.foldl_cons, List.foldl_nil, ih, List.filterMap_append]
      by_cases hskip : last.1.differs request = true ∨ last.1.profileFor preferred = 0
      · have hnone : candidate request preferred last = none := if_pos hskip
        rw [List.filterMap_cons_none hnone, List.filterMap_nil, List.append_nil]
        unfold consider
        rcases hskip with hdiffers | hprofile
        · exact if_pos hdiffers
        · rw [if_pos hprofile, ite_self]
      · have hsome : candidate request preferred last =
            some ⟨last.2, last.1.profileFor preferred, last.1.level⟩ := if_neg hskip
        rw [not_or] at hskip
        rw [List.filterMap_cons_some hsome, List.filterMap_nil, firstBest_append_singleton]
        unfold consider
        rw [if_neg hskip.1, if_neg hskip.2]
        split
        next hnone => rw [hnone]
        next old hold =>
          rw [hold]
          exact (apply_ite some _ _ _).symm

namespace AdvertisedMode

theorem differs_eq_false : mode.differs request = false ↔
    mode.interlaced = false ∧ mode.width = request.width ∧ mode.height = request.height ∧
      mode.fps = request.fps := by
  simp [differs, and_assoc]

/-- A mode is selected for the preferred profile where it offers that, and else
for the other one. -/
theorem profileFor_spec (mode : AdvertisedMode) (hpreferred : preferred = 1 ∨ preferred = 2) :
    (mode.profileFor preferred = preferred ↔ mode.Offers preferred) ∧
      (mode.profileFor preferred = 0 ↔ ¬ (mode.Offers 1 ∨ mode.Offers 2)) ∧
      (mode.profileFor preferred ≠ 0 → mode.Offers (mode.profileFor preferred) ∧
        (mode.profileFor preferred = 1 ∨ mode.profileFor preferred = 2)) := by
  unfold profileFor Offers
  by_cases hone : mode.profileBits &&& 1 = 0
  · by_cases htwo : mode.profileBits &&& 2 = 0
    · rcases hpreferred with rfl | rfl
      · simp [hone, htwo]
      · simp [hone, htwo]
    · rcases hpreferred with rfl | rfl
      · simp [hone, htwo]
      · simp [hone, htwo]
  · by_cases htwo : mode.profileBits &&& 2 = 0
    · rcases hpreferred with rfl | rfl
      · simp [hone, htwo]
      · simp [hone, htwo]
    · rcases hpreferred with rfl | rfl
      · simp [hone, htwo]
      · simp [hone, htwo]

/-- The candidates are the modes that serve the request. -/
theorem candidate_isSome (request : WfdRequest) (mode : AdvertisedMode)
    (hpreferred : preferred = 1 ∨ preferred = 2) (index : Nat) :
    candidate request preferred (mode, index) =
        some ⟨index, mode.profileFor preferred, mode.level⟩ ∧ mode.Serves request ∨
      candidate request preferred (mode, index) = none ∧ ¬ mode.Serves request := by
  have hzero := (profileFor_spec mode hpreferred).2.1
  by_cases hskip : mode.differs request = true ∨ mode.profileFor preferred = 0
  · right
    refine ⟨if_pos hskip, ?_⟩
    rintro ⟨hprogressive, hwidth, hheight, hfps, hprofile⟩
    have hsame := differs_eq_false.mpr ⟨hprogressive, hwidth, hheight, hfps⟩
    rw [hsame] at hskip
    rcases hskip with hskip | hskip
    · cases hskip
    · exact hzero.mp hskip hprofile
  · left
    refine ⟨if_neg hskip, ?_⟩
    rw [not_or, Bool.not_eq_true] at hskip
    obtain ⟨hprogressive, hwidth, hheight, hfps⟩ := differs_eq_false.mp hskip.1
    exact ⟨hprogressive, hwidth, hheight, hfps, not_not.mp fun hnot => hskip.2 (hzero.mpr hnot)⟩

end AdvertisedMode

/-- What counts for a candidate: the preferred profile, then the level. -/
def Chosen.worth (preferred : UInt32) (c : Chosen) : Bool ×ₗ Nat :=
  toLex (decide (c.profile = preferred), c.level.toNat)

theorem Chosen.worth_lt {old new : Chosen} : old.worth preferred < new.worth preferred ↔
    (old.profile ≠ preferred ∧ new.profile = preferred) ∨
      ((old.profile = preferred ↔ new.profile = preferred) ∧ old.level < new.level) := by
  rw [Chosen.worth, Chosen.worth, Prod.Lex.toLex_lt_toLex, Bool.lt_iff, decide_eq_false_iff_not,
    decide_eq_true_iff, decide_eq_decide, UInt32.lt_iff_toNat_lt]

/-- The replacement rule compares by worth: there are two profiles. -/
theorem Chosen.yieldsTo_iff {old new : Chosen} (hpreferred : preferred = 1 ∨ preferred = 2)
    (hold : old.profile = 1 ∨ old.profile = 2) (hnew : new.profile = 1 ∨ new.profile = 2) :
    old.yieldsTo preferred new = true ↔ old.worth preferred < new.worth preferred := by
  have hsame : old.profile = new.profile ↔ (old.profile = preferred ↔ new.profile = preferred) := by
    rcases hpreferred with rfl | rfl
    · rcases hold with hold | hold <;> rcases hnew with hnew | hnew <;> simp [hold, hnew]
    · rcases hold with hold | hold <;> rcases hnew with hnew | hnew <;> simp [hold, hnew]
  rw [Chosen.worth_lt, ← hsame]
  simp [Chosen.yieldsTo]

end Pass

section Choice

variable {request : WfdRequest} {preferred : UInt32} {modes : List AdvertisedMode}

/-- The candidates of an advertisement, in its order. -/
def candidates (request : WfdRequest) (preferred : UInt32) (modes : List AdvertisedMode) :
    List Chosen :=
  modes.zipIdx.filterMap (candidate request preferred)

theorem mem_candidates (hpreferred : preferred = 1 ∨ preferred = 2) {c : Chosen} :
    c ∈ candidates request preferred modes ↔
      ∃ mode, modes[c.index]? = some mode ∧ mode.Serves request ∧
        c = ⟨c.index, mode.profileFor preferred, mode.level⟩ := by
  rw [candidates, List.mem_filterMap]
  constructor
  · rintro ⟨⟨mode, index⟩, hmem, hc⟩
    have hat := List.mem_zipIdx_iff_getElem?.mp hmem
    rcases AdvertisedMode.candidate_isSome request mode hpreferred index with
      ⟨hsome, hserves⟩ | ⟨hnone, -⟩
    · rw [hsome] at hc
      cases hc
      exact ⟨mode, hat, hserves, rfl⟩
    · rw [hnone] at hc
      cases hc
  · rintro ⟨mode, hat, hserves, hc⟩
    refine ⟨(mode, c.index), List.mem_zipIdx_iff_getElem?.mpr hat, ?_⟩
    rcases AdvertisedMode.candidate_isSome request mode hpreferred c.index with
      ⟨hsome, -⟩ | ⟨-, hnot⟩
    · rw [hsome, ← hc]
    · exact absurd hserves hnot

/-- The candidates stand in the order of the advertisement. -/
theorem candidates_sorted : (candidates request preferred modes).Pairwise
    fun first second => first.index < second.index := by
  unfold candidates
  rw [List.pairwise_filterMap]
  have hindices : modes.zipIdx.Pairwise fun first second => first.2 < second.2 := by
    rw [← List.pairwise_map (f := Prod.snd) (R := (· < ·)), List.zipIdx_map_snd]
    exact List.pairwise_lt_range'
  refine hindices.imp ?_
  intro first second hlt c hc d hd
  have hindex : ∀ {item : AdvertisedMode × Nat} {c : Chosen},
      candidate request preferred item = some c → c.index = item.2 := by
    intro item c hc
    unfold candidate at hc
    split at hc
    · cases hc
    · cases hc
      rfl
  rw [hindex hc, hindex hd]
  exact hlt

theorem Chosen.worth_eq {c d : Chosen} : c.worth preferred = d.worth preferred ↔
    (c.profile = preferred ↔ d.profile = preferred) ∧ c.level = d.level := by
  rw [Chosen.worth, Chosen.worth, toLex_inj, Prod.mk.injEq, decide_eq_decide, UInt32.toNat_inj]

/-- A candidate of greater worth comes first, and of two equal ones the earlier. -/
theorem precedes_of_worth (hpreferred : preferred = 1 ∨ preferred = 2)
    {first second : AdvertisedMode × Nat}
    (h : (⟨second.2, second.1.profileFor preferred, second.1.level⟩ : Chosen).worth preferred <
        (⟨first.2, first.1.profileFor preferred, first.1.level⟩ : Chosen).worth preferred ∨
      (⟨second.2, second.1.profileFor preferred, second.1.level⟩ : Chosen).worth preferred =
          (⟨first.2, first.1.profileFor preferred, first.1.level⟩ : Chosen).worth preferred ∧
        first.2 < second.2) :
    AdvertisedMode.Precedes preferred first second := by
  have hfirst := (AdvertisedMode.profileFor_spec first.1 hpreferred).1
  have hsecond := (AdvertisedMode.profileFor_spec second.1 hpreferred).1
  rw [Chosen.worth_lt, Chosen.worth_eq] at h
  dsimp only at h
  rw [ne_eq, hfirst, hsecond] at h
  rcases h with (⟨hnot, hoffers⟩ | ⟨hsame, hlevel⟩) | ⟨⟨hsame, hlevel⟩, hbefore⟩
  · exact Or.inl ⟨hoffers, hnot⟩
  · exact Or.inr ⟨hsame.symm, Or.inl hlevel⟩
  · exact Or.inr ⟨hsame.symm, Or.inr ⟨hlevel, hbefore⟩⟩

/-- The chosen candidate is a mode that serves the request and comes before every
other one that does. -/
theorem firstBest_candidates (hpreferred : preferred = 1 ∨ preferred = 2) {c : Chosen}
    (h : firstBest (fun new old => Chosen.yieldsTo preferred old new)
      (candidates request preferred modes) = some c) :
    ∃ mode, modes[c.index]? = some mode ∧ mode.Serves request ∧
      c.profile = mode.profileFor preferred ∧
      ∀ index other, modes[index]? = some other → other.Serves request → index ≠ c.index →
        AdvertisedMode.Precedes preferred (mode, c.index) (other, index) := by
  have hprofile : ∀ d ∈ candidates request preferred modes, d.profile = 1 ∨ d.profile = 2 := by
    intro d hd
    obtain ⟨mode, -, hserves, hd⟩ := (mem_candidates hpreferred).mp hd
    obtain ⟨-, hzero, hspec⟩ := AdvertisedMode.profileFor_spec mode hpreferred
    rw [hd]
    exact (hspec fun hnone => hzero.mp hnone hserves.profile).2
  obtain ⟨before, after, hat, hbefore, hafter⟩ :=
    firstBest_first (Chosen.worth preferred)
      (fun new hnew old hold =>
        Chosen.yieldsTo_iff hpreferred (hprofile old hold) (hprofile new hnew)) h
  obtain ⟨mode, hmode, hserves, hc⟩ := (mem_candidates hpreferred).mp (firstBest_mem h)
  refine ⟨mode, hmode, hserves, by rw [hc], ?_⟩
  intro index other hother hotherServes hne
  have hmem : (⟨index, other.profileFor preferred, other.level⟩ : Chosen) ∈
      candidates request preferred modes :=
    (mem_candidates hpreferred).mpr ⟨other, hother, hotherServes, rfl⟩
  apply precedes_of_worth hpreferred
  dsimp only
  rw [← hc]
  have hsorted : (candidates request preferred modes).Pairwise
      fun first second => first.index < second.index := candidates_sorted
  rw [hat] at hmem hsorted
  rcases List.mem_append.mp hmem with hmem | hmem
  · exact Or.inl (hbefore _ hmem)
  rcases List.mem_cons.mp hmem with heq | hmem
  · exact absurd (congrArg Chosen.index heq) hne
  · rcases (hafter _ hmem).lt_or_eq with hlt | heq
    · exact Or.inl hlt
    · exact Or.inr ⟨heq, List.rel_of_pairwise_cons (List.pairwise_append.mp hsorted).2.1 hmem⟩

end Choice

/-! ## The selection -/

section Selection

variable {request : WfdRequest}

/-- What the selection is on a valid request, where there is room for its
results. -/
theorem selectAdvertisedMode_valid (modes : List AdvertisedMode) (preferredProfile : UInt32)
    (hvalid : validateRequest (some request) = .ok) :
    selectAdvertisedMode (some request) (some modes) preferredProfile true true =
      if request.wireFields = 0 then .error .unsupportedMode
      else
        match firstBest (fun new old => Chosen.yieldsTo (preference preferredProfile) old new)
            (candidates request (preference preferredProfile) modes) with
        | none => .error .notAdvertised
        | some chosen => .ok (chosen.index, chosen.profile) := by
  unfold selectAdvertisedMode
  rw [if_neg (not_not.mpr hvalid)]
  dsimp only
  rw [foldl_consider]
  by_cases hwire : request.wireFields = 0
  · rw [if_pos hwire, if_pos (Or.inl hwire)]
  · rw [if_neg hwire, if_neg (by simpa using hwire)]
    rfl

/-- The selection succeeds where a mode was requested and one that serves is
advertised; it returns the first of these, the preferred profile counting most,
then the level, with the profile that the mode is selected for. -/
theorem select_advertised_mode_optimal (modes : List AdvertisedMode) (preferredProfile : UInt32)
    (hvalid : validateRequest (some request) = .ok) :
    ((∃ chosen, selectAdvertisedMode (some request) (some modes) preferredProfile true true =
        .ok chosen) ↔
      request.wireFields ≠ 0 ∧ ∃ mode ∈ modes, mode.Serves request) ∧
    ∀ index profile,
      selectAdvertisedMode (some request) (some modes) preferredProfile true true =
        .ok (index, profile) →
      ∃ mode, modes[index]? = some mode ∧ mode.Serves request ∧
        (profile = 1 ∨ profile = 2) ∧ mode.Offers profile ∧
        (mode.Offers (preference preferredProfile) → profile = preference preferredProfile) ∧
        ∀ otherIndex other, modes[otherIndex]? = some other → other.Serves request →
          otherIndex ≠ index →
          AdvertisedMode.Precedes (preference preferredProfile) (mode, index)
            (other, otherIndex) := by
  have hpreferred := preference_cases preferredProfile
  rw [selectAdvertisedMode_valid modes preferredProfile hvalid]
  by_cases hwire : request.wireFields = 0
  · rw [if_pos hwire]
    constructor
    · constructor
      · rintro ⟨chosen, h⟩
        cases h
      · exact fun h => absurd hwire h.1
    · intro index profile h
      cases h
  rw [if_neg hwire]
  cases hbest : firstBest (fun new old => Chosen.yieldsTo (preference preferredProfile) old new)
      (candidates request (preference preferredProfile) modes) with
  | none =>
      constructor
      · constructor
        · rintro ⟨chosen, h⟩
          cases h
        · rintro ⟨-, mode, hmem, hserves⟩
          obtain ⟨index, hat⟩ := List.getElem?_of_mem hmem
          have hcandidate : (⟨index, mode.profileFor (preference preferredProfile), mode.level⟩ :
              Chosen) ∈ candidates request (preference preferredProfile) modes :=
            (mem_candidates hpreferred).mpr ⟨mode, hat, hserves, rfl⟩
          obtain ⟨c, hc⟩ := firstBest_isSome (List.ne_nil_of_mem hcandidate)
          rw [hbest] at hc
          cases hc
      · intro index profile h
        cases h
  | some c =>
      obtain ⟨mode, hat, hserves, hprofile, hfirst⟩ := firstBest_candidates hpreferred hbest
      constructor
      · constructor
        · exact fun _ => ⟨hwire, mode, List.mem_of_getElem? hat, hserves⟩
        · exact fun _ => ⟨_, rfl⟩
      · intro index profile h
        cases h
        obtain ⟨hsame, hzero, hspec⟩ := AdvertisedMode.profileFor_spec mode hpreferred
        obtain ⟨hoffers, hcases⟩ := hspec fun hnone => hzero.mp hnone hserves.profile
        rw [← hprofile] at hoffers hcases hsame
        exact ⟨mode, hat, hserves, hcases, hoffers, hsame.mpr, hfirst⟩

end Selection

/-- A request for 720p at 30 frames. -/
def sampleRequest (wireFields : UInt32) : WfdRequest :=
  { wireFields := wireFields, width := 1280, height := 720, fps := 30, bitrateSet := false
    bitrateKbps := 0 }

/-- High profile at level 8, then baseline at levels 1 and 2. -/
def sampleModes : List AdvertisedMode :=
  [⟨1280, 720, 30, false, 2, 8⟩, ⟨1280, 720, 30, false, 1, 1⟩, ⟨1280, 720, 30, false, 1, 2⟩]

theorem select_advertised_mode_optimal_sample :
    ∃ mode, sampleModes[2]? = some mode ∧ mode.Serves (sampleRequest 7) := by
  obtain ⟨mode, hat, hserves, -⟩ :=
    (@select_advertised_mode_optimal (sampleRequest 7) sampleModes 1 (by decide)).2 2 1
      (by decide)
  exact ⟨mode, hat, hserves⟩

/-- A valid request may name no mode, and no mode is selected for it. -/
theorem unnamed_mode_refused :
    ¬ ∀ (request : WfdRequest) (modes : List AdvertisedMode) (preferredProfile : UInt32),
      validateRequest (some request) = .ok →
      ((∃ chosen, selectAdvertisedMode (some request) (some modes) preferredProfile true true =
        .ok chosen) ↔ ∃ mode ∈ modes, mode.Serves request) := by
  intro h
  obtain ⟨chosen, hchosen⟩ :=
    (h (sampleRequest 0) sampleModes 1 (by decide)).mpr
      ⟨⟨1280, 720, 30, false, 2, 8⟩, List.mem_cons_self, rfl, rfl, rfl, rfl, by decide⟩
  have hrefused : selectAdvertisedMode (some (sampleRequest 0)) (some sampleModes) 1 true true =
      .error .unsupportedMode := by decide
  rw [hrefused] at hchosen
  cases hchosen

end HccastWired.Wfd
