import HccastWired.Calibration.PresetEvidence
import HccastWired.Calibration.RecordChecks
import HccastWired.Foundation.PyObject

/-!
# The record of a trial as an object

`record_trial` returns a copy of the object that it checks, with a version, an outcome, the
dictionary of the profile and the list of the negotiated mode. The metadata of a panel
latency that is not known are copied without a check.
-/

namespace HccastWired.Calibration

open Foundation Desktop

/-- An object of a caller; its instances of other classes are profiles. -/
abbrev TrialObject := PyObject Profile

/-- A key that is not a text is the name of no documented field. -/
def keyName : PyKey → String
  | .str s => s
  | _ => ""

mutual
/-- What the checks read of an object. None of them tells a tuple from a list, and an
instance of a class passes none. -/
def seen : TrialObject → PyValue
  | .none => .none
  | .bool b => .bool b
  | .number x => .number x
  | .str s => .str s
  | .list _ items | .tuple _ items => .list (seenItems items)
  | .dict _ fields => .dict (seenFields fields)
  | .other _ _ => .list []
def seenItems : List TrialObject → List PyValue
  | [] => []
  | x :: items => seen x :: seenItems items
def seenFields : PyObject.Fields Profile → List (String × PyValue)
  | [] => []
  | (k, x) :: fields => (keyName k, seen x) :: seenFields fields
end

/-- `profile if isinstance(profile, Profile) else Profile.from_dict(profile)`. -/
def withProfileRead (x : TrialObject) : TrialObject :=
  match x.get "profile" with
  | some (.other _ p) => x.set "profile" (.embed p.toDict)
  | _ => x

/-- `list(_mode(value))`. -/
def modeList (id : Nat) (mode : WireMode) : TrialObject :=
  .list id [.number (.int mode.1), .number (.int mode.2.1), .number (.int mode.2.2)]

/-- The measurements with the list of the negotiated mode. -/
def withModeList (listId : Nat) (record : TrialRecord) (metrics : TrialObject) : TrialObject :=
  match record.measurements.negotiatedWireMode with
  | some mode => metrics.set "negotiated_wire_mode" (modeList listId mode)
  | none => metrics

/-- What `record_trial` writes into its copy. -/
def rewritten (dictId listId : Nat) (record : TrialRecord) (x : TrialObject) : TrialObject :=
  let result := ((x.set "api_version" (.number (.int 1))).setDefault "outcome"
    (.str "completed")).set "profile" ((PyObject.embed record.profile.toDict).withId dictId)
  match result.get "measurements" with
  | some metrics => result.set "measurements" (withModeList listId record metrics)
  | none => result

/-- `record_trial` of an object whose containers have identities below `next`. -/
def recordObject (lib : Library) (floatText : Rat → String) (next : Nat) (value : TrialObject) :
    Except String TrialObject := do
  let record ← recordTrial lib (seen (withProfileRead value))
  let result := rewritten (2 * next) (2 * next + 1) record (value.deepcopy next)
  -- `json.dumps` refuses what is no JSON value, and numbers that are not finite
  if (result.content floatText).any PyValue.printable then return result
  else throw "Trial record must contain only finite JSON values"

section Seen

variable {key : String} {value x : TrialObject}

mutual
@[simp] theorem seen_strip : ∀ x : TrialObject, seen x.strip = seen x
  | .none | .bool _ | .number _ | .str _ | .other _ _ => by simp [PyObject.strip, seen]
  | .list _ items => by simp [PyObject.strip, seen, seen_stripItems items]
  | .tuple _ items => by simp [PyObject.strip, seen, seen_stripItems items]
  | .dict _ fields => by simp [PyObject.strip, seen, seen_stripFields fields]
theorem seen_stripItems : ∀ items : List TrialObject,
    seenItems (PyObject.stripItems items) = seenItems items
  | [] => rfl
  | x :: items => by simp [PyObject.stripItems, seenItems, seen_strip x, seen_stripItems items]
theorem seen_stripFields : ∀ fields : PyObject.Fields Profile,
    seenFields (PyObject.stripFields fields) = seenFields fields
  | [] => rfl
  | (k, x) :: fields => by
      simp [PyObject.stripFields, seenFields, seen_strip x, seen_stripFields fields]
end

mutual
@[simp] theorem seen_embed : ∀ v : PyValue, seen (.embed v) = v
  | .none | .bool _ | .number _ | .str _ => by simp [PyObject.embed, seen]
  | .list items => by simp [PyObject.embed, seen, seen_embedItems items]
  | .dict fields => by simp [PyObject.embed, seen, seen_embedFields fields]
theorem seen_embedItems : ∀ items : List PyValue, seenItems (PyObject.embedItems items) = items
  | [] => rfl
  | v :: items => by simp [PyObject.embedItems, seenItems, seen_embed v, seen_embedItems items]
theorem seen_embedFields : ∀ fields : List (String × PyValue),
    seenFields (PyObject.embedFields fields) = fields
  | [] => rfl
  | (k, v) :: fields => by
      simp [PyObject.embedFields, seenFields, keyName, seen_embed v, seen_embedFields fields]
end

theorem keyName_eq (h : key ≠ "") (k : PyKey) : keyName k = key ↔ k = .str key := by
  cases k with
  | str s => simp [keyName]
  | _ => simp [keyName, h.symm]

theorem lookup_seenFields (h : key ≠ "") : ∀ fields : PyObject.Fields Profile,
    (seenFields fields).lookup key = (PyObject.find (.str key) fields).map seen
  | [] => rfl
  | (k, x) :: fields => by
      have hrest := lookup_seenFields h fields
      simp only [PyObject.find, seenFields, List.lookup_cons, List.find?_cons] at hrest ⊢
      by_cases hkey : k = .str key
      · subst hkey
        simp [keyName, PyKey.eq]
      · have hname : (key == keyName k) = false := by
          rw [beq_eq_false_iff_ne]
          exact fun heq => hkey ((keyName_eq h k).mp heq.symm)
        have hfind : (PyKey.str key).eq k = false := by
          rw [Bool.eq_false_iff]
          exact fun heq => hkey (PyKey.str_eq.mp heq)
        rw [hname, hfind]
        exact hrest

/-- The checks read the fields of an object. -/
theorem seen_get (h : key ≠ "") (x : TrialObject) : (seen x).get key = (x.get key).map seen := by
  cases x with
  | dict id fields => simpa [seen, PyValue.get, PyObject.get] using lookup_seenFields h fields
  | _ => simp [seen, PyValue.get, PyObject.get]

mutual
/-- The numbers that the checks read are those that JSON holds. -/
theorem printable_seen (floatText : Rat → String) : ∀ (x : TrialObject) (v : PyValue),
    x.content floatText = some v → v.printable = true → (seen x).printable = true
  | .none, _, _, _ | .bool _, _, _, _ | .str _, _, _, _ => by simp [seen, PyValue.printable]
  | .number x, v, h, hv => by
      cases h
      simpa [seen] using hv
  | .list _ items, v, h, hv | .tuple _ items, v, h, hv => by
      simp only [PyObject.content, Option.map_eq_some_iff] at h
      obtain ⟨vs, hvs, rfl⟩ := h
      simpa [seen, PyValue.printable] using
        printable_seenItems floatText items vs hvs (by simpa [PyValue.printable] using hv)
  | .dict _ fields, v, h, hv => by
      simp only [PyObject.content, Option.map_eq_some_iff] at h
      obtain ⟨vs, hvs, rfl⟩ := h
      simpa [seen, PyValue.printable] using
        printable_seenFields floatText fields vs hvs (by simpa [PyValue.printable] using hv)
  | .other _ _, _, h, _ => by simp [PyObject.content] at h
theorem printable_seenItems (floatText : Rat → String) : ∀ (items : List TrialObject)
    (vs : List PyValue), PyObject.contentItems floatText items = some vs →
    PyValue.printableItems vs = true → PyValue.printableItems (seenItems items) = true
  | [], _, _, _ => by simp [seenItems, PyValue.printableItems]
  | x :: items, vs, h, hv => by
      simp only [PyObject.contentItems, Option.bind_eq_some_iff, Option.map_eq_some_iff] at h
      obtain ⟨v, hx, rest, hrest, rfl⟩ := h
      simp only [PyValue.printableItems, Bool.and_eq_true] at hv
      simp [seenItems, PyValue.printableItems, printable_seen floatText x v hx hv.1,
        printable_seenItems floatText items rest hrest hv.2]
theorem printable_seenFields (floatText : Rat → String) : ∀ (fields : PyObject.Fields Profile)
    (vs : List (String × PyValue)), PyObject.contentFields floatText fields = some vs →
    PyValue.printableFields vs = true → PyValue.printableFields (seenFields fields) = true
  | [], _, _, _ => by simp [seenFields, PyValue.printableFields]
  | (k, x) :: fields, vs, h, hv => by
      simp only [PyObject.contentFields, Option.bind_eq_some_iff, Option.map_eq_some_iff] at h
      obtain ⟨s, -, v, hx, rest, hrest, rfl⟩ := h
      simp only [PyValue.printableFields, Bool.and_eq_true] at hv
      simp [seenFields, PyValue.printableFields, printable_seen floatText x v hx hv.1,
        printable_seenFields floatText fields rest hrest hv.2]
end

/-- The documented keys, by the keys of the object. -/
theorem documented_seen {required allowed : List String} (h : "" ∉ required)
    (x : TrialObject) : documented (seen x) required allowed = true ↔ x.isDict = true ∧
      (∀ k ∈ required, PyKey.str k ∈ x.keys) ∧
      ∀ k ∈ x.keys, keyName k ∈ required ∨ keyName k ∈ allowed := by
  cases x with
  | dict id fields =>
      have hfields : ∀ p : String → Prop, (∀ f ∈ seenFields fields, p f.1) ↔
          ∀ k ∈ fields.map Prod.fst, p (keyName k) := by
        intro p
        induction fields with
        | nil => simp [seenFields]
        | cons f fields ih =>
            obtain ⟨k, y⟩ := f
            simp only [seenFields, List.map_cons, List.forall_mem_cons, ih]
      have hrequired : (∀ k ∈ required, hasField (seen (.dict id fields)) k = true) ↔
          ∀ k ∈ required, PyKey.str k ∈ (PyObject.dict id fields : TrialObject).keys := by
        apply forall₂_congr
        intro k hk
        have hne : k ≠ "" := fun heq => h (heq ▸ hk)
        rw [hasField, seen_get hne, Option.isSome_map, PyObject.get_isSome]
      have hshape : seen (.dict id fields) = .dict (seenFields fields) := by simp [seen]
      simp only [hshape] at hrequired ⊢
      simp only [documented, Bool.and_eq_true, List.all_eq_true, Bool.or_eq_true,
        decide_eq_true_eq, hrequired]
      rw [hfields fun name => name ∈ required ∨ name ∈ allowed]
      simp [PyObject.isDict, PyObject.keys]
  | _ => simp [seen, documented, PyObject.isDict]

theorem item_seen (h : key ≠ "") (x : TrialObject) :
    item (seen x) key = ((x.get key).map seen).getD .none := by
  rw [item, seen_get h]

/-- A value that is seen in the place of an equal one changes nothing. -/
theorem seen_set (hget : (x.get key).map seen = some (seen value)) :
    seen (x.set key value) = seen x := by
  cases x with
  | dict id fields =>
      have hfields : ∀ fields : PyObject.Fields Profile,
          (PyObject.find (.str key) fields).map seen = some (seen value) →
          seenFields (PyObject.insert key value fields) = seenFields fields := by
        intro fields
        induction fields with
        | nil =>
            intro hnone
            cases hnone
        | cons f fields ih =>
            obtain ⟨k, y⟩ := f
            intro hfind
            by_cases hkey : k = .str key
            · subst hkey
              have hy : seen y = seen value := by simpa [PyObject.find] using hfind
              simp [PyObject.insert, seenFields, hy]
            · have hne : (PyKey.str key).eq k = false := by
                rw [Bool.eq_false_iff]
                exact fun heq => hkey (PyKey.str_eq.mp heq)
              have hrest : (PyObject.find (.str key) fields).map seen = some (seen value) := by
                simpa [PyObject.find, hne] using hfind
              simp [PyObject.insert, hkey, seenFields, ih hrest]
      simp [PyObject.set, seen, hfields fields hget]
  | _ => rfl

theorem get_withProfileRead {key : String} (h : key ≠ "profile") (x : TrialObject) :
    (withProfileRead x).get key = x.get key := by
  unfold withProfileRead
  split
  · rw [PyObject.get_set_ne h]
  · rfl

theorem keys_withProfileRead (x : TrialObject) {k : PyKey} :
    k ∈ (withProfileRead x).keys ↔ k ∈ x.keys := by
  unfold withProfileRead
  split
  next p hprofile =>
    have hmem : PyKey.str "profile" ∈ x.keys := by
      rw [← PyObject.get_isSome, hprofile]
      rfl
    have hdict : x.isDict = true := by
      cases x with
      | dict id fields => rfl
      | _ => cases hprofile
    rw [PyObject.mem_keys_set hdict]
    constructor
    · rintro (h | rfl)
      · exact h
      · exact hmem
    · exact .inl
  next => rfl

theorem isDict_withProfileRead (x : TrialObject) : (withProfileRead x).isDict = x.isDict := by
  unfold withProfileRead
  split
  · rw [PyObject.isDict_set]
  · rfl

end Seen

/-! ## What is written -/

section Rewritten

variable {a b : Nat} {record : TrialRecord} {x : TrialObject} {key : String}

theorem isDict_setDefault (item : TrialObject) :
    (PyObject.setDefault x key item).isDict = x.isDict := by
  unfold PyObject.setDefault
  split
  · rfl
  · rw [PyObject.isDict_set]

theorem isDict_rewritten : (rewritten a b record x).isDict = x.isDict := by
  unfold rewritten
  dsimp only
  split <;> simp [isDict_setDefault]

theorem get_setDefault_ne {other : String} (h : other ≠ key) (item : TrialObject) :
    (PyObject.setDefault x key item).get other = x.get other := by
  unfold PyObject.setDefault
  split
  · rfl
  · rw [PyObject.get_set_ne h]

theorem get_setDefault_self (hx : x.isDict = true) (item : TrialObject) :
    (PyObject.setDefault x key item).get key = some ((x.get key).getD item) := by
  unfold PyObject.setDefault
  split
  next h =>
    obtain ⟨y, hy⟩ := Option.isSome_iff_exists.mp h
    rw [hy]
    rfl
  next h =>
    rw [Option.not_isSome_iff_eq_none.mp h, PyObject.get_set_self hx]
    rfl

/-- The fields that are not written. -/
theorem get_rewritten_other (h : key ∉ ["api_version", "outcome", "profile", "measurements"]) :
    (rewritten a b record x).get key = x.get key := by
  simp only [List.mem_cons, List.not_mem_nil, or_false, not_or] at h
  obtain ⟨hversion, houtcome, hprofile, hmeasurements⟩ := h
  unfold rewritten
  dsimp only
  split
  next => rw [PyObject.get_set_ne hmeasurements, PyObject.get_set_ne hprofile,
    get_setDefault_ne houtcome, PyObject.get_set_ne hversion]
  next => rw [PyObject.get_set_ne hprofile, get_setDefault_ne houtcome, PyObject.get_set_ne hversion]

theorem get_rewritten_version (hx : x.isDict = true) :
    (rewritten a b record x).get "api_version" = some (.number (.int 1)) := by
  unfold rewritten
  dsimp only
  split
  next => rw [PyObject.get_set_ne (by decide), PyObject.get_set_ne (by decide),
    get_setDefault_ne (by decide), PyObject.get_set_self hx]
  next => rw [PyObject.get_set_ne (by decide), get_setDefault_ne (by decide),
    PyObject.get_set_self hx]

theorem get_rewritten_outcome (hx : x.isDict = true) : (rewritten a b record x).get "outcome" =
    some ((x.get "outcome").getD (.str "completed")) := by
  have hself : ((x.set "api_version" (.number (.int 1))).setDefault "outcome"
      (.str "completed")).get "outcome" =
      some (((x.set "api_version" (.number (.int 1))).get "outcome").getD (.str "completed")) :=
    get_setDefault_self (by rw [PyObject.isDict_set, hx]) _
  rw [PyObject.get_set_ne (by decide)] at hself
  unfold rewritten
  dsimp only
  split
  next => rw [PyObject.get_set_ne (by decide), PyObject.get_set_ne (by decide), hself]
  next => rw [PyObject.get_set_ne (by decide), hself]

theorem get_rewritten_profile (hx : x.isDict = true) : (rewritten a b record x).get "profile" =
    some ((PyObject.embed record.profile.toDict).withId a) := by
  have hdict : ((x.set "api_version" (.number (.int 1))).setDefault "outcome"
      (.str "completed")).isDict = true := by
    rw [isDict_setDefault, PyObject.isDict_set, hx]
  unfold rewritten
  dsimp only
  split
  next => rw [PyObject.get_set_ne (by decide), PyObject.get_set_self hdict]
  next => rw [PyObject.get_set_self hdict]

theorem get_rewritten_measurements (hx : x.isDict = true) :
    (rewritten a b record x).get "measurements" =
      (x.get "measurements").map (withModeList b record) := by
  have hget : (((x.set "api_version" (.number (.int 1))).setDefault "outcome"
      (.str "completed")).set "profile"
        ((PyObject.embed record.profile.toDict).withId a)).get "measurements" =
      x.get "measurements" := by
    rw [PyObject.get_set_ne (by decide), get_setDefault_ne (by decide),
      PyObject.get_set_ne (by decide)]
  have hdict : (((x.set "api_version" (.number (.int 1))).setDefault "outcome"
      (.str "completed")).set "profile"
        ((PyObject.embed record.profile.toDict).withId a)).isDict = true := by
    rw [PyObject.isDict_set, isDict_setDefault, PyObject.isDict_set, hx]
  unfold rewritten
  dsimp only
  rw [hget]
  cases hmetrics : x.get "measurements" with
  | none => exact hget.trans hmetrics
  | some metrics => exact PyObject.get_set_self hdict

theorem strip_setDefault (item : TrialObject) :
    (PyObject.setDefault x key item).strip = PyObject.setDefault x.strip key item.strip := by
  unfold PyObject.setDefault
  rw [PyObject.get_strip, Option.isSome_map]
  split
  · rfl
  · rw [PyObject.set_strip]

theorem strip_withModeList : (withModeList b record x).strip = withModeList 0 record x.strip := by
  unfold withModeList
  split
  · rw [PyObject.set_strip]
    rfl
  · rfl

theorem strip_rewritten : (rewritten a b record x).strip = rewritten 0 0 record x.strip := by
  have hresult : (((x.set "api_version" (.number (.int 1))).setDefault "outcome"
      (.str "completed")).set "profile"
        ((PyObject.embed record.profile.toDict).withId a)).strip =
      ((x.strip.set "api_version" (.number (.int 1))).setDefault "outcome"
        (.str "completed")).set "profile" ((PyObject.embed record.profile.toDict).withId 0) := by
    rw [PyObject.set_strip, strip_setDefault, PyObject.set_strip, PyObject.strip_withId]
    rfl
  unfold rewritten
  dsimp only
  rw [← hresult, PyObject.get_strip]
  cases PyObject.get "measurements" _ with
  | none => rfl
  | some metrics =>
      dsimp only [Option.map_some]
      rw [PyObject.set_strip, strip_withModeList]

theorem withModeList_twice (metrics : TrialObject) :
    withModeList b record (withModeList b record metrics) = withModeList b record metrics := by
  unfold withModeList
  split
  · cases metrics with
    | dict id fields => exact PyObject.set_self (PyObject.get_set_self rfl)
    | _ => rfl
  · rfl

/-- Nothing is written into an object that has it all. -/
theorem rewritten_fix (hversion : x.get "api_version" = some (.number (.int 1)))
    (houtcome : (x.get "outcome").isSome = true)
    (hprofile : x.get "profile" = some ((PyObject.embed record.profile.toDict).withId a))
    (hmetrics : ∀ m, x.get "measurements" = some m → withModeList b record m = m) :
    rewritten a b record x = x := by
  unfold rewritten
  dsimp only
  rw [PyObject.set_self hversion, PyObject.setDefault, if_pos houtcome, PyObject.set_self hprofile]
  split
  next metrics hget => rw [hmetrics metrics hget, PyObject.set_self hget]
  next => rfl

/-- Writing into what was written changes nothing. -/
theorem rewritten_twice (hx : x.isDict = true) :
    rewritten a b record (rewritten a b record x) = rewritten a b record x := by
  apply rewritten_fix (get_rewritten_version hx) _ (get_rewritten_profile hx)
  · intro m hm
    rw [get_rewritten_measurements hx] at hm
    obtain ⟨metrics, -, rfl⟩ := Option.map_eq_some_iff.mp hm
    exact withModeList_twice metrics
  · rw [get_rewritten_outcome hx]
    rfl

theorem keys_setDefault {k : PyKey} (hx : x.isDict = true) (item : TrialObject) :
    k ∈ (PyObject.setDefault x key item).keys ↔ k ∈ x.keys ∨ k = .str key := by
  unfold PyObject.setDefault
  split
  next h =>
    constructor
    · exact .inl
    · rintro (hk | rfl)
      · exact hk
      · exact PyObject.get_isSome.mp h
  next => rw [PyObject.mem_keys_set hx]

theorem keys_rewritten {k : PyKey} (hx : x.isDict = true) :
    k ∈ (rewritten a b record x).keys ↔
      k ∈ x.keys ∨ k = .str "api_version" ∨ k = .str "outcome" ∨ k = .str "profile" := by
  have hversion : (x.set "api_version" (.number (.int 1))).isDict = true := by
    rw [PyObject.isDict_set, hx]
  have houtcome : ((x.set "api_version" (.number (.int 1))).setDefault "outcome"
      (.str "completed")).isDict = true := by
    rw [isDict_setDefault, hversion]
  have hresult : ∀ k, k ∈ (((x.set "api_version" (.number (.int 1))).setDefault "outcome"
      (.str "completed")).set "profile"
        ((PyObject.embed record.profile.toDict).withId a)).keys ↔
      k ∈ x.keys ∨ k = .str "api_version" ∨ k = .str "outcome" ∨ k = .str "profile" := by
    intro k
    rw [PyObject.mem_keys_set houtcome, keys_setDefault hversion, PyObject.mem_keys_set hx,
      or_assoc, or_assoc]
  unfold rewritten
  dsimp only
  split
  next metrics hmetrics =>
    have hmem := PyObject.get_isSome.mp (Option.isSome_of_eq_some hmetrics)
    rw [PyObject.mem_keys_set (by rw [PyObject.isDict_set, houtcome]), hresult]
    constructor
    · rintro (h | rfl)
      · exact h
      · exact (hresult _).mp hmem
    · exact .inl
  next => exact hresult k

end Rewritten

/-! ## What was written is accepted -/

section Accept

variable {lib : Library} {a b : Nat} {record : TrialRecord} {x : TrialObject}

theorem isDict_of_checks (h : PassesChecks lib (seen (withProfileRead x)) record) :
    x.isDict = true := by
  rw [← isDict_withProfileRead]
  exact ((documented_seen (by decide) _).mp h.documented).1

theorem withProfileRead_rewritten (hx : x.isDict = true) :
    withProfileRead (rewritten a b record x) = rewritten a b record x := by
  unfold withProfileRead
  rw [get_rewritten_profile hx]
  rfl

/-- The list of the mode is seen where the mode was. -/
theorem seen_withModeList {metrics : TrialObject}
    (h : MetricsRead lib (seen metrics) record.measurements) :
    seen (withModeList b record metrics) = seen metrics := by
  unfold withModeList
  split
  next m hmode =>
    have hread := h.negotiated
    rw [hmode] at hread
    have hitem := mode_ok (orNone_ok hread)
    rw [item_seen (by decide)] at hitem
    apply seen_set
    cases hget : metrics.get "negotiated_wire_mode" with
    | none =>
        rw [hget] at hitem
        cases hitem
    | some y =>
        rw [hget, Option.map_some, Option.getD_some] at hitem
        rw [Option.map_some, hitem]
        simp [modeList, seen, seenItems]
  next => rfl

/-- A record keeps what it was accepted for. -/
theorem accepted_rewritten (h : PassesChecks lib (seen (withProfileRead x)) record)
    (hprintable : (seen (rewritten a b record x)).printable = true) :
    PassesChecks lib (seen (withProfileRead (rewritten a b record x))) record := by
  have hx := isDict_of_checks h
  have hother : ∀ k, k ≠ "" → k ∉ ["api_version", "outcome", "profile", "measurements"] →
      (seen (rewritten a b record x)).get k = (seen (withProfileRead x)).get k := by
    intro k hne hk
    have hprofile : k ≠ "profile" := fun heq => hk (by simp [heq])
    rw [seen_get hne, seen_get hne, get_rewritten_other hk, get_withProfileRead hprofile]
  have hitem : ∀ k, k ≠ "" → k ∉ ["api_version", "outcome", "profile", "measurements"] →
      item (seen (rewritten a b record x)) k = item (seen (withProfileRead x)) k := by
    intro k hne hk
    rw [item, item, hother k hne hk]
  obtain ⟨-, hrequired, hallowed⟩ := (documented_seen (by decide) _).mp h.documented
  rw [withProfileRead_rewritten hx]
  constructor
  case documented =>
    rw [documented_seen (by decide)]
    refine ⟨by rw [isDict_rewritten, hx], ?_, ?_⟩
    · intro k hk
      exact (keys_rewritten hx).mpr (.inl ((keys_withProfileRead x).mp (hrequired k hk)))
    · intro k hk
      rcases (keys_rewritten hx).mp hk with hold | rfl | rfl | rfl
      · exact hallowed k ((keys_withProfileRead x).mpr hold)
      · exact .inr (by decide)
      · exact .inr (by decide)
      · exact .inl (by decide)
  case version =>
    intro v hv
    rw [seen_get (by decide), get_rewritten_version hx] at hv
    cases hv
    simp [seen]
  case outcome =>
    have houtcome : ((seen (rewritten a b record x)).get "outcome").getD (.str "completed") =
        ((seen (withProfileRead x)).get "outcome").getD (.str "completed") := by
      rw [seen_get (by decide), seen_get (by decide), get_rewritten_outcome hx,
        get_withProfileRead (by decide)]
      cases x.get "outcome" with
      | none => simp [seen]
      | some y => rfl
    rw [← h.outcome]
    unfold readOutcome
    rw [houtcome, hother "failure_stage" (by decide) (by decide),
      hitem "failure_reason" (by decide) (by decide)]
    simp only [hasField, hother "failure_stage" (by decide) (by decide),
      hother "failure_reason" (by decide) (by decide)]
    rfl
  case trialId =>
    rw [hitem "trial_id" (by decide) (by decide)]
    exact h.trialId
  case contextId =>
    rw [hitem "context_id" (by decide) (by decide)]
    exact h.contextId
  case workloadId =>
    rw [hitem "workload_id" (by decide) (by decide)]
    exact h.workloadId
  case evidenceRef =>
    rw [hitem "evidence_ref" (by decide) (by decide)]
    exact h.evidenceRef
  case observedAt =>
    rw [hitem "observed_at" (by decide) (by decide)]
    exact h.observedAt
  case profile =>
    have hseen : item (seen (rewritten a b record x)) "profile" = record.profile.toDict := by
      rw [item_seen (by decide), get_rewritten_profile hx, Option.map_some, Option.getD_some,
        ← seen_strip, PyObject.strip_withId, seen_strip, seen_embed]
    rw [hseen]
    exact Profile.fromDict_toDict record.profile
  case runtime =>
    rw [hitem "runtime_settings" (by decide) (by decide)]
    exact h.runtime
  case observations =>
    rw [hitem "observations" (by decide) (by decide)]
    exact h.observations
  case measurements =>
    have hread := h.measurements
    rw [item_seen (by decide), get_withProfileRead (by decide)] at hread
    rw [item_seen (by decide), get_rewritten_measurements hx]
    cases hmetrics : x.get "measurements" with
    | none =>
        rw [hmetrics] at hread
        exact hread
    | some metrics =>
        rw [hmetrics] at hread
        rw [Option.map_some, Option.map_some, Option.getD_some, seen_withModeList (metricsRead hread)]
        exact hread
  case printable => exact hprintable

end Accept

/-! ## Recording again -/

section Again

variable {lib : Library} {floatText : Rat → String} {next : Nat} {value result y : TrialObject}

theorem recordObject_iff : recordObject lib floatText next value = .ok result ↔
    ∃ record content, PassesChecks lib (seen (withProfileRead value)) record ∧
      result = rewritten (2 * next) (2 * next + 1) record (value.deepcopy next) ∧
      result.content floatText = some content ∧ content.printable = true := by
  unfold recordObject
  rw [bind_ok_iff]
  simp only [recordTrial_iff]
  apply exists_congr
  intro record
  constructor
  · rintro ⟨haccepted, h⟩
    split at h
    next hwritable =>
      cases hcontent : (rewritten (2 * next) (2 * next + 1) record
          (value.deepcopy next)).content floatText with
      | none =>
          rw [hcontent] at hwritable
          cases hwritable
      | some content =>
          rw [hcontent] at hwritable
          cases h
          exact ⟨content, haccepted, rfl, hcontent, hwritable⟩
    next => cases h
  · rintro ⟨content, haccepted, rfl, hcontent, hprintable⟩
    refine ⟨haccepted, ?_⟩
    rw [hcontent, if_pos (by exact hprintable)]
    rfl

theorem isDict_strip (x : TrialObject) : x.strip.isDict = x.isDict := by
  cases x <;> simp [PyObject.strip, PyObject.isDict]

theorem isDict_deepcopy (x : TrialObject) : (x.deepcopy next).isDict = x.isDict := by
  cases x <;> simp [PyObject.deepcopy, PyObject.isDict]

theorem seen_withProfileRead_strip (x : TrialObject) :
    seen (withProfileRead x.strip) = seen (withProfileRead x) := by
  rw [← seen_strip (withProfileRead x)]
  unfold withProfileRead
  rw [PyObject.get_strip]
  cases x.get "profile" with
  | none => simp
  | some p =>
      cases p with
      | other id p =>
          simp only [Option.map_some, PyObject.strip]
          rw [PyObject.set_strip, PyObject.strip_embed]
      | _ => simp [PyObject.strip]

/-- The checks do not tell a copy from its original. -/
theorem accepted_deepcopy {record : TrialRecord} (next : Nat)
    (h : PassesChecks lib (seen (withProfileRead value)) record) :
    PassesChecks lib (seen (withProfileRead (value.deepcopy next))) record := by
  rw [← seen_withProfileRead_strip, PyObject.strip_deepcopy, seen_withProfileRead_strip]
  exact h

/-- What differs from a record only by its identities is recorded as it is. -/
theorem recordObject_again (h : recordObject lib floatText next value = .ok result)
    (hy : y.strip = result.strip) (m : Nat) :
    ∃ again, recordObject lib floatText m y = .ok again ∧ again.strip = result.strip := by
  obtain ⟨record, content, haccepted, hresult, hcontent, hprintable⟩ := recordObject_iff.mp h
  have hdict : (value.deepcopy next).isDict = true := by
    rw [isDict_deepcopy]
    exact isDict_of_checks haccepted
  have hcopy := accepted_deepcopy next haccepted
  have hseen := printable_seen floatText result content hcontent hprintable
  rw [hresult] at hseen
  have hstrip : (rewritten (2 * m) (2 * m + 1) record (y.deepcopy m)).strip = result.strip := by
    have hstripped : (value.deepcopy next).strip.isDict = true := by
      rw [isDict_strip, hdict]
    rw [strip_rewritten, PyObject.strip_deepcopy, hy, hresult, strip_rewritten,
      rewritten_twice hstripped]
  refine ⟨_, recordObject_iff.mpr ⟨record, content, ?_, rfl, ?_, hprintable⟩, hstrip⟩
  · rw [← seen_withProfileRead_strip, hy, seen_withProfileRead_strip, hresult]
    exact accepted_rewritten hcopy hseen
  · rw [← PyObject.content_strip, hstrip, PyObject.content_strip, hcontent]

end Again

/-! ## What JSON holds of a record -/

section Plain

variable {x y : TrialObject} {names : List String}

theorem plain_of_atom (h : isAtom (seen x) = true) : x.plain = true := by
  cases x <;> simp [seen, isAtom, PyObject.plain] at h ⊢

theorem atom_of_item {key : String} (hne : key ≠ "") (h : isAtom (item (seen x) key) = true)
    (hget : x.get key = some y) : y.plain = true := by
  rw [item_seen hne, hget] at h
  exact plain_of_atom h

/-- A dictionary of named fields is plain when its fields are. -/
theorem plain_of_fields (hx : x.wellFormed = true) (hdict : x.isDict = true) (hne : "" ∉ names)
    (hkeys : ∀ k ∈ x.keys, keyName k ∈ names)
    (h : ∀ k ∈ names, ∀ y, x.get k = some y → y.plain = true) : x.plain = true := by
  cases x with
  | dict id fields =>
      simp only [PyObject.wellFormed, Bool.and_eq_true, decide_eq_true_eq] at hx
      simp only [PyObject.plain, PyObject.plainFields_iff]
      rintro ⟨k, y⟩ hf
      have hname : keyName k ∈ names := hkeys k (List.mem_map.mpr ⟨_, hf, rfl⟩)
      have hstr : k = .str (keyName k) :=
        (keyName_eq (fun heq => hne (heq ▸ hname)) k).mp rfl
      refine ⟨⟨keyName k, hstr⟩, ?_⟩
      rw [hstr] at hf
      exact h _ hname y (PyObject.find_of_mem hx.1 hf)
  | _ => cases hdict

theorem plain_of_hasKeys (hx : x.wellFormed = true) (hne : "" ∉ names)
    (hkeys : (seen x).hasKeys names = true)
    (h : ∀ k ∈ names, isAtom (item (seen x) k) = true) : x.plain = true := by
  cases x with
  | dict id fields =>
      apply plain_of_fields hx rfl hne
      · intro k hk
        simp only [seen, PyValue.hasKeys, Bool.and_eq_true, List.all_eq_true,
          List.contains_iff_mem] at hkeys
        obtain ⟨f, hf, rfl⟩ := List.mem_map.mp hk
        have hmem : ∀ fields : PyObject.Fields Profile, f ∈ fields →
            (keyName f.1, seen f.2) ∈ seenFields fields := by
          intro fields
          induction fields with
          | nil => exact fun hnil => absurd hnil List.not_mem_nil
          | cons g fields ih =>
              obtain ⟨k, y⟩ := g
              intro hf
              rcases List.mem_cons.mp hf with rfl | hrest
              · exact List.mem_cons_self
              · exact List.mem_cons_of_mem _ (ih hrest)
        exact hkeys.1 _ (hmem fields hf)
      · exact fun k hk y hy => atom_of_item (fun heq => hne (heq ▸ hk)) (h k hk) hy
  | _ => simp [seen, PyValue.hasKeys] at hkeys

/-- The metadata of the panel latency. -/
def metadata (key : String) (value : TrialObject) : Option TrialObject :=
  (value.get "measurements").bind fun metrics => metrics.get key

/-- The metadata are of the kinds that JSON has. -/
def PlainMetadata (value : TrialObject) : Prop :=
  ∀ key ∈ ["panel_latency_method", "panel_latency_evidence_ref"], ∀ x, metadata key value = some x →
    x.plain = true

variable {lib : Library} {a b : Nat} {record : TrialRecord} {metrics : TrialObject}

theorem wellFormed_withModeList (h : metrics.wellFormed = true) :
    (withModeList b record metrics).wellFormed = true := by
  unfold withModeList
  split
  · exact PyObject.wellFormed_set (by simp [modeList, PyObject.wellFormed, PyObject.formedItems]) h
  · exact h

theorem wellFormed_profile (p : Profile) (id : Nat) :
    ((PyObject.embed p.toDict : TrialObject).withId id).wellFormed = true := by
  rw [← PyObject.wellFormed_strip, PyObject.strip_withId, PyObject.wellFormed_strip,
    PyObject.wellFormed_embed, Profile.toDict_unique]

theorem wellFormed_setDefault {key : String} {value : TrialObject}
    (hvalue : value.wellFormed = true) (h : x.wellFormed = true) :
    (PyObject.setDefault x key value).wellFormed = true := by
  unfold PyObject.setDefault
  split
  · exact h
  · exact PyObject.wellFormed_set hvalue h

theorem wellFormed_rewritten (h : x.wellFormed = true) :
    (rewritten a b record x).wellFormed = true := by
  have hversion : (x.set "api_version" (.number (.int 1))).wellFormed = true :=
    PyObject.wellFormed_set rfl h
  have houtcome : ((x.set "api_version" (.number (.int 1))).setDefault "outcome"
      (.str "completed")).wellFormed = true := wellFormed_setDefault rfl hversion
  have hresult : (((x.set "api_version" (.number (.int 1))).setDefault "outcome"
      (.str "completed")).set "profile"
      ((PyObject.embed record.profile.toDict).withId a)).wellFormed = true :=
    PyObject.wellFormed_set (wellFormed_profile record.profile a) houtcome
  unfold rewritten
  dsimp only
  split
  next metrics hmetrics =>
    apply PyObject.wellFormed_set _ hresult
    exact wellFormed_withModeList (PyObject.wellFormed_get hresult hmetrics)
  next => exact hresult

theorem plain_of_orNone {α : Type} {key : String} {check : PyValue → Except String α}
    {r : Option α} (hne : key ≠ "") (h : orNone (item (seen metrics) key) check = .ok r)
    (hget : metrics.get key = some y)
    (hcheck : ∀ z, check (seen y) = .ok z → y.plain = true) : y.plain = true := by
  rw [item_seen hne, hget, Option.map_some, Option.getD_some] at h
  cases r with
  | some z => exact hcheck z (orNone_ok h)
  | none =>
      apply plain_of_atom
      unfold orNone at h
      split at h
      next hnone =>
        rw [hnone]
        rfl
      next =>
        cases hz : check (seen y) with
        | error e =>
            rw [hz] at h
            cases h
        | ok z =>
            rw [hz] at h
            cases h

theorem get_withModeList {key : String} (h : key ≠ "negotiated_wire_mode") :
    (withModeList b record metrics).get key = metrics.get key := by
  unfold withModeList
  split
  · rw [PyObject.get_set_ne h]
  · rfl

/-- The negotiated mode of a record is a new list, or `None`. -/
theorem plain_negotiated (hdict : metrics.isDict = true)
    (hread : MetricsRead lib (seen metrics) record.measurements)
    (hget : (withModeList b record metrics).get "negotiated_wire_mode" = some y) :
    y.plain = true := by
  have hmode := hread.negotiated
  unfold withModeList at hget
  split at hget
  next m hm =>
    rw [PyObject.get_set_self hdict] at hget
    cases hget
    simp [modeList, PyObject.plain, PyObject.plainItems]
  next hm =>
    rw [hm] at hmode
    apply plain_of_orNone (by decide) hmode hget
    intro z hz
    rw [item_seen (by decide), hget, Option.map_some, Option.getD_some, mode_ok hz] at hmode
    simp only [orNone] at hmode
    rw [← mode_ok hz, hz] at hmode
    cases hmode

/-- The measurements of a record are plain when the metadata are. -/
theorem plain_metrics (hformed : metrics.wellFormed = true)
    (hread : MetricsRead lib (seen metrics) record.measurements)
    (hmetadata : ∀ key ∈ ["panel_latency_method", "panel_latency_evidence_ref"], ∀ x,
      metrics.get key = some x → x.plain = true) :
    (withModeList b record metrics).plain = true := by
  obtain ⟨hdict, -, hallowed⟩ := (documented_seen (by decide) _).mp hread.documented
  have hkeys : ∀ k ∈ (withModeList b record metrics).keys, keyName k ∈ requiredMetrics ++
      ["cpu_window", "panel_latency_method", "panel_latency_evidence_ref"] := by
    intro k hk
    rw [List.mem_append]
    unfold withModeList at hk
    split at hk
    · rcases (PyObject.mem_keys_set hdict).mp hk with hold | rfl
      · exact hallowed k hold
      · exact .inl (by decide)
    · exact hallowed k hk
  have hisDict : (withModeList b record metrics).isDict = true := by
    unfold withModeList
    split
    · rw [PyObject.isDict_set, hdict]
    · exact hdict
  apply plain_of_fields (wellFormed_withModeList hformed) hisDict (by decide) hkeys
  intro k hk y hget
  by_cases hmode : k = "negotiated_wire_mode"
  · subst hmode
    exact plain_negotiated hdict hread hget
  rw [get_withModeList hmode] at hget
  rw [requiredMetrics, List.mem_append, List.mem_append] at hk
  rcases hk with (hnumber | hnamed) | hoptional
  · obtain ⟨f, hf, rfl⟩ := List.mem_map.mp hnumber
    exact atom_of_item (by cases f <;> decide) (readNumbers_atom hread.numbers f hf) hget
  · simp only [List.mem_cons, List.not_mem_nil, or_false] at hnamed
    rcases hnamed with rfl | rfl | rfl | rfl | rfl | rfl
    · obtain ⟨choices, error, chosen, hchosen⟩ := hread.choices "window" (by decide)
      exact atom_of_item (by decide) (choiceOrNone_atom hchosen) hget
    · obtain ⟨error, observed, hobserved⟩ := hread.flags "pipeline_drop_counts_complete" (by decide)
      exact atom_of_item (by decide) (boolOrNone_atom hobserved) hget
    · obtain ⟨choices, error, chosen, hchosen⟩ := hread.choices "encoder_latency_statistic" (by decide)
      exact atom_of_item (by decide) (choiceOrNone_atom hchosen) hget
    · obtain ⟨error, observed, hobserved⟩ := hread.flags "queue_growing" (by decide)
      exact atom_of_item (by decide) (boolOrNone_atom hobserved) hget
    · exact absurd rfl hmode
    · apply plain_of_orNone (by decide) hread.power hget
      intro p hp
      obtain ⟨hnames, hatoms⟩ := readPower_atoms hp
      exact plain_of_hasKeys (PyObject.wellFormed_get hformed hget) (by decide) hnames hatoms
  · simp only [List.mem_cons, List.not_mem_nil, or_false] at hoptional
    rcases hoptional with rfl | rfl | rfl
    · apply plain_of_orNone (by decide) hread.cpuWindow hget
      intro w hw
      obtain ⟨hnames, hatoms⟩ := readCpuWindow_atoms hw
      exact plain_of_hasKeys (PyObject.wellFormed_get hformed hget) (by decide) hnames hatoms
    · exact hmetadata _ (by decide) y hget
    · exact hmetadata _ (by decide) y hget

end Plain

end HccastWired.Calibration
