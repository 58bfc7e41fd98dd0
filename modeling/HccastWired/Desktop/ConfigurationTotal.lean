import HccastWired.Desktop.StoreDurability

/-!
# What a configuration file can make the store raise

The constructor catches three classes of exceptions. Two others reach its caller:
the one of a text that is nested too deeply, and the one of a scale that has no
nearest `float`.
-/

namespace HccastWired.Desktop

open Foundation

namespace ProfileFields

/-- The settings whose checks come before that of the scale pass them. -/
structure ScaleReached (p : ProfileFields) : Prop where
  resolution : (p.sourceWidth, p.sourceHeight) ∈ resolutions
  contentFps : p.contentFps ∈ [5, 10, 15, 24, 30]
  wireMode : (p.wireWidth, p.wireHeight, p.wireFps) ∈ wireModes
  bitrate : 512 ≤ p.bitrateKbps ∧ p.bitrateKbps ≤ 8000

/-- The scale is an integer that has no nearest `float`, and is looked at. -/
def ScaleTooLarge (p : ProfileFields) : Prop :=
  p.ScaleReached ∧ p.scale.overflows = true

theorem check_overflow_iff {p : ProfileFields} :
    p.check = .error .overflow ↔ p.ScaleTooLarge := by
  constructor
  · intro h
    simp only [check, bind, Except.bind, pure, Except.pure, throw, throwThe,
      MonadExceptOf.throw] at h
    repeat' split at h
    all_goals cases h
    rename_i hresolution hfps hwire hbitrate hscale
    exact ⟨⟨not_not.mp hresolution, not_not.mp hfps, not_not.mp hwire, not_not.mp hbitrate⟩, hscale⟩
  · rintro ⟨⟨hresolution, hfps, hwire, hbitrate⟩, hscale⟩
    simp only [check, not_not.mpr hresolution, not_not.mpr hfps, not_not.mpr hwire,
      not_not.mpr hbitrate, if_false, if_pos hscale]
    rfl

end ProfileFields

namespace Profile

/-- The fields of a complete object whose settings other than the scale are integers. -/
def fieldsOf (value : PyValue) : Option ProfileFields := do
  guard (value.hasKeys names)
  let sourceWidth ← value.integer "source_width"
  let sourceHeight ← value.integer "source_height"
  let contentFps ← value.integer "content_fps"
  let wireWidth ← value.integer "wire_width"
  let wireHeight ← value.integer "wire_height"
  let wireFps ← value.integer "wire_fps"
  let bitrateKbps ← value.integer "bitrate_kbps"
  let rotation ← value.integer "rotation"
  return ⟨sourceWidth, sourceHeight, contentFps, wireWidth, wireHeight, wireFps, bitrateKbps,
    scaleOf value, rotation⟩

/-- The object is a profile but for a scale that has no nearest `float`. -/
def ScaleTooLarge (value : PyValue) : Prop :=
  ∃ p, fieldsOf value = some p ∧ p.ScaleTooLarge

/-- The fields are all there and are checked, or a `ValueError` is raised. -/
def Agree (fields : Option ProfileFields) (result : Except CheckError Profile) : Prop :=
  (∃ p, fields = some p ∧ result = ofFields p) ∨
    fields = none ∧ ∃ message, result = .error (.value message)

theorem agree_integer {value : PyValue} {name : String} {g : Int → Option ProfileFields}
    {f : Int → Except CheckError Profile} (h : ∀ n, Agree (g n) (f n)) :
    Agree (value.integer name >>= g) (integer value name >>= f) := by
  unfold PyValue.integer integer
  cases value.get name with
  | none => exact .inr ⟨rfl, _, rfl⟩
  | some v =>
      cases v with
      | number x =>
          cases x with
          | int n => exact h n
          | _ => exact .inr ⟨rfl, _, rfl⟩
      | _ => exact .inr ⟨rfl, _, rfl⟩

/-- `from_dict` checks the fields of a complete object and refuses everything else. -/
theorem fromDict_agrees (value : PyValue) : Agree (fieldsOf value) (fromDict value) := by
  unfold fieldsOf fromDict
  cases value.hasKeys names with
  | false => exact .inr ⟨rfl, _, rfl⟩
  | true =>
      apply agree_integer; intro sourceWidth
      apply agree_integer; intro sourceHeight
      apply agree_integer; intro contentFps
      apply agree_integer; intro wireWidth
      apply agree_integer; intro wireHeight
      apply agree_integer; intro wireFps
      apply agree_integer; intro bitrateKbps
      apply agree_integer; intro rotation
      exact .inl ⟨_, rfl, rfl⟩

theorem ofFields_error_iff {p : ProfileFields} {e : CheckError} :
    ofFields p = .error e ↔ p.check = .error e := by
  unfold ofFields
  split
  · next h => simp [h]
  · next e' h => simp [h]

theorem fromDict_overflow_iff {value : PyValue} :
    fromDict value = .error .overflow ↔ ScaleTooLarge value := by
  constructor
  · intro h
    obtain ⟨p, hp, hofFields⟩ | ⟨-, message, herror⟩ := fromDict_agrees value
    · rw [hofFields, ofFields_error_iff] at h
      exact ⟨p, hp, ProfileFields.check_overflow_iff.mp h⟩
    · rw [herror] at h
      cases h
  · rintro ⟨p, hp, hlarge⟩
    obtain ⟨q, hq, hofFields⟩ | ⟨hnone, -⟩ := fromDict_agrees value
    · obtain rfl := Option.some.inj (hp.symm.trans hq)
      rw [hofFields, ofFields_error_iff]
      exact ProfileFields.check_overflow_iff.mpr hlarge
    · rw [hp] at hnone
      cases hnone

/-- The object passes all checks of a profile. -/
def Passes (value : PyValue) : Prop :=
  ∃ p, fieldsOf value = some p ∧ p.valid = true

theorem fromDict_ok_iff {value : PyValue} : (∃ p, fromDict value = .ok p) ↔ Passes value := by
  constructor
  · rintro ⟨p, h⟩
    obtain ⟨q, hq, hofFields⟩ | ⟨-, message, herror⟩ := fromDict_agrees value
    · rw [hofFields, ofFields] at h
      split at h
      · next hcheck =>
        refine ⟨q, hq, ?_⟩
        rw [ProfileFields.valid, hcheck]
        rfl
      · cases h
    · rw [herror] at h
      cases h
  · rintro ⟨p, hp, hvalid⟩
    obtain ⟨q, hq, hofFields⟩ | ⟨hnone, -⟩ := fromDict_agrees value
    · obtain rfl := Option.some.inj (hp.symm.trans hq)
      exact ⟨⟨p, hvalid⟩, hofFields.trans (ofFields_val ⟨p, hvalid⟩)⟩
    · rw [hp] at hnone
      cases hnone

/-- `from_dict` returns a profile, which is valid by its type, or raises `ValueError`. -/
def Total (value : PyValue) : Prop :=
  (∃ p, fromDict value = .ok p) ∨ ∃ message, fromDict value = .error (.value message)

theorem total_iff {value : PyValue} : Total value ↔ ¬ ScaleTooLarge value := by
  rw [← fromDict_overflow_iff]
  unfold Total
  cases fromDict value with
  | ok p => simp
  | error e => cases e <;> simp

end Profile

namespace StateStore

theorem item_error {data : PyValue} {key : String} {e : LoadError} (h : item data key = .error e) :
    ∃ message, e = .caught message := by
  unfold item at h
  split at h
  · cases h
  · exact ⟨_, (Except.error.inj h).symm⟩

theorem item_ok_iff {data value : PyValue} {key : String} :
    item data key = .ok value ↔ data.get key = some value := by
  unfold item
  cases data.get key with
  | none => simp
  | some v => simp

theorem load_ne_recursion (e : CheckError) : e.load ≠ .recursion := by
  cases e <;> simp [CheckError.load]

/-- Reading the document comes to a scale that has no nearest `float`. -/
structure ReachesScale (data profile : PyValue) : Prop where
  version : (data.get "api_version").any PyValue.isOne = true
  found : data.get "profile" = some profile
  large : Profile.ScaleTooLarge profile ∨ Profile.Passes profile ∧
    ∃ good, data.get "known_good" = some good ∧ Profile.ScaleTooLarge good

theorem parse_error {data : PyValue} {e : LoadError} (h : parse data = .error e) :
    (∃ message, e = .caught message) ∨ e = .overflow ∧ ∃ profile, ReachesScale data profile := by
  unfold parse at h
  cases hversion : (data.get "api_version").any PyValue.isOne with
  | false =>
      left
      cases data <;>
        simp only [hversion, Bool.false_eq_true, not_false_eq_true, if_true] at h <;>
        exact ⟨_, (Except.error.inj h).symm⟩
  | true =>
      cases data with
      | dict fields =>
          simp only [hversion, not_true_eq_false, if_false] at h
          obtain h | ⟨profile, hprofile, h⟩ := bind_error_iff.mp h
          · exact .inl (item_error h)
          have hfound := item_ok_iff.mp hprofile
          obtain h | ⟨p, hp, h⟩ := bind_error_iff.mp h
          · obtain ⟨e, he, rfl⟩ := mapError_error_iff.mp h
            cases e with
            | value message => exact .inl ⟨message, rfl⟩
            | overflow =>
                have hlarge := Profile.fromDict_overflow_iff.mp he
                exact .inr ⟨rfl, profile, hversion, hfound, .inl hlarge⟩
          have hpasses := Profile.fromDict_ok_iff.mp ⟨p, mapError_ok_iff.mp hp⟩
          obtain h | ⟨good, hgood, h⟩ := bind_error_iff.mp h
          · exact .inl (item_error h)
          obtain h | ⟨q, hq, h⟩ := bind_error_iff.mp h
          · obtain ⟨e, he, rfl⟩ := mapError_error_iff.mp h
            cases e with
            | value message => exact .inl ⟨message, rfl⟩
            | overflow =>
                have hlarge := Profile.fromDict_overflow_iff.mp he
                exact .inr ⟨rfl, profile, hversion, hfound,
                  .inr ⟨hpasses, good, item_ok_iff.mp hgood, hlarge⟩⟩
          obtain h | ⟨device, hdevice, h⟩ := bind_error_iff.mp h
          · obtain ⟨message, -, rfl⟩ := mapError_error_iff.mp h
            exact .inl ⟨message, rfl⟩
          obtain h | ⟨failures, hfailures, h⟩ := bind_error_iff.mp h
          · obtain ⟨message, -, rfl⟩ := mapError_error_iff.mp h
            exact .inl ⟨message, rfl⟩
          · cases h
      | _ => cases hversion

theorem parse_overflow {data profile : PyValue} (h : ReachesScale data profile) :
    parse data = .error .overflow := by
  obtain ⟨hversion, hprofile, hlarge⟩ := h
  cases data with
  | dict fields =>
      simp only [parse, hversion, not_true_eq_false, if_false, item, hprofile]
      obtain hlarge | ⟨hpasses, good, hgood, hlarge⟩ := hlarge
      · rw [← Profile.fromDict_overflow_iff] at hlarge
        simp [hlarge, Except.mapError, CheckError.load, bind, Except.bind]
      · obtain ⟨p, hp⟩ := Profile.fromDict_ok_iff.mpr hpasses
        rw [← Profile.fromDict_overflow_iff] at hlarge
        simp [hp, hgood, hlarge, Except.mapError, CheckError.load, bind, Except.bind]
  | _ => cases hversion

variable (enc : Encoding) (faults : FileOp → Bool) (raw : Bytes) (backups : String → PathNode)

/-- Reading the text raises what the constructor does not catch. -/
def Escapes : Prop :=
  raw.length ≤ 65536 ∧ (enc.loads raw = .error .recursion ∨
    ∃ data profile, enc.loads raw = .ok data ∧ ReachesScale data profile)

/-- The validators of the store accept its attributes. -/
structure Validated (s : StateStore) : Prop where
  profile : s.profile.1.valid = true
  knownGood : s.knownGood.1.valid = true
  device : ∀ d, s.selectedDevice = some d → validateDevice (some d.toDict) = .ok (some d)

theorem validated (s : StateStore) : Validated s :=
  ⟨s.profile.2, s.knownGood.2, fun d _ => validateDevice_toDict d⟩

/-- The store has the attributes that the file records, or the default profiles and an error. -/
def Constructed (h : Host) : Prop :=
  (h.store.configError = none ∧ Validated h.store ∧ ∃ l, read enc raw = .ok l ∧
    h.store.profile = l.profile ∧ h.store.knownGood = l.knownGood ∧
    h.store.selectedDevice = l.selectedDevice ∧ h.store.failures = l.failures) ∨
  (h.store.configError.isSome ∧ h.store.profile = .default ∧ h.store.knownGood = .default)

/-- The host of a constructor that has taken over what it has read. -/
def loadedHost (l : Loaded) : Host :=
  ⟨{ initial with
      diskHash := some (enc.sha256 raw), profile := l.profile, knownGood := l.knownGood
      selectedDevice := l.selectedDevice, failures := l.failures, recoveredTrial := l.trial },
    .file raw, backups, some raw, 0⟩

/-- The constructor returns a store; it raises only when it cannot save that a trial has
been dropped. -/
def Settles : Prop :=
  match create enc faults (.file raw) backups with
  | .ok h => Constructed enc raw h
  | .error e => ∃ l, read enc raw = .ok l ∧ l.trial = true ∧
      (save enc faults (loadedHost enc raw backups l)).1 = .error e

variable {enc faults raw backups}

theorem read_error {e : LoadError} (h : read enc raw = .error e) :
    (∃ message, e = .caught message) ∨ Escapes enc raw := by
  unfold read at h
  split at h
  · exact .inl ⟨_, (Except.error.inj h).symm⟩
  next hle =>
    obtain h | ⟨data, hdata, h⟩ := bind_error_iff.mp h
    · obtain ⟨cause, hcause, rfl⟩ := mapError_error_iff.mp h
      cases cause with
      | value message => exact .inl ⟨message, rfl⟩
      | recursion => exact .inr ⟨Nat.le_of_not_lt hle, .inl hcause⟩
    · obtain hcaught | ⟨-, profile, hreaches⟩ := parse_error h
      · exact .inl hcaught
      · exact .inr ⟨Nat.le_of_not_lt hle, .inr ⟨data, profile, mapError_ok_iff.mp hdata, hreaches⟩⟩

theorem read_escapes (h : Escapes enc raw) :
    read enc raw = .error .overflow ∨ read enc raw = .error .recursion := by
  obtain ⟨hle, hrecursion | ⟨data, profile, hdata, hreaches⟩⟩ := h
  · right
    rw [read, if_neg (Nat.not_lt.mpr hle), hrecursion]
    rfl
  · left
    rw [read, if_neg (Nat.not_lt.mpr hle), hdata]
    exact parse_overflow hreaches

/-- Saving a loaded store keeps what it has loaded. -/
theorem save_loaded (enc : Encoding) (faults : FileOp → Bool) (raw : Bytes)
    (backups : String → PathNode) (l : Loaded) :
    (save enc faults).wp Anywhere
      (fun _ t => t.store.configError = none ∧ t.store.profile = l.profile ∧
        t.store.knownGood = l.knownGood ∧ t.store.selectedDevice = l.selectedDevice ∧
        t.store.failures = l.failures)
      (fun _ _ => True) (loadedHost enc raw backups l) := by
  apply wp_save
  · intro _ _
    trivial
  · intro text _ _ _
    exact ⟨⟨rfl, rfl, rfl, rfl, rfl⟩, trivial⟩

/-- The constructor after it has read its file. -/
theorem create_loaded {l : Loaded} (hopen : ¬ (faults .stat = true ∨ faults .read = true))
    (h : read enc raw = .ok l) :
    create enc faults (.file raw) backups =
      if l.trial = true then
        let t := (save enc faults).final (loadedHost enc raw backups l)
        match (save enc faults (loadedHost enc raw backups l)).1 with
        | .ok _ => .ok t
        | .error (.value message) => .ok { t with store := { t.store with
            configError := some message, profile := .default, knownGood := .default } }
        | .error e => .error e
      else .ok (loadedHost enc raw backups l) := by
  simp only [create, hopen, if_false, h]
  rfl

theorem not_settles (hopen : ¬ (faults .stat = true ∨ faults .read = true))
    (hescapes : Escapes enc raw) : ¬ Settles enc faults raw backups := by
  intro hsettles
  unfold Settles at hsettles
  obtain h | h := read_escapes hescapes
  · simp [create, hopen, h] at hsettles
  · simp [create, hopen, h] at hsettles

theorem not_forall_settles (h : Escapes enc raw) :
    ¬ ∀ (enc : Encoding) (faults : FileOp → Bool) (raw : Bytes) (backups : String → PathNode),
      faults .stat = false → faults .read = false → Settles enc faults raw backups := by
  intro hsettles
  have hfalse := hsettles enc (fun _ => false) raw (fun _ => .absent) rfl rfl
  exact not_settles (by simp) h hfalse

/-- The constructor fails to settle exactly at the texts that make reading them raise what
it does not catch, and `from_dict` at the objects with such a scale. -/
theorem configuration_total (hstat : faults .stat = false) (hread : faults .read = false)
    (value : PyValue) :
    (Settles enc faults raw backups ↔ ¬ Escapes enc raw) ∧
      (Profile.Total value ↔ ¬ Profile.ScaleTooLarge value) := by
  refine ⟨?_, Profile.total_iff⟩
  have hopen : ¬ (faults .stat = true ∨ faults .read = true) := by simp [hstat, hread]
  constructor
  · intro hsettles hescapes
    exact not_settles hopen hescapes hsettles
  · intro hescapes
    cases h : read enc raw with
    | error e =>
        obtain ⟨message, rfl⟩ | hfalse := read_error h
        · simp only [Settles, create, hopen, if_false, h]
          exact .inr ⟨rfl, rfl, rfl⟩
        · exact absurd hfalse hescapes
    | ok l =>
        rw [Settles, create_loaded hopen h]
        cases htrial : l.trial with
        | false => exact .inl ⟨rfl, validated _, l, h, rfl, rfl, rfl, rfl⟩
        | true =>
            have hsave := save_loaded enc faults raw backups l
            cases hvalue : (save enc faults (loadedHost enc raw backups l)).1 with
            | ok _ =>
                obtain ⟨hnone, hprofile, hgood, hdevice, hfailures⟩ := hsave.ok hvalue
                exact .inl ⟨hnone, validated _, l, h, hprofile, hgood, hdevice, hfailures⟩
            | error e =>
                cases e with
                | value message => exact .inr ⟨rfl, rfl, rfl⟩
                | _ => exact ⟨l, h, htrial, hvalue⟩

section Examples

/-- A profile whose scale is `10 ** 400`. -/
def enormous : PyValue :=
  .dict [("source_width", .int 1280), ("source_height", .int 720), ("content_fps", .int 30),
    ("wire_width", .int 1280), ("wire_height", .int 720), ("wire_fps", .int 30),
    ("bitrate_kbps", .int 4096), ("scale", .int (10 ^ 400)), ("rotation", .int 0)]

theorem enormous_large : Profile.ScaleTooLarge enormous := by
  refine ⟨⟨1280, 720, 30, 1280, 720, 30, 4096, .int (10 ^ 400), 0⟩, by decide +kernel, ?_, ?_⟩
  · exact ⟨by decide, by decide, by decide, by decide⟩
  · decide +kernel

/-- The document of a configuration with that profile, as far as it is read. -/
def enormousDocument : PyValue :=
  .dict [("api_version", .int 1), ("profile", enormous)]

/-- Its text. -/
def enormousText : Bytes :=
  ("\x7b\"api_version\":1,\"profile\":\x7b\"source_width\":1280,\"source_height\":720,".toList ++
    "\"content_fps\":30,\"wire_width\":1280,\"wire_height\":720,\"wire_fps\":30,".toList ++
    "\"bitrate_kbps\":4096,\"scale\":1".toList ++ List.replicate 400 '0' ++
    ",\"rotation\":0\x7d\x7d".toList).map fun c => c.toNat.toUInt8

/-- An encoding that reads that text as that document. -/
def enormousEncoding : Encoding :=
  Encoding.sample enormousDocument enormousText (by decide +kernel)

theorem enormous_escapes : Escapes enormousEncoding enormousText := by
  refine ⟨by decide +kernel, .inr ⟨enormousDocument, enormous, Encoding.sample_loads _, ?_⟩⟩
  exact ⟨by decide +kernel, by decide +kernel, .inl enormous_large⟩

end Examples

/-- An empty file settles, and the profile with the enormous scale does not. -/
theorem configuration_total_enormous :
    Settles Encoding.tagged (fun _ => false) [] (fun _ => .absent) ∧ ¬ Profile.Total enormous := by
  obtain ⟨hsettles, htotal⟩ := @configuration_total Encoding.tagged (fun _ => false) []
    (fun _ => .absent) rfl rfl enormous
  refine ⟨hsettles.mpr ?_, fun h => htotal.mp h enormous_large⟩
  rintro ⟨-, h | ⟨data, profile, h, -⟩⟩
  · cases h
  · cases h

/-- The text with the enormous scale makes the constructor raise `OverflowError`. -/
theorem configuration_escapes :
    ¬ ((∀ (enc : Encoding) (faults : FileOp → Bool) (raw : Bytes) (backups : String → PathNode),
        faults .stat = false → faults .read = false → Settles enc faults raw backups) ∧
      ∀ value, Profile.Total value) := by
  intro h
  exact not_forall_settles enormous_escapes h.1

end StateStore

end HccastWired.Desktop
