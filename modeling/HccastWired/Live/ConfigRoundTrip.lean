import HccastWired.Foundation.Outcome
import HccastWired.Foundation.PyJsonText
import HccastWired.Live.ConfigStore

/-!
# Stored configurations come back

What the store loads is valid, and what it has saved is what it loads, unless the URL
holds the halves of a surrogate pair side by side.
-/

namespace HccastWired.Live.ConfigStore

open Foundation PyJson

variable {urlsplit : Urlsplit} {f : Field} {a : Argument} {s : Scalar} {c d : LiveConfig}

section Checks

theorem same_iff (hexpected : f.fixed = some s) : a.same s = true ↔ a = .value s.value := by
  cases s with
  | bool b => cases f <;> simp [Field.fixed] at hexpected
  | int n =>
    cases a with
    | mode m => simp [Argument.same]
    | value v => cases v <;> simp [Argument.same, Scalar.value]
  | str text =>
    cases a with
    | mode m => simp [Argument.same]
    | value v => cases v <;> simp [Argument.same, Scalar.value]

theorem modeCodes_points {text : List Nat} (h : text ∈ modeCodes) : ∀ c ∈ text, c < 0x110000 := by
  have hall : modeCodes.all (fun text => text.all (· < 0x110000)) = true := by decide
  simpa using List.all_eq_true.mp hall text h

theorem isAccount_points {text : List Nat} (h : isAccount text = true) : ∀ c ∈ text, c < 128 := by
  cases text with
  | nil => cases h
  | cons c rest =>
    simp only [isAccount, isLowerLetter, Bool.and_eq_true, Bool.or_eq_true, decide_eq_true_eq,
      List.all_eq_true] at h
    obtain ⟨⟨hfirst, -⟩, hrest⟩ := h
    rw [List.forall_mem_cons]
    constructor
    · omega
    · intro d hd
      have hd' := hrest d hd
      omega

theorem text_str {text : List Nat} (h : ∀ c ∈ text, c < 0x110000) :
    (Argument.value (.str text)).text = some text := by
  simpa [Argument.text] using h

theorem text_points {text : List Nat} (h : a.text = some text) : ∀ c ∈ text, c < 0x110000 := by
  unfold Argument.text at h
  split at h
  · split at h
    · next hall =>
      obtain rfl := Option.some.inj h
      simpa using hall
    · cases h
  · cases h
  · next m =>
    obtain rfl := Option.some.inj h
    apply modeCodes_points
    cases m <;> simp [modeValue, modeCodes]

/-- What a check returns is as the model allows. -/
theorem check_rule (h : f.check urlsplit a = .ok s) : Rule urlsplit f s := by
  unfold Field.check at h
  unfold Rule
  cases hfixed : f.fixed with
  | some expected =>
    rw [hfixed] at h
    simp only [fixedValue] at h
    split at h
    · exact (Except.ok.inj h).symm
    · cases h
  | none =>
    rw [hfixed] at h
    cases f with
    | mode =>
      simp only [enumValue] at h
      split at h
      · next text _ =>
        split at h
        · next hmem => exact ⟨text, hmem, (Except.ok.inj h).symm⟩
        · cases h
      · cases h
    | kioskUrl =>
      simp only [validateKioskUrl] at h
      split at h
      · cases h
      · next url htext =>
        split at h
        · cases h
        · next parts hparts =>
          split at h
          · cases h
          · next port hport =>
            split at h
            · cases h
            · next hrefused =>
              exact ⟨url, parts, port, (Except.ok.inj h).symm, text_points htext, hparts, hport,
                Bool.eq_false_iff.mpr hrefused⟩
    | fps =>
      simp only [boundedInt] at h
      split at h
      · next n =>
        split at h
        · next hbounds =>
          refine ⟨n.toNat, (Except.ok.inj h).symm, ?_, ?_⟩
          · omega
          · omega
        · cases h
      · cases h
    | bitrateKbps =>
      simp only [boundedInt] at h
      split at h
      · next n =>
        split at h
        · next hbounds =>
          refine ⟨n.toNat, (Except.ok.inj h).symm, ?_, ?_⟩
          · omega
          · omega
        · cases h
      · cases h
    | sourceUser =>
      simp only [validateSourceUser] at h
      split at h
      · next text _ =>
        split at h
        · next haccount => exact ⟨text, (Except.ok.inj h).symm, haccount⟩
        · cases h
      · cases h
    | novncEnabled =>
      simp only [validateEnabled] at h
      split at h
      · next b => exact ⟨b, (Except.ok.inj h).symm⟩
      · cases h
    | _ => cases hfixed

/-- A check returns a value that the model allows as it is. -/
theorem check_value (h : Rule urlsplit f s) : f.check urlsplit (.value s.value) = .ok s := by
  unfold Rule at h
  unfold Field.check
  cases hfixed : f.fixed with
  | some expected =>
    rw [hfixed] at h
    obtain rfl : s = expected := h
    simp only [fixedValue]
    rw [if_pos ((same_iff hfixed).mpr rfl)]
  | none =>
    rw [hfixed] at h
    cases f with
    | mode =>
      obtain ⟨text, hmem, rfl⟩ := h
      simp only [enumValue, Scalar.value, text_str (modeCodes_points hmem), if_pos hmem]
    | kioskUrl =>
      obtain ⟨url, parts, port, rfl, hpoints, hparts, hport, hrefused⟩ := h
      simp [validateKioskUrl, Scalar.value, text_str hpoints, hparts, hport, hrefused]
    | fps =>
      obtain ⟨n, rfl, hlow, hhigh⟩ := h
      simp only [boundedInt, Scalar.value]
      rw [if_pos (by omega)]
      rfl
    | bitrateKbps =>
      obtain ⟨n, rfl, hlow, hhigh⟩ := h
      simp only [boundedInt, Scalar.value]
      rw [if_pos (by omega)]
      rfl
    | sourceUser =>
      obtain ⟨text, rfl, haccount⟩ := h
      have hpoints : ∀ c ∈ text, c < 0x110000 := fun c hc =>
        (isAccount_points haccount c hc).trans (by decide)
      simp only [validateSourceUser, Scalar.value, text_str hpoints, if_pos haccount]
    | novncEnabled =>
      obtain ⟨b, rfl⟩ := h
      rfl
    | _ => cases hfixed

end Checks

section Mappings

theorem mem_all (f : Field) : f ∈ Field.all := by
  cases f <;> decide

variable {g : Field → Except ConfigError Scalar} {fields : List Field}
  {values : List (Field × Scalar)}

/-- Checks that all pass, one after the other. -/
theorem mapM_ok_iff : (fields.mapM fun f => do
      let s ← g f
      Except.ok (f, s)) = .ok values ↔
    List.Forall₂ (fun f v => v.1 = f ∧ g f = .ok v.2) fields values := by
  induction fields generalizing values with
  | nil => simp [pure, Except.pure, eq_comm]
  | cons f fields ih =>
    rw [List.mapM_cons, List.forall₂_cons_left_iff]
    simp only [bind_ok_iff, pure, Except.pure, Except.ok.injEq, ih]
    constructor
    · rintro ⟨v, ⟨s, hs, rfl⟩, rest, hrest, rfl⟩
      exact ⟨(f, s), rest, ⟨rfl, hs⟩, hrest, rfl⟩
    · rintro ⟨⟨_, s⟩, rest, ⟨rfl, hs⟩, hrest, rfl⟩
      exact ⟨_, ⟨s, hs, rfl⟩, rest, hrest, rfl⟩

theorem lookup_checked (h : List.Forall₂ (fun f v => v.1 = f ∧ g f = .ok v.2) fields values)
    (hf : f ∈ fields) : ∃ s, values.lookup f = some s ∧ g f = .ok s := by
  induction h with
  | nil => cases hf
  | @cons e v fields values hv _ ih =>
    obtain ⟨rfl, hs⟩ := hv
    by_cases heq : f = v.1
    · subst heq
      exact ⟨v.2, by simp [List.lookup], hs⟩
    · obtain ⟨s, hlookup, hg⟩ := ih ((List.mem_cons.mp hf).resolve_left heq)
      refine ⟨s, ?_, hg⟩
      rw [List.lookup, beq_eq_false_iff_ne.mpr heq]
      exact hlookup

/-- A constructor that returns has checked every field. -/
theorem construct_ok_iff {given : Field → Argument} : construct urlsplit given = .ok c ↔
    ∀ f, Field.check urlsplit f (given f) = .ok (c f) := by
  unfold construct
  rw [bind_ok_iff]
  constructor
  · rintro ⟨values, hvalues, hc⟩ f
    obtain ⟨s, hlookup, hs⟩ := lookup_checked (mapM_ok_iff.mp hvalues) (mem_all f)
    rw [← Except.ok.inj hc]
    simpa only [hlookup, Option.getD_some] using hs
  · intro h
    have hall : List.Forall₂ (fun f v => v.1 = f ∧ Field.check urlsplit f (given f) = .ok v.2)
        Field.all (Field.all.map fun f => (f, c f)) := by
      rw [List.forall₂_map_right_iff, List.forall₂_same]
      exact fun f _ => ⟨rfl, h f⟩
    refine ⟨_, mapM_ok_iff.mpr hall, congrArg Except.ok (funext fun f => ?_)⟩
    obtain ⟨s, hlookup, hs⟩ := lookup_checked hall (mem_all f)
    rw [hlookup]
    exact (Except.ok.inj ((h f).symm.trans hs)).symm

theorem lookup_reverse_append {β : Type} (xs ys : List (List Nat × β)) (key : List Nat) :
    (xs ++ ys).reverse.lookup key = (ys.reverse.lookup key).or (xs.reverse.lookup key) := by
  rw [List.reverse_append, List.lookup_append]

theorem lookup_of_notMem {β : Type} {entries : List (List Nat × β)} {key : List Nat}
    (h : key ∉ entries.map Prod.fst) : entries.reverse.lookup key = none := by
  rw [List.lookup_eq_none_iff]
  intro entry hentry
  rw [bne_iff_ne]
  rintro rfl
  exact h (List.mem_map_of_mem (List.mem_reverse.mp hentry))

theorem keys_toMapping (c : LiveConfig) : (toMapping c).map Prod.fst = Field.all.map Field.key := by
  rw [toMapping, List.map_map]
  rfl

theorem nodup_keys : (Field.all.map Field.key).Nodup := by
  decide +kernel

/-- A mapping of the fields, in any order, with one argument each. -/
theorem fromMapping_ok_iff {mapping : List (List Nat × Argument)} {given : Field → Argument}
    (hkeys : ∀ key ∈ mapping.map Prod.fst, key ∈ Field.all.map Field.key)
    (hgiven : ∀ f, argument mapping f = given f) :
    fromMapping urlsplit mapping = .ok c ↔
      ∀ f, Field.check urlsplit f (given f) = .ok (c f) := by
  have hknown : (mapping.map Prod.fst).filter
      (fun key => !(Field.all.map Field.key).contains key) = [] := by
    rw [List.filter_eq_nil_iff]
    intro key hkey
    simpa using hkeys key hkey
  unfold fromMapping
  rw [hknown]
  dsimp only
  rw [if_neg (by simp), construct_ok_iff]
  exact forall_congr' fun f => by rw [hgiven f]

theorem keys_ownArguments (c : LiveConfig) :
    (ownArguments c).map Prod.fst = Field.all.map Field.key := by
  simp only [ownArguments, arguments, List.map_map]
  exact keys_toMapping c

theorem lookup_ownArguments (c : LiveConfig) (f : Field) :
    (ownArguments c).reverse.lookup f.key = some (.value (c f).value) := by
  apply lookup_reverse_of_mem
  · rw [keys_ownArguments]
    exact nodup_keys
  · simp only [ownArguments, arguments, toMapping, List.map_map, List.mem_map]
    exact ⟨f, mem_all f, rfl⟩

/-- A configuration is what its mapping stands for. -/
theorem fromMapping_toMapping (h : Valid urlsplit c) :
    fromMapping urlsplit (ownArguments c) = .ok c := by
  rw [@fromMapping_ok_iff _ _ _ fun f => .value (c f).value]
  · exact fun f => check_value (h f)
  · rw [keys_ownArguments]
    exact fun _ hkey => hkey
  · intro f
    rw [argument, lookup_ownArguments]
    rfl

theorem fromMapping_checked {mapping : List (List Nat × Argument)}
    (h : fromMapping urlsplit mapping = .ok c) (f : Field) :
    Field.check urlsplit f (argument mapping f) = .ok (c f) := by
  unfold fromMapping at h
  dsimp only at h
  split at h
  · cases h
  · exact construct_ok_iff.mp h f

theorem fromMapping_valid {mapping : List (List Nat × Argument)}
    (h : fromMapping urlsplit mapping = .ok c) : Valid urlsplit c :=
  fun f => check_rule (fromMapping_checked h f)

/-- Fields without an update stay as they are. -/
theorem withUpdates_frame {changes : List (List Nat × Argument)} (h : Valid urlsplit c)
    (hd : withUpdates urlsplit c changes = .ok d) (hf : f.key ∉ changes.map Prod.fst) :
    d f = c f := by
  have hchecked := fromMapping_checked hd f
  rw [argument, lookup_reverse_append, lookup_of_notMem hf, lookup_ownArguments] at hchecked
  have hown := check_value (h f)
  exact Except.ok.inj (hchecked.symm.trans hown)

end Mappings

section Saved

variable {room : Nat} {faults : Step → Bool}

/-- A value whose text holds no surprises: a truth value, a short number or ASCII. -/
inductive Simple : Scalar → Prop
  | bool (b : Bool) : Simple (.bool b)
  | int (n : Nat) (h : n < 10 ^ 10) : Simple (.int n)
  | str (text : List Nat) (h : ∀ c ∈ text, c < 128) : Simple (.str text)

theorem Simple.fits (h : Simple s) : s.Fits := by
  cases h with
  | bool b => trivial
  | int n h =>
    have hlength := (Nat.length_toDigits_le_iff (by decide) (by decide)).mpr h
    exact hlength.trans (by decide)
  | str text h => exact fun c hc => (h c hc).trans (by decide)

theorem Simple.read_eq (h : Simple s) : s.read = s.value := by
  cases h with
  | bool b => rfl
  | int n h => rfl
  | str text h =>
    have hmerge := (merge_eq_iff text).mpr (wellPaired_of_lt fun c hc => (h c hc).trans (by decide))
    rw [Scalar.read, hmerge]
    rfl

theorem simple_fixed (h : f.fixed = some s) : Simple s := by
  cases f <;> simp only [Field.fixed, Option.some.injEq, reduceCtorEq] at h <;> subst h
  any_goals exact Simple.int _ (by decide)
  · exact Simple.str _ (by decide)
  · exact Simple.str _ (by decide)

/-- Only the URL can hold a text that is not ASCII. -/
theorem simple_of_rule (h : Rule urlsplit f s) (hf : f ≠ .kioskUrl) : Simple s := by
  unfold Rule at h
  cases hfixed : f.fixed with
  | some expected =>
    rw [hfixed] at h
    obtain rfl : s = expected := h
    exact simple_fixed hfixed
  | none =>
    rw [hfixed] at h
    cases f with
    | mode =>
      obtain ⟨text, hmem, rfl⟩ := h
      have hall : modeCodes.all (fun text => text.all (· < 128)) = true := by decide
      exact Simple.str text (by simpa using List.all_eq_true.mp hall text hmem)
    | kioskUrl => exact (hf rfl).elim
    | fps =>
      obtain ⟨n, rfl, -, hle⟩ := h
      exact Simple.int n (by omega)
    | bitrateKbps =>
      obtain ⟨n, rfl, -, hle⟩ := h
      exact Simple.int n (by omega)
    | sourceUser =>
      obtain ⟨text, rfl, haccount⟩ := h
      exact Simple.str text (isAccount_points haccount)
    | novncEnabled =>
      obtain ⟨b, rfl⟩ := h
      exact Simple.bool b
    | _ => cases hfixed

theorem fits_of_rule (h : Rule urlsplit f s) : s.Fits := by
  by_cases hf : f = .kioskUrl
  · subst hf
    obtain ⟨url, parts, port, rfl, hpoints, -⟩ := h
    exact hpoints
  · exact (simple_of_rule h hf).fits

theorem key_points (f : Field) : ∀ c ∈ f.key, c < 128 := by
  have hall : Field.all.all (fun f => f.key.all (· < 128)) = true := by decide
  simpa using List.all_eq_true.mp hall f (mem_all f)

theorem merge_key (f : Field) : merge f.key = f.key :=
  (merge_eq_iff f.key).mpr (wellPaired_of_lt fun c hc => (key_points f c hc).trans (by decide))

theorem decodeUtf8_printable {text : List Char} (h : ∀ c ∈ text, c.toNat < 0x80) :
    decodeUtf8 (text.flatMap encodeUtf8Char) = some text := by
  induction text with
  | nil => rfl
  | cons c text ih =>
    rw [List.forall_mem_cons] at h
    have hbyte : (UInt8.ofNat c.toNat).toNat = c.toNat := by
      simp only [UInt8.toNat_ofNat']
      omega
    have hlt : UInt8.ofNat c.toNat < 0x80 := by
      rw [UInt8.lt_iff_toNat_lt, hbyte]
      exact h.1
    have hencode : encodeUtf8Char c = [UInt8.ofNat c.toNat] := by
      simp [encodeUtf8Char, h.1]
    rw [List.flatMap_cons, hencode, List.singleton_append, decodeUtf8.eq_def]
    dsimp only
    rw [if_pos hlt, ih h.2, hbyte, Char.ofNat_toNat]
    rfl

theorem universalNewlines_eq {text : List Char} (h : '\r' ∉ text) : universalNewlines text = text := by
  induction text with
  | nil => rfl
  | cons c text ih =>
    rw [List.mem_cons, not_or] at h
    rw [universalNewlines.eq_3 c text ?_ ?_, ih h.2]
    · rintro rest rfl
      exact fun _ => h.1 rfl
    · rintro rfl
      exact h.1 rfl

/-- The fields of a saved text, in the order of their keys. -/
def sorted (c : LiveConfig) : List (List Nat × Scalar) :=
  (toMapping c).mergeSort fun a b => decide (a.1 ≤ b.1)

theorem sorted_perm (c : LiveConfig) : (sorted c).Perm (toMapping c) :=
  List.mergeSort_perm _ _

theorem sorted_ne_nil (c : LiveConfig) : sorted c ≠ [] := by
  intro h
  have hlength := (sorted_perm c).length_eq
  rw [h] at hlength
  cases hlength

theorem readField_sorted_perm (c : LiveConfig) :
    ((sorted c).map readField).Perm (Field.all.map fun f => (f.key, (c f).read)) := by
  have hfields : (toMapping c).map readField = Field.all.map fun f => (f.key, (c f).read) := by
    rw [toMapping, List.map_map]
    apply List.map_congr_left
    intro f _
    simp only [Function.comp_apply, readField, merge_key]
  rw [← hfields]
  exact (sorted_perm c).map readField

theorem fits_sorted (h : Valid urlsplit c) : ∀ field ∈ sorted c, Fits field := by
  intro field hfield
  have hmem := (sorted_perm c).mem_iff.mp hfield
  simp only [toMapping, List.mem_map] at hmem
  obtain ⟨f, -, rfl⟩ := hmem
  exact ⟨fun code hcode => (key_points f code hcode).trans (by decide), fits_of_rule (h f)⟩

theorem configText_chars (c : LiveConfig) :
    ∀ char ∈ configText c, char.toNat < 0x80 ∧ char ≠ '\r' := by
  rw [configText, List.forall_mem_append]
  constructor
  · intro char hchar
    have hprintable := List.all_eq_true.mp (printable_dumpDict (sorted c)) char hchar
    simp only [printable, Bool.and_eq_true, decide_eq_true_eq] at hprintable
    refine ⟨by omega, ?_⟩
    rintro rfl
    exact absurd hprintable.1 (by decide)
  · intro char hchar
    obtain rfl := List.mem_singleton.mp hchar
    decide

/-- What the library reads from a saved file. -/
theorem jsonLoad_configBytes (h : Valid urlsplit c) :
    jsonLoad room (configBytes c) = .ok (.dict ((sorted c).map readField)) := by
  have hdecode : decodeUtf8 (configBytes c) = some (configText c) :=
    decodeUtf8_printable fun char hchar => (configText_chars c char hchar).1
  have hlines : universalNewlines (configText c) = configText c :=
    universalNewlines_eq fun hmem => (configText_chars c _ hmem).2 rfl
  have hraw := @rawDecode_dumpDict Layout.compact room ['\n'] _ (sorted_ne_nil c) (fits_sorted h)
  have hloads : loads (room + 1) (configText c) = .ok (.dict ((sorted c).map readField)) := by
    have hhead : configText c = '{' :: (dumpFields .compact (sorted c) ++ ['\n']) := rfl
    rw [loads, hhead, List.head?_cons, if_neg (by decide), PyJson.skipBlanks_cons rfl, ← hhead]
    change rawDecode (room + 1) (dumpDict .compact (sorted c) ++ ['\n']) >>= _ = _
    rw [hraw]
    rfl
  rw [jsonLoad, hdecode]
  dsimp only
  rw [hlines, hloads]
  rfl

/-- Loading a saved file checks every field as it was read. -/
theorem load_configBytes (h : Valid urlsplit c) :
    load urlsplit room ⟨.regular (configBytes c), false, false⟩ = .ok d ↔
      ∀ f, Field.check urlsplit f (.value (c f).read) = .ok (d f) := by
  have hperm := readField_sorted_perm c
  have hnodup : (((sorted c).map readField).map Prod.fst).Nodup := by
    rw [(hperm.map Prod.fst).nodup_iff, List.map_map]
    exact nodup_keys
  have hkeys : (arguments ((sorted c).map readField)).map Prod.fst =
      ((sorted c).map readField).map Prod.fst := by
    rw [arguments, List.map_map]
    rfl
  have hmapping : fromMapping urlsplit (arguments ((sorted c).map readField)) = .ok d ↔
      ∀ f, Field.check urlsplit f (.value (c f).read) = .ok (d f) := by
    apply fromMapping_ok_iff
    · rw [hkeys]
      intro key hkey
      have hmem := (hperm.map Prod.fst).mem_iff.mp hkey
      rwa [List.map_map] at hmem
    · intro f
      have hmem : (f.key, (c f).read) ∈ (sorted c).map readField :=
        hperm.mem_iff.mpr (List.mem_map.mpr ⟨f, mem_all f, rfl⟩)
      have hargument : (f.key, Argument.value (c f).read) ∈
          arguments ((sorted c).map readField) := List.mem_map.mpr ⟨_, hmem, rfl⟩
      rw [argument, lookup_reverse_of_mem (hkeys ▸ hnodup) hargument]
      rfl
  simp only [load, jsonLoad_configBytes h, Bool.false_eq_true, if_false]
  rw [mapError_ok_iff]
  exact hmapping

/-- The URL of a configuration. -/
def kioskUrl (c : LiveConfig) : List Nat :=
  match c .kioskUrl with
  | .str url => url
  | _ => []

theorem check_kioskUrl {url read : List Nat}
    (h : Field.check urlsplit .kioskUrl (.value (.str read)) = .ok (.str url)) : read = url := by
  simp only [Field.check, Field.fixed, validateKioskUrl] at h
  split at h
  · cases h
  · next text htext =>
    have hread : read = text := by
      simp only [Argument.text] at htext
      split at htext
      · exact Option.some.inj htext
      · cases htext
    split at h
    · cases h
    · split at h
      · cases h
      · split at h
        · cases h
        · rw [hread]
          simpa using h

/-- A saved configuration comes back unless its URL holds a split surrogate pair. -/
theorem load_saved_iff (h : Valid urlsplit c) :
    load urlsplit room ⟨.regular (configBytes c), false, false⟩ = .ok c ↔
      WellPaired (kioskUrl c) := by
  obtain ⟨url, parts, port, hurl, -⟩ := h .kioskUrl
  have hkiosk : kioskUrl c = url := by rw [kioskUrl, hurl]
  rw [load_configBytes h, hkiosk, ← merge_eq_iff]
  constructor
  · intro hchecks
    have hcheck := hchecks .kioskUrl
    rw [hurl] at hcheck
    exact check_kioskUrl hcheck
  · intro hmerge f
    by_cases hf : f = .kioskUrl
    · subst hf
      have hread : (c .kioskUrl).read = (c .kioskUrl).value := by
        rw [hurl, Scalar.read, hmerge]
        rfl
      rw [hread]
      exact check_value (h .kioskUrl)
    · rw [(simple_of_rule (h f) hf).read_eq]
      exact check_value (h f)

end Saved

section Store

variable {room : Nat} {faults : Step → Bool} {disk : Disk}

theorem wp_attempt {step : Step} {crash : Disk → Prop} {post : Unit → Disk → Prop}
    {fail : Step → Disk → Prop} (hpost : post () disk) (hfail : fail step disk) :
    (attempt faults step).wp crash post fail disk := by
  unfold attempt
  split
  · exact (Call.wp_throw _).mpr hfail
  · exact (Call.wp_pure _).mpr hpost

/-- A save replaces the file as a whole or leaves it alone. -/
theorem wp_save (c : LiveConfig) :
    (save faults c).wp
      (fun d => d.target = disk.target ∨ d.target = .regular (configBytes c))
      (fun _ d => d.target = .regular (configBytes c)) (fun _ d => d.target = disk.target)
      disk := by
  have hwrite : ∀ d : Disk, d.target = disk.target → (writeAndReplace faults (configBytes c)).wp
      (fun d => d.target = disk.target ∨ d.target = .regular (configBytes c))
      (fun _ d => d.target = .regular (configBytes c)) (fun _ d => d.target = disk.target) d := by
    intro d hd
    apply Call.wp_bind.mpr
    refine wp_attempt ?_ hd
    apply Call.wp_bind.mpr
    refine wp_attempt ?_ hd
    apply Call.wp_bind.mpr
    apply Call.wp_update.mpr
    refine ⟨.inl hd, ?_⟩
    apply Call.wp_bind.mpr
    refine wp_attempt ?_ hd
    apply Call.wp_bind.mpr
    refine wp_attempt ?_ hd
    apply Call.wp_bind.mpr
    refine wp_attempt ?_ hd
    apply Call.wp_bind.mpr
    refine wp_attempt ?_ hd
    apply Call.wp_update.mpr
    exact ⟨.inr rfl, rfl⟩
  apply Call.wp_bind.mpr
  refine wp_attempt ?_ rfl
  apply Call.wp_bind.mpr
  apply Call.wp_update.mpr
  refine ⟨.inl rfl, ?_⟩
  apply Call.wp_tryCatch.mpr
  refine Call.wp.mono (hwrite _ rfl) (fun _ _ hd => hd) fun e d hd => ?_
  apply Call.wp_bind.mpr
  unfold discard
  split
  · exact (Call.wp_pure _).mpr ((Call.wp_throw _).mpr hd)
  · exact Call.wp_update.mpr ⟨.inl hd, (Call.wp_throw _).mpr hd⟩

/-- A file that can be opened. -/
def readable (node : Node) : Path :=
  ⟨node, false, false⟩

/-- Loading ends in a valid configuration or in the error of the store. -/
def FailClosed (urlsplit : Urlsplit) (room : Nat) (path : Path) : Prop :=
  (∃ c, load urlsplit room path = .ok c ∧ Valid urlsplit c) ∨
    load urlsplit room path = .error .stateStore

/-- Reading the file as JSON raises an exception that is no `JSONDecodeError`. -/
def Escapes (room : Nat) (raw : Bytes) : Prop :=
  ∃ e, jsonLoad room raw = .error e ∧ e ≠ .decode

theorem failClosed_iff (urlsplit : Urlsplit) (room : Nat) (raw : Bytes) :
    FailClosed urlsplit room (readable (.regular raw)) ↔ ¬ Escapes room raw := by
  unfold FailClosed Escapes load readable
  simp only [Bool.false_eq_true, if_false]
  cases hload : jsonLoad room raw with
  | error e => cases e <;> simp
  | ok v =>
    have hno : ¬ ∃ e, Except.ok v = Except.error e ∧ e ≠ JsonRaised.decode := by simp
    apply iff_of_true _ hno
    cases v with
    | dict fields =>
      dsimp only
      cases hmapping : fromMapping urlsplit (arguments fields) with
      | ok c => exact .inl ⟨c, rfl, fromMapping_valid hmapping⟩
      | error e => exact .inr rfl
    | _ => exact .inr rfl

/-- Loading fails closed on the files that the library reads or refuses as JSON, a saved
configuration comes back up to split surrogate pairs, and an update or a failing save
changes nothing else. -/
theorem live_config_persistence (urlsplit : Urlsplit) (room : Nat) :
    (∀ raw, FailClosed urlsplit room (readable (.regular raw)) ↔ ¬ Escapes room raw) ∧
      (∀ c faults disk, Valid urlsplit c → (save faults c disk).1 = .ok () →
        (load urlsplit room (readable ((save faults c).final disk).target) = .ok c ↔
          WellPaired (kioskUrl c))) ∧
      (∀ c, Valid urlsplit c → fromMapping urlsplit (ownArguments c) = .ok c) ∧
      (∀ c d changes f, Valid urlsplit c → withUpdates urlsplit c changes = .ok d →
        f.key ∉ changes.map Prod.fst → d f = c f) ∧
      ∀ c faults disk e, (save faults c disk).1 = .error e →
        ((save faults c).final disk).target = disk.target := by
  refine ⟨failClosed_iff urlsplit room, ?_, fun c h => fromMapping_toMapping h,
    fun c d changes f h hd hf => withUpdates_frame h hd hf, ?_⟩
  · intro c faults disk h hsave
    rw [(wp_save c).ok hsave]
    exact load_saved_iff h
  · intro c faults disk e hsave
    exact (wp_save c).failed hsave

/-- A byte that no UTF-8 text has raises `UnicodeDecodeError`. -/
theorem undecodable_state_escapes :
    ¬ FailClosed (fun _ => none) 999 (readable (.regular [0xFF])) := by
  rw [failClosed_iff, not_not]
  exact ⟨.unicode, rfl, by decide⟩

/-- The attributes of the supervisor's configuration, with those that are fixed. -/
def full (c : Live.LiveConfig) : LiveConfig
  | .mode => .str (codes (modeValue c.mode))
  | .kioskUrl => .str (codes c.kioskUrl)
  | .fps => .int c.fps
  | .bitrateKbps => .int c.bitrateKbps
  | .sourceUser => .str (codes c.sourceUser)
  | .novncEnabled => .bool c.novncEnabled
  | f => f.default

/-- The supervisor's configuration comes back: its URL is a text of characters. -/
theorem load_saved_full {urlsplit : Urlsplit} {c : Live.LiveConfig} (h : Valid urlsplit (full c))
    (hsave : (save faults (full c) disk).1 = .ok ()) :
    load urlsplit room (readable ((save faults (full c)).final disk).target) = .ok (full c) := by
  rw [(wp_save (full c)).ok hsave]
  exact (load_saved_iff h).mpr (wellPaired_of_not_high (isHigh_codes c.kioskUrl))

end Store

end HccastWired.Live.ConfigStore
