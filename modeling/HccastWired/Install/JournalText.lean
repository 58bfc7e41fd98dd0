import HccastWired.Install.Journal

/-!
# The text of a valid record

It needs no escapes, repeats no key and fits the bound of the journal.
-/

namespace HccastWired.Install

open Foundation

variable {r : Record} {e : Entry} {s : Snapshot} {i : FileIdentity}

theorem plainString_hash {digest : String} (h : hash digest = true) :
    Json.plainString digest = true := by
  obtain ⟨-, hall⟩ : digest.toList.length = 64 ∧ ∀ c ∈ digest.toList, c ∈ Sha256.hexDigits := by
    simpa [hash] using h
  have hplain : Sha256.hexDigits.all Json.plainChar = true := by decide +kernel
  rw [Json.plainString, List.all_eq_true]
  intro c hc
  exact List.all_eq_true.mp hplain c (hall c hc)

theorem Snapshot.Valid.plain_data (h : s.Valid) : Json.plainString s.data = true := by
  obtain ⟨data, -, hs⟩ := h.bytes
  have hplain : ('=' :: Base64.alphabet).all Json.plainChar = true := by decide +kernel
  rw [hs, Json.plainString, List.all_eq_true]
  intro c hc
  have hmem := Base64.mem_encode data c (by simpa [snapshot] using hc)
  exact List.all_eq_true.mp hplain c hmem

theorem plainString_keys : ∀ k ∈ ["data", "gid", "mode", "sha256", "uid", "applied", "before",
    "expected_before", "config_parent_was_absent", "conflicts", "intent", "phase",
    "schema_version", "targets"], Json.plainString k = true := by
  simp [Json.plainString, Json.plainChar]

theorem FileIdentity.Valid.plain (h : i.Valid) : i.toJson.plain = true := by
  have hkeys := plainString_keys
  simp only [List.forall_mem_cons] at hkeys
  simp [FileIdentity.toJson, Json.plain, Json.plainFields, hkeys, plainString_hash h.1]

theorem Snapshot.Valid.plain (h : s.Valid) : s.toJson.plain = true := by
  have hkeys := plainString_keys
  simp only [List.forall_mem_cons] at hkeys
  have hhash : Json.plainString s.sha256 = true := plainString_hash h.identity.1
  simp [Snapshot.toJson, Json.plain, Json.plainFields, hkeys, hhash, h.plain_data]

theorem optionalJson_plain {α : Type} {toJson : α → Json} {a : Option α}
    (h : ∀ b, a = some b → (toJson b).plain = true) : (optionalJson toJson a).plain = true := by
  cases a with
  | none => rfl
  | some b => exact h b rfl

theorem Entry.Valid.identity (h : e.Valid) : ∀ i, e.expectedBefore = some i → i.Valid := by
  intro i hi
  rw [h.expected] at hi
  obtain ⟨s, hs, rfl⟩ := Option.map_eq_some_iff.mp hi
  exact (h.before s hs).identity

theorem Entry.Valid.plain (h : e.Valid) : e.toJson.plain = true := by
  have hkeys := plainString_keys
  simp only [List.forall_mem_cons] at hkeys
  simp [Entry.toJson, Json.plain, Json.plainFields, hkeys,
    optionalJson_plain fun s hs => (h.before s hs).plain,
    optionalJson_plain fun s hs => (h.applied s hs).plain,
    optionalJson_plain fun i hi => (h.identity i hi).plain]

theorem plainFields_map {entries : List (Target × Entry)} (h : ∀ p ∈ entries, p.2.Valid) :
    Json.plainFields (entries.map fun e => (e.1.id, e.2.toJson)) = true := by
  induction entries with
  | nil => rfl
  | cons p rest ih =>
      obtain ⟨hp, hrest⟩ := List.forall_mem_cons.mp h
      have hid : ∀ t : Target, Json.plainString t.id = true := by
        intro t
        cases t <;> decide
      simp [Json.plainFields, hid, hp.plain, ih hrest]

theorem plainItems_map (ts : List Target) :
    Json.plainItems (ts.map fun t => .str t.id) = true := by
  induction ts with
  | nil => rfl
  | cons t rest ih =>
      have hid : Json.plainString t.id = true := by cases t <;> decide
      simp [Json.plainItems, Json.plain, hid, ih]

theorem Record.Valid.plain (h : r.Valid) : r.toJson.plain = true := by
  have hkeys := plainString_keys
  simp only [List.forall_mem_cons] at hkeys
  have hphase : Json.plainString r.phase.text = true := by cases r.phase <;> decide
  have hintent : Json.plainString r.intent.text = true := by cases r.intent <;> decide
  have htargets := plainFields_map fun p hp => h.entries p.1 p.2 (mem_entriesOf.mp hp)
  simp [Record.toJson, Json.plain, Json.plainFields, hkeys, hphase, hintent, htargets,
    plainItems_map]

theorem uniqueItems_map (ts : List Target) :
    Json.uniqueItems (ts.map fun t => .str t.id) = true := by
  induction ts with
  | nil => rfl
  | cons t rest ih => simp [Json.uniqueItems, Json.unique, ih]

theorem Entry.toJson_unique (e : Entry) : e.toJson.unique = true := by
  obtain ⟨before, applied, expected⟩ := e
  cases before <;> cases applied <;> cases expected <;>
    simp [Entry.toJson, optionalJson, Snapshot.toJson, FileIdentity.toJson, Json.unique,
      Json.uniqueFields]

theorem entriesOf_sublist (targets : Target → Option Entry) (ts : List Target) :
    ((ts.filterMap fun t => (targets t).map (Prod.mk t)).map Prod.fst).Sublist ts := by
  induction ts with
  | nil => exact List.Sublist.slnil
  | cons t rest ih =>
      cases ht : targets t with
      | none => simpa [List.filterMap_cons, ht] using ih.cons t
      | some e => simpa [List.filterMap_cons, ht] using ih

theorem Record.toJson_unique (r : Record) : r.toJson.unique = true := by
  have hids : ((entriesOf r.targets).map (Target.id ∘ Prod.fst)).Nodup := by
    have hsub := (entriesOf_sublist r.targets Target.all).map Target.id
    rw [List.map_map] at hsub
    exact hsub.nodup (by decide)
  have hfields : ∀ entries : List (Target × Entry),
      Json.uniqueFields (entries.map fun e => (e.1.id, e.2.toJson)) = true := by
    intro entries
    induction entries with
    | nil => rfl
    | cons p rest ih => simp [Json.uniqueFields, Entry.toJson_unique, ih]
  simp [Record.toJson, Json.unique, Json.uniqueFields, uniqueItems_map, hfields]
  exact hids

theorem dumpsInt_length {n : Int} (h : validInteger n maxGid = true) :
    (Json.dumpsInt n).length ≤ 10 := by
  obtain ⟨hzero, hmax⟩ : 0 ≤ n ∧ n ≤ maxGid := by simpa [validInteger] using h
  cases n with
  | ofNat n =>
      have hlt : n < 10 ^ 10 := by
        simp only [maxGid, Int.ofNat_eq_natCast] at hmax
        omega
      exact (Nat.length_toDigits_le_iff (by decide) (by decide)).mpr hlt
  | negSucc n => cases hzero

theorem dumpsString_length (text : String) :
    (Json.dumpsString text).length = text.toList.length + 2 := by
  simp [Json.dumpsString]

theorem hash_length {digest : String} (h : hash digest = true) : digest.toList.length = 64 := by
  obtain ⟨hlength, -⟩ : digest.toList.length = 64 ∧ ∀ c ∈ digest.toList, c ∈ Sha256.hexDigits := by
    simpa [hash] using h
  exact hlength

theorem keys_length : ∀ k ∈ ["data", "gid", "mode", "sha256", "uid", "applied", "before",
    "expected_before", "config_parent_was_absent", "conflicts", "intent", "phase",
    "schema_version", "targets"], k.toList.length ≤ 24 := by
  simp

theorem mode_integer {m : Int} (h : validMode m = true) : validInteger m maxGid = true := by
  have hle : 0 ≤ m ∧ m ≤ 511 := by
    simp only [validMode, validInteger, Bool.and_eq_true, decide_eq_true_eq] at h
    exact h.1
  simp only [validInteger, Bool.and_eq_true, decide_eq_true_eq]
  exact ⟨hle.1, Int.le_trans hle.2 (by decide)⟩

theorem FileIdentity.Valid.length (h : i.Valid) : i.toJson.dumps.length ≤ 300 := by
  have hkeys := keys_length
  simp only [List.forall_mem_cons] at hkeys
  have hhash := hash_length h.1
  have hmode := dumpsInt_length (mode_integer h.2.1)
  have hgroup := dumpsInt_length h.2.2.2
  have howner : (Json.dumpsInt i.uid).length = 1 := by
    rw [h.2.2.1]
    rfl
  simp only [FileIdentity.toJson, Json.dumps, Json.dumpsFields, List.length_cons,
    List.length_append, List.length_nil, dumpsString_length]
  omega

theorem Snapshot.Valid.length (h : s.Valid) : s.toJson.dumps.length ≤ 175164 := by
  have hkeys := keys_length
  simp only [List.forall_mem_cons] at hkeys
  have hhash := hash_length h.identity.1
  have hmode := dumpsInt_length (mode_integer h.mode)
  have hgroup := dumpsInt_length h.group
  have howner : (Json.dumpsInt s.uid).length = 1 := by
    rw [h.owner]
    rfl
  have hdata : s.data.toList.length ≤ 174764 := by
    obtain ⟨data, hlength, hs⟩ := h.bytes
    rw [hs]
    simp only [snapshot, String.toList_ofList, Base64.encode_length]
    unfold maxFileBytes at hlength
    omega
  simp only [Snapshot.identity] at hhash
  simp only [Snapshot.toJson, Json.dumps, Json.dumpsFields, List.length_cons,
    List.length_append, List.length_nil, dumpsString_length]
  omega

theorem Entry.Valid.length (h : e.Valid) : e.toJson.dumps.length ≤ 351000 := by
  have hkeys := keys_length
  simp only [List.forall_mem_cons] at hkeys
  have hoptional : ∀ a : Option Snapshot, (∀ s, a = some s → s.Valid) →
      (optionalJson Snapshot.toJson a).dumps.length ≤ 175164 := by
    rintro (_ | s) ha
    · decide
    · exact (ha s rfl).length
  have hexpected : (optionalJson FileIdentity.toJson e.expectedBefore).dumps.length ≤ 300 := by
    cases hi : e.expectedBefore with
    | none => decide
    | some i => exact (h.identity i hi).length
  have hbefore := hoptional e.before h.before
  have happlied := hoptional e.applied h.applied
  simp only [Entry.toJson, Json.dumps, Json.dumpsFields, List.length_cons,
    List.length_append, List.length_nil, dumpsString_length]
  omega

theorem id_length (t : Target) : t.id.toList.length ≤ 20 := by
  cases t <;> decide

theorem dumpsFields_length {entries : List (Target × Entry)} (h : ∀ p ∈ entries, p.2.Valid) :
    (Json.dumpsFields (entries.map fun e => (e.1.id, e.2.toJson))).length ≤
      1 + entries.length * 351024 := by
  induction entries with
  | nil => decide
  | cons p rest ih =>
      obtain ⟨hp, hrest⟩ := List.forall_mem_cons.mp h
      have hlength := hp.length
      have hrest := ih hrest
      have hid := id_length p.1
      simp only [List.map_cons, Json.dumpsFields, List.length_cons, List.length_append,
        dumpsString_length]
      omega

theorem dumpsItems_length (ts : List Target) :
    (Json.dumpsItems (ts.map fun t => .str t.id)).length ≤ 1 + ts.length * 23 := by
  induction ts with
  | nil => decide
  | cons t rest ih =>
      have hid := id_length t
      simp only [List.map_cons, Json.dumpsItems, Json.dumps, List.length_cons, List.length_append,
        dumpsString_length]
      omega

theorem obj_length (fields : List (String × Json)) :
    (Json.obj fields).dumps.length ≤ (Json.dumpsFields fields).length + 1 := by
  cases fields with
  | nil => decide
  | cons p rest => simp [Json.dumps, Json.dumpsFields]

theorem arr_length (items : List Json) :
    (Json.arr items).dumps.length ≤ (Json.dumpsItems items).length + 1 := by
  cases items with
  | nil => decide
  | cons p rest => simp [Json.dumps, Json.dumpsItems]

/-- A valid record fits the bound of the journal. -/
theorem Record.Valid.length (h : r.Valid) : r.text.length ≤ maxJournalBytes := by
  have hkeys := keys_length
  simp only [List.forall_mem_cons] at hkeys
  have hcount : (entriesOf r.targets).length ≤ 5 := by
    have hle := (entriesOf_sublist r.targets Target.all).length_le
    simpa [entriesOf, Target.all] using hle
  have hconflicts : r.conflicts.length ≤ 5 := by
    rw [h.sorted]
    exact Nat.le_trans (List.length_filter_le ..) (by decide)
  have htargets := Nat.le_trans (obj_length _) (Nat.succ_le_succ
    (dumpsFields_length fun p hp => h.entries p.1 p.2 (mem_entriesOf.mp hp)))
  have hitems := Nat.le_trans (arr_length _) (Nat.succ_le_succ (dumpsItems_length r.conflicts))
  have hphase : r.phase.text.toList.length ≤ 10 := by cases r.phase <;> decide
  have hintent : r.intent.text.toList.length ≤ 10 := by cases r.intent <;> decide
  have habsent : (Json.bool r.configParentWasAbsent).dumps.length ≤ 5 := by
    cases r.configParentWasAbsent <;> decide
  have hversion : (Json.dumpsInt 1).length = 1 := rfl
  have hone : (Json.int 1).dumps.length = 1 := by
    rw [Json.dumps]
    exact hversion
  have hstr : ∀ text : String, (Json.str text).dumps.length = text.toList.length + 2 := by
    intro text
    rw [Json.dumps, dumpsString_length]
  rw [Record.text, Record.toJson, Json.dumps]
  simp only [Json.dumpsFields, List.length_cons, List.length_append, List.length_nil,
    dumpsString_length, hone, hstr, maxJournalBytes]
  omega

end HccastWired.Install
