import HccastWired.Install.Snapshot

/-!
# The transaction journal

The record of one plan over the fixed targets, its text and the checks that a
record has to pass before it is saved and after it is loaded.
-/

namespace HccastWired.Install

open Foundation

inductive Target
  | enrollment
  | rescueBinding
  | stagedBusPolicy
  | stagedHelperUnit
  | stagedRescueUnit
deriving DecidableEq

namespace Target

/-- The targets, sorted by their identifiers. -/
def all : List Target :=
  [enrollment, rescueBinding, stagedBusPolicy, stagedHelperUnit, stagedRescueUnit]

def id : Target → String
  | enrollment => "enrollment"
  | rescueBinding => "rescue_binding"
  | stagedBusPolicy => "staged_bus_policy"
  | stagedHelperUnit => "staged_helper_unit"
  | stagedRescueUnit => "staged_rescue_unit"

def parent : Target → List String
  | enrollment | rescueBinding => ["etc", "panelbridge"]
  | stagedBusPolicy => ["etc", "dbus-1", "system.d"]
  | stagedHelperUnit | stagedRescueUnit => ["etc", "systemd", "system"]

def name : Target → String
  | enrollment => "enrollment.json"
  | rescueBinding => "rescue.json"
  | stagedBusPolicy => "org.panelbridge.Helper1.conf"
  | stagedHelperUnit => "panelbridge-helper.service"
  | stagedRescueUnit => "panelbridge-rescue.service"

def ofId (id : String) : Option Target :=
  all.find? fun t => t.id = id

/-- The targets below the configuration directory. -/
def isConfig (t : Target) : Bool :=
  t = enrollment || t = rescueBinding

theorem mem_all (t : Target) : t ∈ all := by
  cases t <;> decide

@[simp] theorem ofId_id (t : Target) : ofId t.id = some t := by
  cases t <;> decide

end Target

inductive Phase
  | prepared
  | applied
  | restoring
  | restored
  | conflict
deriving DecidableEq

def Phase.text : Phase → String
  | prepared => "prepared"
  | applied => "applied"
  | restoring => "restoring"
  | restored => "restored"
  | conflict => "conflict"

def Phase.ofText (text : String) : Option Phase :=
  [prepared, applied, restoring, restored, conflict].find? fun p => p.text = text

inductive Intent
  | apply
  | restore
deriving DecidableEq

def Intent.text : Intent → String
  | apply => "apply"
  | restore => "restore"

def Intent.ofText (text : String) : Option Intent :=
  [apply, restore].find? fun i => i.text = text

structure Entry where
  before : Option Snapshot
  applied : Option Snapshot
  expectedBefore : Option FileIdentity
deriving DecidableEq

structure Record where
  phase : Phase
  intent : Intent
  targets : Target → Option Entry
  conflicts : List Target
  configParentWasAbsent : Bool

section Text

def optionalJson {α : Type} (toJson : α → Json) : Option α → Json
  | none => .null
  | some a => toJson a

def Entry.toJson (e : Entry) : Json :=
  .obj [("applied", optionalJson Snapshot.toJson e.applied),
    ("before", optionalJson Snapshot.toJson e.before),
    ("expected_before", optionalJson FileIdentity.toJson e.expectedBefore)]

/-- The recorded entries, sorted by their targets. -/
def entriesOf (targets : Target → Option Entry) : List (Target × Entry) :=
  Target.all.filterMap fun t => (targets t).map (Prod.mk t)

/-- The dict, with its keys sorted. -/
def Record.toJson (r : Record) : Json :=
  .obj [("config_parent_was_absent", .bool r.configParentWasAbsent),
    ("conflicts", .arr (r.conflicts.map fun t => .str t.id)), ("intent", .str r.intent.text),
    ("phase", .str r.phase.text), ("schema_version", .int 1),
    ("targets", .obj ((entriesOf r.targets).map fun e => (e.1.id, e.2.toJson)))]

/-- The text that `_save` writes. -/
def Record.text (r : Record) : List Char :=
  r.toJson.dumps ++ ['\n']

end Text

section Validate

def validateExpected : Json → Except TransactionError (Option FileIdentity)
  | .null => .ok none
  | j => (validateIdentity j).map some

def validateEntry (j : Json) : Except TransactionError Entry :=
  match fieldsOf ["before", "applied", "expected_before"] j with
  | none => .error (.error "Invalid journal target")
  | some fields =>
      match fields.lookup "before", fields.lookup "applied", fields.lookup "expected_before" with
      | some before, some applied, some expected => do
          let before ← validateSnapshot before
          let applied ← validateSnapshot applied
          let expected ← validateExpected expected
          if before.map Snapshot.identity = expected then .ok ⟨before, applied, expected⟩
          else .error (.error "Original snapshot differs from explicit expectation")
      | _, _, _ => .error (.error "Invalid journal target")

def validateEntries : List (String × Json) → Except TransactionError (List (Target × Entry))
  | [] => .ok []
  | (id, j) :: rest =>
      match Target.ofId id with
      | none => .error (.error "Invalid file transaction journal")
      | some t => do
          let e ← validateEntry j
          let entries ← validateEntries rest
          .ok ((t, e) :: entries)

def textOf : Json → Option String
  | .str s => some s
  | _ => none

/-- The conflicts of the record are sorted recorded targets, and none repeats. -/
def validateConflicts (targets : List (String × Json)) (phase : Phase) :
    Json → Except TransactionError (List Target)
  | .arr items =>
      match (items.mapM textOf).bind fun ids => ids.mapM Target.ofId with
      | none => .error (.error "Invalid journal conflicts")
      | some conflicts =>
          if conflicts = Target.all.filter (· ∈ conflicts) ∧
              conflicts.all (fun t => t.id ∈ targets.map Prod.fst) ∧
              (conflicts ≠ [] ↔ phase = .conflict) then .ok conflicts
          else .error (.error "Invalid journal conflicts")
  | _ => .error (.error "Invalid journal conflicts")

/-- The phases that belong to one direction only. -/
def consistent (phase : Phase) (intent : Intent) : Bool :=
  match phase with
  | .prepared | .applied => intent = .apply
  | .restoring | .restored => intent = .restore
  | .conflict => true

def configEntries (entries : List (Target × Entry)) : List Entry :=
  (entries.filter fun e => e.1.isConfig).map Prod.snd

def validateRecord (j : Json) : Except TransactionError Record :=
  match fieldsOf ["schema_version", "phase", "intent", "targets", "conflicts",
    "config_parent_was_absent"] j with
  | none => .error (.error "Invalid file transaction journal")
  | some fields =>
      match fields.lookup "schema_version", (fields.lookup "phase").bind textOf,
        (fields.lookup "intent").bind textOf, fields.lookup "targets", fields.lookup "conflicts",
        fields.lookup "config_parent_was_absent" with
      | some (.int 1), some phase, some intent, some (.obj targets), some conflicts,
        some (.bool absent) =>
          match Phase.ofText phase, Intent.ofText intent with
          | some phase, some intent =>
              if targets = [] ∨ ¬ targets.all (fun e => (Target.ofId e.1).isSome) then
                .error (.error "Invalid file transaction journal")
              else if !consistent phase intent then .error (.error "Inconsistent journal intent")
              else do
                let conflicts ← validateConflicts targets phase conflicts
                let entries ← validateEntries targets
                let config := configEntries entries
                if absent ∧ (config = [] ∨ config.any fun e => e.before.isSome) then
                  .error (.error "Invalid original configuration directory state")
                else .ok ⟨phase, intent, fun t => entries.lookup t, conflicts, absent⟩
          | _, _ => .error (.error "Invalid file transaction journal")
      | _, _, _, _, _, _ => .error (.error "Invalid file transaction journal")

end Validate

section Valid

structure Entry.Valid (e : Entry) : Prop where
  before : ∀ s, e.before = some s → s.Valid
  applied : ∀ s, e.applied = some s → s.Valid
  expected : e.expectedBefore = e.before.map Snapshot.identity

structure Record.Valid (r : Record) : Prop where
  nonempty : ∃ t, (r.targets t).isSome = true
  consistent : consistent r.phase r.intent = true
  sorted : r.conflicts = Target.all.filter (· ∈ r.conflicts)
  known : ∀ t ∈ r.conflicts, (r.targets t).isSome = true
  conflicts : r.conflicts ≠ [] ↔ r.phase = .conflict
  entries : ∀ t e, r.targets t = some e → e.Valid
  config : r.configParentWasAbsent = true →
    (∃ t, t.isConfig = true ∧ (r.targets t).isSome = true) ∧
      ∀ t e, t.isConfig = true → r.targets t = some e → e.before = none

variable {r : Record} {e : Entry} {targets : Target → Option Entry} {t : Target}

theorem validateSnapshot_optional {s : Option Snapshot} (h : ∀ a, s = some a → a.Valid) :
    validateSnapshot (optionalJson Snapshot.toJson s) = .ok s := by
  cases s with
  | none => rfl
  | some a => exact validateSnapshot_toJson (h a rfl)

theorem validateExpected_optional {i : Option FileIdentity} (h : ∀ a, i = some a → a.Valid) :
    validateExpected (optionalJson FileIdentity.toJson i) = .ok i := by
  cases i with
  | none => rfl
  | some a =>
      have ha := validateIdentity_toJson (h a rfl)
      simp only [optionalJson, FileIdentity.toJson, validateExpected] at ha ⊢
      rw [ha]
      rfl

theorem validateEntry_toJson (h : e.Valid) : validateEntry e.toJson = .ok e := by
  have hexpected : ∀ i, e.expectedBefore = some i → i.Valid := by
    intro i hi
    rw [h.expected] at hi
    obtain ⟨s, hs, rfl⟩ := Option.map_eq_some_iff.mp hi
    exact (h.before s hs).identity
  simp only [validateEntry, Entry.toJson, fieldsOf]
  simp [List.lookup, validateSnapshot_optional h.before, validateSnapshot_optional h.applied,
    validateExpected_optional hexpected, bind, Except.bind, ← h.expected]

theorem mem_entriesOf {p : Target × Entry} : p ∈ entriesOf targets ↔ targets p.1 = some p.2 := by
  simp only [entriesOf, List.mem_filterMap, Option.map_eq_some_iff]
  constructor
  · rintro ⟨t, -, e, he, rfl⟩
    exact he
  · intro hp
    exact ⟨p.1, Target.mem_all p.1, p.2, hp, rfl⟩

theorem lookup_filterMap {ts : List Target} (ht : t ∈ ts) :
    (ts.filterMap fun t => (targets t).map (Prod.mk t)).lookup t = targets t := by
  induction ts with
  | nil => cases ht
  | cons u rest ih =>
      cases hu : targets u with
      | none =>
          simp only [List.filterMap_cons, hu, Option.map_none]
          rcases List.mem_cons.mp ht with rfl | hmem
          · rw [hu, List.lookup_eq_none_iff]
            rintro p hp
            obtain ⟨w, -, e, he, rfl⟩ : ∃ w, w ∈ rest ∧ ∃ e, targets w = some e ∧ (w, e) = p := by
              simpa [List.mem_filterMap, Option.map_eq_some_iff] using hp
            simp only [ne_eq, bne_iff_ne]
            rintro rfl
            rw [hu] at he
            cases he
          · exact ih hmem
      | some e =>
          simp only [List.filterMap_cons, hu, Option.map_some, List.lookup_cons]
          by_cases htu : t = u
          · subst htu
            simp [hu]
          · have hne : (t == u) = false := by simpa using htu
            rw [hne]
            exact ih ((List.mem_cons.mp ht).resolve_left htu)

theorem lookup_entriesOf : (entriesOf targets).lookup t = targets t :=
  lookup_filterMap (Target.mem_all t)

theorem validateEntries_map {entries : List (Target × Entry)} (h : ∀ p ∈ entries, p.2.Valid) :
    validateEntries (entries.map fun e => (e.1.id, e.2.toJson)) = .ok entries := by
  induction entries with
  | nil => rfl
  | cons p rest ih =>
      obtain ⟨hp, hrest⟩ := List.forall_mem_cons.mp h
      simp [validateEntries, validateEntry_toJson hp, ih hrest, bind, Except.bind]

theorem mapM_map_some {α β : Type} {g : β → α} {f : α → Option β} (h : ∀ b, f (g b) = some b)
    (l : List β) : (l.map g).mapM f = some l := by
  induction l with
  | nil => rfl
  | cons b rest ih => simp [h, ih]

theorem validateConflicts_map (hsorted : r.conflicts = Target.all.filter (· ∈ r.conflicts))
    (hknown : ∀ t ∈ r.conflicts, (r.targets t).isSome = true)
    (hphase : r.conflicts ≠ [] ↔ r.phase = .conflict) :
    validateConflicts ((entriesOf r.targets).map fun e => (e.1.id, e.2.toJson)) r.phase
      (.arr (r.conflicts.map fun t => .str t.id)) = .ok r.conflicts := by
  have htext : (r.conflicts.map fun t => Json.str t.id).mapM textOf =
      some (r.conflicts.map Target.id) := by
    have hmap : r.conflicts.map (fun t => Json.str t.id) = (r.conflicts.map Target.id).map .str :=
      (List.map_map ..).symm
    rw [hmap]
    exact mapM_map_some (g := Json.str) (f := textOf) (fun _ => rfl) _
  have hids : (r.conflicts.map Target.id).mapM Target.ofId = some r.conflicts :=
    mapM_map_some Target.ofId_id _
  have hall : r.conflicts.all (fun t => t.id ∈
      ((entriesOf r.targets).map fun e => (e.1.id, e.2.toJson)).map Prod.fst) = true := by
    rw [List.all_eq_true]
    intro t ht
    obtain ⟨e, he⟩ := Option.isSome_iff_exists.mp (hknown t ht)
    have hmem : (t, e) ∈ entriesOf r.targets := mem_entriesOf.mpr he
    simp only [List.map_map, decide_eq_true_eq]
    exact List.mem_map.mpr ⟨(t, e), hmem, rfl⟩
  simp only [validateConflicts, htext, hids, Option.bind_some]
  rw [if_pos ⟨hsorted, hall, hphase⟩]

theorem Phase.ofText_text (p : Phase) : Phase.ofText p.text = some p := by
  cases p <;> decide

theorem Intent.ofText_text (i : Intent) : Intent.ofText i.text = some i := by
  cases i <;> decide

/-- What a valid record is written as is read back as the same record. -/
theorem validateRecord_toJson (h : r.Valid) : validateRecord r.toJson = .ok r := by
  have hentries : ∀ p ∈ entriesOf r.targets, p.2.Valid := fun p hp =>
    h.entries p.1 p.2 (mem_entriesOf.mp hp)
  have hnonempty : (entriesOf r.targets).map (fun e => (e.1.id, e.2.toJson)) ≠ [] := by
    obtain ⟨t, ht⟩ := h.nonempty
    obtain ⟨e, he⟩ := Option.isSome_iff_exists.mp ht
    have hmem : (t, e) ∈ entriesOf r.targets := mem_entriesOf.mpr he
    simpa using List.ne_nil_of_mem hmem
  have hknown : ((entriesOf r.targets).map fun e => (e.1.id, e.2.toJson)).all
      (fun e => (Target.ofId e.1).isSome) = true := by
    simp
  have hconfig : r.configParentWasAbsent = true → ¬ configEntries (entriesOf r.targets) = [] ∧
      ∀ e ∈ configEntries (entriesOf r.targets), e.before = none := by
    intro habsent
    obtain ⟨⟨t, htc, ht⟩, hnone⟩ := h.config habsent
    obtain ⟨e, he⟩ := Option.isSome_iff_exists.mp ht
    constructor
    · refine List.ne_nil_of_mem (a := e) (List.mem_map.mpr ⟨(t, e), ?_, rfl⟩)
      exact List.mem_filter.mpr ⟨mem_entriesOf.mpr he, htc⟩
    · intro e' he'
      obtain ⟨⟨u, e''⟩, hu, rfl⟩ := List.mem_map.mp he'
      obtain ⟨hu, huc⟩ := List.mem_filter.mp hu
      exact hnone u e'' huc (mem_entriesOf.mp hu)
  have hconflicts := validateConflicts_map h.sorted h.known h.conflicts
  have hvalid := validateEntries_map hentries
  have htargets : (fun t => (entriesOf r.targets).lookup t) = r.targets :=
    funext fun t => lookup_entriesOf
  simp only [validateRecord, Record.toJson, fieldsOf]
  simp [List.lookup, textOf, Phase.ofText_text, Intent.ofText_text, hnonempty, hknown,
    h.consistent, hconflicts, hvalid, htargets, bind, Except.bind]
  exact hconfig

end Valid

end HccastWired.Install
