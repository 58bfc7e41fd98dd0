import HccastWired.Install.Recovery

/-!
# Crash safety of install transactions

Over every run of interrupted calls: each target is its original or what the
plan makes of it, a call that goes through still does after an interruption, and
a completed one leaves all targets planned, or all targets original.
-/

namespace HccastWired.Install

open Foundation

variable {offers : Changes → Prop} {d₀ d d' : Disk} {r : Record} {t : Target} {c : Changes}
  {changes : Option Changes} {s : Summary}

def FileChange.file (c : FileChange) : Option File :=
  c.data.map fun data => .regular data c.mode processUid (c.gid.getD processGid) 1

/-- What the plan makes of a target. -/
def plannedFile (c : Changes) (d₀ : Disk) (t : Target) : Option File :=
  match c t with
  | none => d₀.node t
  | some change => change.file

/-- Run to its end, the call returns in a state that meets the condition. -/
def Returns {α : Type} (x : Transaction α) (d : Disk) (P : Disk → Prop) : Prop :=
  ∃ a, (x d).1 = .ok a ∧ P (x.final d)

/-- The plans that calls offer. -/
def Offers (offers : Changes → Prop) : Disk → InstallAction → Prop
  | _, .apply (some c) _ => offers c
  | _, _ => True

section Runs

/-- An entry of the record is the plan's change of its target. -/
theorem planned_file (hc : normalize c = .ok r.planned) (t : Target) :
    (r.targets t = none ∧ plannedFile c d₀ t = d₀.node t) ∨
      ∃ e, r.targets t = some e ∧ fileOf e.applied = plannedFile c d₀ t := by
  have hp := (normalize_planned hc).1 t
  cases hct : c t with
  | none =>
      simp only [PlannedAs, hct, Record.planned, Option.map_eq_none_iff] at hp
      exact Or.inl ⟨hp, by rw [plannedFile, hct]⟩
  | some change =>
      simp only [PlannedAs, hct, Record.planned, Option.map_eq_some_iff] at hp
      obtain ⟨p, ⟨e, he, rfl⟩, haccepted⟩ := hp
      refine Or.inr ⟨e, he, ?_⟩
      have happlied : e.applied = _ := haccepted.applied
      rw [happlied, plannedFile, hct]
      cases hdata : change.data with
      | none => simp [FileChange.file, hdata, fileOf]
      | some data => simp [FileChange.file, hdata]

theorem Recorded.node (h : Recorded offers d₀ d r) (hc : normalize c = .ok r.planned) (t : Target) :
    d.node t = d₀.node t ∨ d.node t = plannedFile c d₀ t := by
  rcases h.target t with hnode | ⟨e, he, hnode⟩
  · exact Or.inl hnode
  · rcases @planned_file d₀ r c hc t with ⟨hnone, -⟩ | ⟨e', he', hfile⟩
    · rw [hnone] at he
      cases he
    · rw [he] at he'
      cases he'
      exact Or.inr (hnode.trans hfile)

theorem Completed.node (h : Completed offers d₀ r .apply d) (hc : normalize c = .ok r.planned)
    (t : Target) : d.node t = plannedFile c d₀ t := by
  rcases @planned_file d₀ r c hc t with ⟨hnone, hfile⟩ | ⟨e, he, hfile⟩
  · rcases h.recorded.target t with hnode | ⟨e, he, -⟩
    · exact hnode.trans hfile.symm
    · have he : r.targets t = some e := he
      rw [hnone] at he
      cases he
  · exact (h.done t e he).trans hfile

/-- An interrupted call can be run again, to the end it would have had. -/
theorem apply_again (h : Recoverable offers d₀ d) (hoffer : ∀ c, changes = some c → offers c)
    (hok : (apply changes d).1 = .ok s) :
    ∃ c, offers c ∧ (∀ c', changes = some c' → c' = c) ∧ ∀ updates,
      Returns (apply changes) ((apply changes).upTo updates d)
        fun d' => ∀ t, d'.node t = plannedFile c d₀ t := by
  obtain ⟨r, happlicable, hdone⟩ := (wp_apply h hoffer).ok hok
  have hplan : ∃ c, offers c ∧ (∀ c', changes = some c' → c' = c) ∧
      normalize c = .ok r.planned := by
    cases hchanges : changes with
    | some c =>
        refine ⟨c, hoffer c hchanges, fun c' hc => (Option.some.inj hc).symm, ?_⟩
        exact happlicable.1 c hchanges
    | none =>
        obtain ⟨c, hc, hnormal⟩ := hdone.recorded.plan
        exact ⟨c, hc, fun c' hc' => (by cases hc'), hnormal⟩
  obtain ⟨c, hc, hgiven, hnormal⟩ := hplan
  refine ⟨c, hc, hgiven, fun updates => ?_⟩
  obtain ⟨hrecoverable, hkept⟩ := (wp_apply h hoffer).upTo ⟨h, fun _ => id⟩ updates
  have hagain := wp_apply hrecoverable hoffer
  cases hvalue : (apply changes ((apply changes).upTo updates d)).1 with
  | error e => exact absurd (hkept _ happlicable) ((hagain.failed hvalue).2 _)
  | ok s' =>
      obtain ⟨r', happlicable', hdone'⟩ := hagain.ok hvalue
      have hsame := happlicable'.unique (hkept _ happlicable)
      exact ⟨s', hvalue, fun t => hdone'.node (hsame ▸ hnormal) t⟩

theorem restore_again (h : Recoverable offers d₀ d) (hok : (restore d).1 = .ok s) (updates : Nat) :
    Returns restore (restore.upTo updates d) fun d' => ∀ t, d'.node t = d₀.node t := by
  obtain ⟨hrecoverable, hidle, hkept⟩ :=
    (wp_restore h).upTo ⟨h, fun _ => rfl, fun hsome => hsome⟩ updates
  have hagain := wp_restore hrecoverable
  cases hvalue : (restore (restore.upTo updates d)).1 with
  | ok s' => exact ⟨s', hvalue, (hagain.ok hvalue).2⟩
  | error e =>
      obtain ⟨-, hnone⟩ := hagain.failed hvalue
      by_cases hj : d.file journalParent journalName = none
      · rw [hidle hj, hok] at hvalue
        cases hvalue
      · exact absurd hnone (hkept hj)

theorem recoverable_step {a : InstallAction} (h : Recoverable offers d₀ d)
    (hoffer : Offers offers d a) (hv : installSystem.step d a = some d') :
    Recoverable offers d₀ d' := by
  cases a with
  | apply changes updates =>
      cases hv
      refine ((wp_apply h fun c hc => ?_).upTo ⟨h, fun _ => id⟩ updates).1
      subst hc
      exact hoffer
  | restore updates =>
      cases hv
      exact ((wp_restore h).upTo ⟨h, fun _ => rfl, id⟩ updates).1

theorem recoverable_reaches (hparents : Parents d₀)
    (hnew : d₀.file journalParent journalName = none)
    (run : installSystem.Reaches (Offers offers) d₀ d) : Recoverable offers d₀ d := by
  refine run.invariant (P := Recoverable offers d₀) (fun _ _ _ h => recoverable_step h) ?_
  exact Idle.recoverable ⟨hparents, hnew, fun _ => rfl⟩

end Runs

section CrashSafety

theorem load_journaled (h : Recorded offers d₀ d r) (hj : Journaled d r) :
    (load journalParent d).1 = .ok (some (r, journalSnapshot r)) := by
  have hload : (load journalParent).wp (fun _ => True)
      (fun a _ => a = some (r, journalSnapshot r)) (fun _ _ => False) d :=
    wp_load h.valid hj rfl
  obtain ⟨a, ha, hr⟩ := hload.returns
  rw [ha, hr]

/-- The state after every run of interrupted calls on disks without a journal. -/
theorem install_crash_safe (hparents : Parents d₀)
    (hnew : d₀.file journalParent journalName = none)
    (run : installSystem.Reaches (Offers offers) d₀ d) :
    ((d.file journalParent journalName = none ∧ ∀ t, d.node t = d₀.node t) ∨
      ∃ r s c, (load journalParent d).1 = .ok (some (r, s)) ∧ offers c ∧
        normalize c = .ok r.planned ∧
        (∀ t e, r.targets t = some e → fileOf e.before = d₀.node t) ∧
        (∀ t, d.node t = d₀.node t ∨ d.node t = plannedFile c d₀ t) ∧
        Returns restore d (fun d' => ∀ t, d'.node t = d₀.node t) ∧
        (r.intent = .apply ∨ r.phase = .restored →
          Returns (apply none) d (fun d' => ∀ t, d'.node t = plannedFile c d₀ t) ∧
          Returns (apply (some c)) d fun d' => ∀ t, d'.node t = plannedFile c d₀ t)) ∧
    (∀ changes s, (∀ c, changes = some c → offers c) → (apply changes d).1 = .ok s →
      ∃ c, offers c ∧ (∀ c', changes = some c' → c' = c) ∧ ∀ updates,
        Returns (apply changes) ((apply changes).upTo updates d)
          fun d' => ∀ t, d'.node t = plannedFile c d₀ t) ∧
    ∀ s, (restore d).1 = .ok s → ∀ updates,
      Returns restore (restore.upTo updates d) fun d' => ∀ t, d'.node t = d₀.node t := by
  have h := recoverable_reaches hparents hnew run
  refine ⟨?_, fun changes s hoffer hok => apply_again h hoffer hok,
    fun s hok updates => restore_again h hok updates⟩
  rcases h.cases with hidle | ⟨r, hrecorded, hj⟩
  · exact Or.inl ⟨hidle.journal, hidle.nodes⟩
  · obtain ⟨c, hc, hnormal⟩ := hrecorded.plan
    have hrestore := wp_restore h
    have happly : ∀ changes : Option Changes, (∀ c', changes = some c' → c' = c) → Forward r →
        Returns (apply changes) d fun d' => ∀ t, d'.node t = plannedFile c d₀ t := by
      intro changes hgiven hforward
      have happlicable : Applicable offers d₀ changes r.planned d :=
        ⟨fun c' hc' => hgiven c' hc' ▸ hnormal, Or.inr ⟨r, hrecorded, hj, hforward, rfl⟩⟩
      have hwp := wp_apply h fun c' hc' => hgiven c' hc' ▸ hc
      cases hvalue : (apply changes d).1 with
      | error e => exact absurd happlicable ((hwp.failed hvalue).2 _)
      | ok s =>
          obtain ⟨r', happlicable', hdone⟩ := hwp.ok hvalue
          exact ⟨s, hvalue, fun t => hdone.node (happlicable'.unique happlicable ▸ hnormal) t⟩
    refine Or.inr ⟨r, _, c, load_journaled hrecorded hj, hc, hnormal, hrecorded.original,
      hrecorded.node hnormal, ?_, fun hforward => ⟨happly none (by simp) hforward,
        happly (some c) (by simp) hforward⟩⟩
    cases hvalue : (restore d).1 with
    | ok s => exact ⟨s, hvalue, (hrestore.ok hvalue).2⟩
    | error e =>
        have hnone := (hrestore.failed hvalue).2
        rw [hj] at hnone
        simp [journalSnapshot] at hnone

/-- A new system with one unit in place. -/
def freshDisk : Disk where
  dirs path :=
    if path ∈ fixedParents then
      some (.directory 0o755 processUid fun name =>
        if path = ["etc", "systemd", "system"] ∧ name = "panelbridge-rescue.service" then
          some (.regular [91] 0o644 processUid processGid 1)
        else none)
    else none

/-- Write one file and remove another. -/
def samplePlan : Changes
  | .enrollment => some ⟨some [123, 125], 0o640, some 7, none⟩
  | .stagedRescueUnit =>
      some ⟨none, 0o600, none, some (snapshot [91] 0o644 processUid processGid).identity⟩
  | _ => none

theorem freshDisk_parents : Parents freshDisk := by
  constructor
  · intro path hpath
    exact ⟨0o755, processUid, _, if_pos hpath, by decide⟩
  · intro path mode hmode
    refine Or.inl (if_neg ?_)
    unfold creatable at hmode
    split at hmode
    · next h =>
      rw [h]
      decide +kernel
    · split at hmode
      · next h =>
        rw [h]
        decide +kernel
      · cases hmode

theorem freshDisk_node (t : Target) : freshDisk.node t =
    if t = .stagedRescueUnit then some (.regular [91] 0o644 processUid processGid 1) else none := by
  cases t <;> rfl

theorem freshDisk_journal (name : String) : freshDisk.file journalParent name = none := by
  have hnot : journalParent ∉ fixedParents := by decide +kernel
  have hdir : freshDisk.dirs journalParent = none := by simp [freshDisk, hnot]
  simp [Disk.file, hdir]

theorem snapshot_valid {data : Bytes} {m g : Int} (hdata : data.length ≤ maxFileBytes)
    (hmode : validMode m = true) (hgid : validInteger g maxGid = true) :
    (snapshot data m processUid g).Valid :=
  ⟨⟨data, hdata, rfl⟩, hmode, rfl, hgid⟩

/-- What the journal records of the sample plan. -/
def sampleRecorded : Target → Option Planned :=
  Function.update (Function.update (fun _ => none) .stagedRescueUnit
    (some ⟨some (snapshot [91] 0o644 processUid processGid).identity, none⟩)) .enrollment
      (some ⟨none, some (snapshot [123, 125] 0o640 processUid 7)⟩)

theorem samplePlan_normal : normalize samplePlan = .ok sampleRecorded := by
  have hidentity := validateIdentity_toJson
    (@snapshot_valid [91] 0o644 processGid (by decide) (by decide) (by decide)).identity
  have hnew : FileChange.normalize ⟨some [123, 125], 0o640, some 7, none⟩ =
      .ok ⟨none, some (snapshot [123, 125] 0o640 processUid 7)⟩ := by
    rfl
  have hremoved : FileChange.normalize
      ⟨none, 0o600, none, some (snapshot [91] 0o644 processUid processGid).identity⟩ =
      .ok ⟨some (snapshot [91] 0o644 processUid processGid).identity, none⟩ := by
    rw [FileChange.normalize]
    simp only [hidentity]
    rfl
  have hsome : Target.all.all (fun t => (samplePlan t).isNone) = false := by decide
  rw [normalize, hsome]
  simp only [Bool.false_eq_true, if_false, Target.all, normalizeAll, samplePlan, hnew, hremoved,
    bind, Except.bind]
  rfl

theorem freshDisk_expected : Expected freshDisk sampleRecorded := by
  intro t ht
  have hstate : ∀ t, stateOf freshDisk t = .ok (if t = .stagedRescueUnit then
      some (snapshot [91] 0o644 processUid processGid) else none) := by
    intro t
    rw [stateOf, freshDisk_node]
    cases t <;> rfl
  rw [currentOf_ok (hstate t)]
  refine ⟨hstate t, ?_⟩
  cases t with
  | enrollment => rfl
  | stagedRescueUnit => rfl
  | _ => rfl

theorem sample_recoverable : Recoverable (fun c => c = samplePlan) freshDisk freshDisk :=
  Idle.recoverable ⟨freshDisk_parents, freshDisk_journal _, fun _ => rfl⟩

theorem sample_applicable : Applicable (fun c => c = samplePlan) freshDisk (some samplePlan)
    sampleRecorded freshDisk := by
  constructor
  · intro c hc
    obtain rfl := Option.some.inj hc
    exact samplePlan_normal
  · refine Or.inl ⟨⟨freshDisk_parents, freshDisk_journal _, fun _ => rfl⟩, ?_, by simp,
      freshDisk_expected⟩
    intro e he
    rw [freshDisk_journal] at he
    cases he

/-- On the new system the sample plan goes through. -/
theorem sample_applied : ∃ s r, (apply (some samplePlan) freshDisk).1 = .ok s ∧
    r.planned = sampleRecorded ∧ Completed (fun c => c = samplePlan) freshDisk r .apply
      ((apply (some samplePlan)).final freshDisk) := by
  have hoffer : ∀ c, some samplePlan = some c → c = samplePlan := fun c hc =>
    (Option.some.inj hc).symm
  have hwp := wp_apply sample_recoverable hoffer
  cases hvalue : (apply (some samplePlan) freshDisk).1 with
  | error e => exact absurd sample_applicable ((hwp.failed hvalue).2 _)
  | ok s =>
      obtain ⟨r, happlicable, hdone⟩ := hwp.ok hvalue
      exact ⟨s, r, rfl, happlicable.unique sample_applicable, hdone⟩

/-- The sample plan is applied from wherever it was interrupted, and reversed. -/
theorem install_crash_safe_sample : ∃ s, (apply (some samplePlan) freshDisk).1 = .ok s ∧
    (∀ updates, Returns (apply (some samplePlan))
      ((apply (some samplePlan)).upTo updates freshDisk) fun d =>
        d.node .enrollment = some (.regular [123, 125] 0o640 processUid 7 1) ∧
          d.node .stagedRescueUnit = none) ∧
    Returns restore ((apply (some samplePlan)).final freshDisk) fun d =>
      d.node .enrollment = none ∧
        d.node .stagedRescueUnit = some (.regular [91] 0o644 processUid processGid 1) := by
  obtain ⟨s, r, hvalue, -⟩ := sample_applied
  have hoffer : ∀ c, some samplePlan = some c → c = samplePlan := fun c hc =>
    (Option.some.inj hc).symm
  obtain ⟨c, rfl, -, hreturns⟩ := (install_crash_safe freshDisk_parents
    (freshDisk_journal _) .refl).2.1 (some samplePlan) s hoffer hvalue
  refine ⟨s, hvalue, fun updates => ?_, ?_⟩
  · obtain ⟨a, ha, hnodes⟩ := hreturns updates
    exact ⟨a, ha, hnodes .enrollment, hnodes .stagedRescueUnit⟩
  · have run : installSystem.Reaches (Offers fun c => c = samplePlan) freshDisk
        ((apply (some samplePlan)).final freshDisk) := by
      refine .single ⟨.apply (some samplePlan) (apply (some samplePlan) freshDisk).2.length, rfl, ?_⟩
      exact congrArg some (Call.upTo_of_length_le (Nat.le_refl _))
    rcases (install_crash_safe freshDisk_parents (freshDisk_journal _) run).1 with
      ⟨-, horiginal⟩ | ⟨r, s, c, -, -, -, -, -, hrestore, -⟩
    · obtain ⟨a, -, hnodes⟩ := hreturns 0
      have hplanned : ((apply (some samplePlan)).final freshDisk).node .enrollment =
          plannedFile samplePlan freshDisk .enrollment := hnodes .enrollment
      rw [horiginal] at hplanned
      cases hplanned
    · obtain ⟨a, ha, hnodes⟩ := hrestore
      exact ⟨a, ha, hnodes .enrollment, hnodes .stagedRescueUnit⟩

end CrashSafety

end HccastWired.Install
