import HccastWired.Install.CrashSafety

/-!
# Outside edits between the calls

Somebody else may change the targets between two calls. A call that meets a
target it knows neither as the original nor as the planned one leaves every
target alone, and goes through once the edit has been undone.
-/

namespace HccastWired.Install

open Foundation

variable {d d' : Disk} {r r' : Record} {t : Target} {e : Entry} {changes : Option Changes}
  {crash : Disk → Prop} {fail : TransactionError → Disk → Prop} {intent : Intent}

section Edits

/-- An edit of the targets. The directories stay what they are, but for the
configuration directory, which may appear or go with its files. -/
structure Edits (d d' : Disk) : Prop where
  parents : Parents d'
  journal : d'.dirs journalParent = d.dirs journalParent
  config : ∀ mode uid files, d'.dirs configParent = some (.directory mode uid files) →
    mode = 0o755 ∨ ∃ files', d.dirs configParent = some (.directory mode uid files')

inductive EditAction
  | call (a : InstallAction)
  | edit (d' : Disk)

/-- Interrupted calls, with edits between them. -/
def editedSystem : System Disk EditAction where
  step
    | d, .call a => installSystem.step d a
    | _, .edit d' => some d'

/-- The only restriction is on what an edit is. -/
def Outside : Disk → EditAction → Prop
  | d, .edit d' => Edits d d'
  | _, .call _ => True

/-- The target is neither its recorded original nor the planned one. -/
def Foreign (r : Record) (d : Disk) (t : Target) : Prop :=
  ∃ e, r.targets t = some e ∧ d.node t ≠ fileOf e.before ∧ d.node t ≠ fileOf e.applied

/-- Every recorded target is absent or a file that the calls trust. -/
def Readable (r : Record) (d : Disk) : Prop :=
  ∀ t ∈ targetsOf r.targets, ∃ s, readFile (d.node t) maxFileBytes false = .ok s

/-- The call of a direction. -/
def call (changes : Option Changes) : Intent → Transaction Summary
  | .apply => apply changes
  | .restore => restore

/-- The record lets the call go on: a plan has to be the saved one, and a begun
restoration complete. -/
def Accepts (changes : Option Changes) (r : Record) : Intent → Prop
  | .apply => Forward r ∧ ∀ c, changes = some c → normalize c = .ok r.planned
  | .restore => True

end Edits

section Kept

/-- The journal holds a valid record of a plan, whatever stands at the targets. -/
structure Kept (d : Disk) (r : Record) : Prop where
  parents : Parents d
  valid : r.Valid
  journalDir : Trusted d journalParent
  lock : LockHeld d
  plan : ∃ changes, normalize changes = .ok r.planned
  config : r.configParentWasAbsent = true → ∀ mode uid files,
    d.dirs configParent = some (.directory mode uid files) → mode = 0o755
  journal : Journaled d r

/-- The state between two calls: no journal yet, or the record of a plan. -/
def Tracked (d : Disk) : Prop :=
  (Parents d ∧ d.file journalParent journalName = none) ∨ ∃ r, Kept d r

theorem Recorded.kept {offers : Changes → Prop} {d₀ : Disk} (h : Recorded offers d₀ d r)
    (hj : Journaled d r) : Kept d r where
  parents := h.parents
  valid := h.valid
  journalDir := h.journalDir
  lock := h.lock
  plan := by
    obtain ⟨changes, -, hplan⟩ := h.plan
    exact ⟨changes, hplan⟩
  config := h.config
  journal := hj

theorem Recoverable.tracked {offers : Changes → Prop} {d₀ : Disk} (h : Recoverable offers d₀ d) :
    Tracked d := by
  rcases h.cases with hidle | ⟨r, hrecorded, hj⟩
  · exact Or.inl ⟨hidle.parents, hidle.journal⟩
  · exact Or.inr ⟨r, hrecorded.kept hj⟩

theorem Edits.file (h : Edits d d') (name : String) :
    d'.file journalParent name = d.file journalParent name := by
  rw [Disk.file, h.journal, Disk.file]

theorem Kept.edited (h : Kept d r) (hedit : Edits d d') : Kept d' r where
  parents := hedit.parents
  valid := h.valid
  journalDir := by
    obtain ⟨mode, uid, files, hdir, htrusted⟩ := h.journalDir
    exact ⟨mode, uid, files, hedit.journal.trans hdir, htrusted⟩
  lock := by
    rw [LockHeld, hedit.file]
    exact h.lock
  plan := h.plan
  config habsent mode uid files hdir := by
    rcases hedit.config mode uid files hdir with hmode | ⟨files', hold⟩
    · exact hmode
    · exact h.config habsent mode uid files' hold
  journal := (hedit.file _).trans h.journal

theorem Tracked.edited (h : Tracked d) (hedit : Edits d d') : Tracked d' := by
  rcases h with ⟨-, hnone⟩ | ⟨r, hkept⟩
  · exact Or.inl ⟨hedit.parents, (hedit.file _).trans hnone⟩
  · exact Or.inr ⟨r, hkept.edited hedit⟩

theorem Kept.load (h : Kept d r) : (load journalParent d).1 = .ok (some (r, journalSnapshot r)) := by
  have hload : (Install.load journalParent).wp (fun _ => True)
      (fun a _ => a = some (r, journalSnapshot r)) (fun _ _ => False) d :=
    wp_load h.valid h.journal rfl
  obtain ⟨a, ha, hr⟩ := hload.returns
  rw [ha, hr]

/-- The record that is loaded is the tracked one. -/
theorem Tracked.kept {s : Snapshot} (h : Tracked d)
    (hload : (load journalParent d).1 = .ok (some (r, s))) : Kept d r := by
  rcases h with ⟨-, hnone⟩ | ⟨r', hkept⟩
  · have hwp : (Install.load journalParent).wp (fun _ => True) (fun a _ => a = none)
        (fun _ _ => False) d := wp_load_none hnone rfl
    obtain ⟨a, ha, rfl⟩ := hwp.returns
    rw [ha] at hload
    cases hload
  · rw [hkept.load] at hload
    cases hload
    exact hkept

end Kept

section Conflict

/-- The record of a call that met these targets. -/
def Record.inConflict (r : Record) (intent : Intent) (conflicts : List Target) : Record :=
  { r with intent := intent, conflicts := conflicts, phase := .conflict }

theorem Readable.current (h : Readable r d) (ht : t ∈ targetsOf r.targets) :
    stateOf d t = .ok (currentOf d t) := by
  obtain ⟨s, hs⟩ := h t ht
  have hs : stateOf d t = .ok s := hs
  rw [hs, currentOf_ok hs]

/-- A target that can be read is a recorded state exactly if its file is. -/
theorem current_eq_iff (hread : stateOf d t = .ok (currentOf d t)) {s : Option Snapshot}
    (hs : ∀ a, s = some a → a.Valid) : currentOf d t = s ↔ d.node t = fileOf s := by
  constructor
  · intro h
    rw [← h]
    exact (readFile_ok hread).1
  · intro h
    refine currentOf_ok ?_
    rw [stateOf, h]
    exact readFile_fileOf hs

theorem conflictsOf_eq (ts : List Target) :
    conflictsOf r (ts.map fun t => (t, currentOf d t)) = ts.filter fun t =>
      !(r.targets t).any fun e => currentOf d t = e.before || currentOf d t = e.applied := by
  induction ts with
  | nil => rfl
  | cons t rest ih =>
      simp only [conflictsOf, List.map_cons, List.filter_cons] at ih ⊢
      split
      · rw [List.map_cons, ih]
      · exact ih

theorem mem_conflictsOf (h : r.Valid) (hread : Readable r d) :
    t ∈ conflictsOf r ((targetsOf r.targets).map fun t => (t, currentOf d t)) ↔
      Foreign r d t := by
  rw [conflictsOf_eq, List.mem_filter]
  constructor
  · rintro ⟨ht, hforeign⟩
    obtain ⟨e, he⟩ := mem_targetsOf.mp ht
    have hvalid := h.entries t e he
    simp only [he, Option.any_some, Bool.not_eq_true', Bool.or_eq_false_iff,
      decide_eq_false_iff_not] at hforeign
    rw [current_eq_iff (hread.current ht) hvalid.before,
      current_eq_iff (hread.current ht) hvalid.applied] at hforeign
    exact ⟨e, he, hforeign⟩
  · rintro ⟨e, he, hbefore, happlied⟩
    have ht : t ∈ targetsOf r.targets := mem_targetsOf.mpr ⟨e, he⟩
    have hvalid := h.entries t e he
    refine ⟨ht, ?_⟩
    simp only [he, Option.any_some, Bool.not_eq_true', Bool.or_eq_false_iff,
      decide_eq_false_iff_not]
    rw [current_eq_iff (hread.current ht) hvalid.before,
      current_eq_iff (hread.current ht) hvalid.applied]
    exact ⟨hbefore, happlied⟩

theorem inConflict_valid {conflicts : List Target} (h : r.Valid) (hsome : conflicts ≠ [])
    (hsorted : conflicts = Target.all.filter (· ∈ conflicts))
    (hknown : ∀ t ∈ conflicts, (r.targets t).isSome = true) :
    (r.inConflict intent conflicts).Valid where
  nonempty := h.nonempty
  consistent := rfl
  sorted := hsorted
  known := hknown
  conflicts := by simp [Record.inConflict, hsome]
  entries := h.entries
  config := h.config

theorem Kept.inConflict (h : Kept d r) (hread : Readable r d) (hforeign : ∃ t, Foreign r d t) :
    (r.inConflict intent
      (conflictsOf r ((targetsOf r.targets).map fun t => (t, currentOf d t)))).Valid := by
  obtain ⟨t, ht⟩ := hforeign
  refine inConflict_valid h.valid ?_ ?_ ?_
  · exact List.ne_nil_of_mem ((mem_conflictsOf h.valid hread).mpr ht)
  · rw [conflictsOf_eq, targetsOf, List.filter_filter]
    refine List.filter_congr fun u _ => ?_
    simp [List.mem_filter, Target.mem_all]
  · intro u hu
    obtain ⟨e, he, -⟩ := (mem_conflictsOf h.valid hread).mp hu
    rw [he]
    rfl

/-- What a conflicting call leaves: the same disk, with the conflict in its journal. -/
structure Conflicted (d : Disk) (r : Record) (intent : Intent) (d' : Disk) (r' : Record) :
    Prop where
  kept : Kept d' r'
  nodes : ∀ t, d'.node t = d.node t
  targets : r'.targets = r.targets
  phase : r'.phase = .conflict
  direction : r'.intent = intent
  conflicts : ∀ t, t ∈ r'.conflicts ↔ Foreign r d t

theorem Kept.put_journal (h : Kept d r) (hvalid : r'.Valid) (hplan : r'.planned = r.planned)
    (habsent : r'.configParentWasAbsent = r.configParentWasAbsent) :
    Kept (d.put journalParent journalName (fileOf (some (journalSnapshot r')))) r' where
  parents := h.parents.put _
  valid := hvalid
  journalDir := h.journalDir.put _
  lock := by
    rw [LockHeld, file_put_ne (Or.inr (by decide +kernel))]
    exact h.lock
  plan := hplan ▸ h.plan
  config hset mode uid files hdir := by
    obtain ⟨files', hold⟩ := put_config hdir
    exact h.config (habsent ▸ hset) mode uid files' hold
  journal := h.journalDir.file_put

/-- With a foreign target, the run only writes the conflict down. -/
theorem wp_run_conflict {post : Summary → Disk → Prop} (h : Kept d r) (hread : Readable r d)
    (hforeign : ∃ t, Foreign r d t)
    (hcrash : ∀ d' r', Conflicted d r intent d' r' → crash d')
    (hfail : ∀ d' r', Conflicted d r intent d' r' →
      fail (.conflict (r'.conflicts.map Target.id)) d') :
    (run journalParent r (some (journalSnapshot r)) intent).wp crash post fail d := by
  have hvalid := @Kept.inConflict d r intent h hread hforeign
  have hmem : ∀ t, t ∈ conflictsOf r ((targetsOf r.targets).map fun t => (t, currentOf d t)) ↔
      Foreign r d t := fun t => mem_conflictsOf h.valid hread
  simp only [run, Call.wp_bind]
  refine wp_states h.parents _ (fun t ht error herror => ?_) fun _ => ?_
  · rw [hread.current ht] at herror
    cases herror
  generalize conflictsOf r ((targetsOf r.targets).map fun t => (t, currentOf d t)) = conflicts
    at hvalid hmem ⊢
  have hsome : conflicts ≠ [] := by
    obtain ⟨t, ht⟩ := hforeign
    exact List.ne_nil_of_mem ((hmem t).mpr ht)
  simp only [if_pos hsome]
  refine wp_save hvalid (h.journal ▸ readFile_journal h.valid) (fun hsame => ?_) ?_
  · -- the same conflict is in the journal already
    have hj : Journaled d (r.inConflict intent conflicts) := by
      rw [Journaled, h.journal, hsame]
      rfl
    have hkept : Kept d (r.inConflict intent conflicts) := by
      rw [← h.journal.unique h.valid hvalid hj]
      exact h
    exact (Call.wp_throw _).mpr (hfail d _ ⟨hkept, fun _ => rfl, rfl, rfl, rfl, hmem⟩)
  · have hconflicted : Conflicted d r intent (d.put journalParent journalName
        (fileOf (some (journalSnapshot (r.inConflict intent conflicts)))))
          (r.inConflict intent conflicts) :=
      ⟨h.put_journal hvalid rfl rfl, node_put_journal, rfl, rfl, rfl, hmem⟩
    exact ⟨hcrash _ _ hconflicted, (Call.wp_throw _).mpr (hfail _ _ hconflicted)⟩

/-- With a target that cannot be read, the run stops before it changes anything. -/
theorem wp_run_unreadable {post : Summary → Disk → Prop} {s : Option Snapshot} (hp : Parents d)
    (hread : ¬ Readable r d) (hfail : ∀ e, fail e d) :
    (run journalParent r s intent).wp crash post fail d := by
  simp only [run, Call.wp_bind]
  refine wp_states hp _ (fun _ _ e _ => hfail e) fun hall => ?_
  exact absurd (fun t ht => ⟨currentOf d t, hall t ht⟩) hread

end Conflict

section Undone

/-- The disk on which the record was made: its originals, and every other target as it is. -/
def originals (d : Disk) (r : Record) : Disk where
  dirs path := some (.directory 0o755 processUid fun name =>
    (Target.all.find? fun t => t.parent = path ∧ t.name = name).bind fun t =>
      match r.targets t with
      | some e => fileOf e.before
      | none => d.node t)

theorem originals_node (t : Target) : (originals d r).node t =
    match r.targets t with
    | some e => fileOf e.before
    | none => d.node t := by
  have hfind : (Target.all.find? fun u => u.parent = t.parent ∧ u.name = t.name) = some t := by
    cases t <;> decide +kernel
  simp only [Disk.node, Disk.file, originals, hfind, Option.bind_some]

/-- Without a foreign target the record is as good as on a disk nobody has edited. -/
theorem Kept.recorded (h : Kept d r) (intent : Intent) (hclean : ∀ t, ¬ Foreign r d t) :
    Recorded (fun _ => True) (originals d r) d (r.inPhase intent intent.begun) where
  parents := h.parents
  valid :=
    { nonempty := h.valid.nonempty
      consistent := intent.begun_consistent.1
      sorted := by simp [Record.inPhase]
      known := by simp [Record.inPhase]
      conflicts := by simpa [Record.inPhase] using intent.begun_consistent.2
      entries := h.valid.entries
      config := h.valid.config }
  settled := rfl
  journalDir := h.journalDir
  lock := h.lock
  plan := by
    obtain ⟨changes, hplan⟩ := h.plan
    exact ⟨changes, trivial, hplan⟩
  original t e he := by
    have he : r.targets t = some e := he
    rw [originals_node, he]
  target t := by
    rw [originals_node]
    cases he : r.targets t with
    | none => exact Or.inl rfl
    | some e =>
        by_cases hbefore : d.node t = fileOf e.before
        · exact Or.inl hbefore
        · refine Or.inr ⟨e, he, not_not.mp fun happlied => ?_⟩
          exact hclean t ⟨e, he, hbefore, happlied⟩
  config := h.config

/-- What a run without a foreign target passes through: the record in its direction, and
complete only with every target in its desired state. -/
structure Run (r : Record) (intent : Intent) (d' : Disk) (r' : Record) : Prop where
  kept : Kept d' r'
  targets : r'.targets = r.targets
  direction : r'.intent = intent
  settled : r'.phase = intent.done →
    ∀ t e, r.targets t = some e → d'.node t = fileOf (e.desired intent)

theorem wp_run_clean {post : Summary → Disk → Prop} (h : Kept d r) (hclean : ∀ t, ¬ Foreign r d t)
    (hcrash : ∀ d' r', Run r intent d' r' → crash d')
    (hpost : ∀ s d' r', Run r intent d' r' → r'.phase = intent.done → post s d') :
    (run journalParent r (some (journalSnapshot r)) intent).wp crash post fail d := by
  have hread : readFile (d.file journalParent journalName) maxJournalBytes true =
      .ok (some (journalSnapshot r)) := h.journal ▸ readFile_journal h.valid
  -- the run overwrites the phase, the direction and the conflicts before it uses them
  have hsame : run journalParent r (some (journalSnapshot r)) intent =
      run journalParent (r.inPhase intent intent.begun) (some (journalSnapshot r)) intent := rfl
  rw [hsame]
  refine wp_run (h.recorded intent hclean) hread ?_ ?_
  · intro d' phase hrecorded hj hdone
    exact hcrash d' _ ⟨hrecorded.kept hj, rfl, rfl, hdone⟩
  · intro s d' hdone
    exact hpost s d' _ ⟨hdone.recorded.kept hdone.journal, rfl, rfl, fun _ => hdone.done⟩ rfl

end Undone

section Calls

/-- A call of a recorded plan is refused, or runs it. -/
theorem wp_call {post : Summary → Disk → Prop} (h : Kept d r)
    (hrefused : ¬ Accepts changes r intent → ∀ e, fail e d)
    (hrun : Accepts changes r intent →
      (run journalParent r (some (journalSnapshot r)) intent).wp crash post fail d) :
    (call changes intent).wp crash post fail d := by
  cases intent with
  | restore =>
      refine wp_transaction_held h.parents h.journalDir h.lock ?_
      simp only [Call.wp_bind]
      exact wp_load h.valid h.journal (hrun trivial)
  | apply =>
      refine wp_apply_normal ?_ fun normalized hn => ?_
      · rintro ⟨c, hc, hnone⟩
        exact hrefused fun ha => hnone r.planned (ha.2 c hc)
      have haccepts : (Forward r ∧ ∀ n, normalized = some n → n = r.planned) ↔
          Accepts changes r .apply := by
        refine and_congr_right fun _ => ?_
        rcases hn with ⟨rfl, rfl⟩ | ⟨c, plan, rfl, hplan, rfl⟩
        · simp
        · simp [hplan]
      refine wp_transaction_held h.parents h.journalDir h.lock ?_
      simp only [applyIn, Call.wp_bind]
      refine wp_load h.valid h.journal ?_
      simp only [Call.wp_bind]
      refine wp_resume (fun hnot => hrefused (haccepts.not.mp hnot)) fun hforward hplan => ?_
      exact hrun (haccepts.mp ⟨hforward, hplan⟩)

/-- What a call of a recorded plan may do to the disk. -/
inductive Effect (d : Disk) (r : Record) (intent : Intent) : Disk → Prop
  | refused : Effect d r intent d
  | conflicted {d' : Disk} {r' : Record} (h : Conflicted d r intent d' r') : Effect d r intent d'
  | run {d' : Disk} {r' : Record} (hclean : ∀ t, ¬ Foreign r d t) (h : Run r intent d' r') :
      Effect d r intent d'

theorem wp_call_effect (h : Kept d r) : (call changes intent).wp (Effect d r intent)
    (fun _ => Effect d r intent) (fun _ => Effect d r intent) d := by
  refine wp_call h (fun _ _ => .refused) fun _ => ?_
  by_cases hread : Readable r d
  · by_cases hforeign : ∃ t, Foreign r d t
    · exact wp_run_conflict h hread hforeign (fun _ _ hc => .conflicted hc) fun _ _ hc =>
        .conflicted hc
    · have hclean := not_exists.mp hforeign
      exact wp_run_clean h hclean (fun _ _ hr => .run hclean hr) fun _ _ _ hr _ => .run hclean hr
  · exact wp_run_unreadable h.parents hread fun _ => .refused

/-- Every effect keeps a record of the same targets, in the direction of the call. -/
theorem Effect.kept (h : Kept d r) (heffect : Effect d r intent d') :
    ∃ r', Kept d' r' ∧ r'.targets = r.targets ∧ (r' = r ∨ r'.intent = intent) := by
  cases heffect with
  | refused => exact ⟨r, h, rfl, Or.inl rfl⟩
  | conflicted hc => exact ⟨_, hc.kept, hc.targets, Or.inr hc.direction⟩
  | run _ hr => exact ⟨_, hr.kept, hr.targets, Or.inr hr.direction⟩

theorem Effect.node (heffect : Effect d r intent d') (hforeign : ∃ t, Foreign r d t) (t : Target) :
    d'.node t = d.node t := by
  cases heffect with
  | refused => rfl
  | conflicted hc => exact hc.nodes t
  | run hclean _ =>
      obtain ⟨u, hu⟩ := hforeign
      exact absurd hu (hclean u)

theorem effect_upTo (h : Kept d r) (updates : Nat) :
    Effect d r intent ((call changes intent).upTo updates d) :=
  (wp_call_effect h).upTo .refused updates

theorem effect_final (h : Kept d r) : Effect d r intent ((call changes intent).final d) := by
  rw [← Call.upTo_of_length_le (Nat.le_refl _)]
  exact effect_upTo h _

/-- A step of the system is a call of one direction. -/
theorem effect_step {a : InstallAction} (h : Kept d r) (hstep : installSystem.step d a = some d') :
    ∃ intent, Effect d r intent d' := by
  cases a with
  | apply changes updates =>
      obtain rfl := Option.some.inj hstep
      exact ⟨.apply, @effect_upTo d r changes .apply h updates⟩
  | restore updates =>
      obtain rfl := Option.some.inj hstep
      exact ⟨.restore, @effect_upTo d r none .restore h updates⟩

theorem Accepts.again (ha : Accepts changes r intent) (htargets : r'.targets = r.targets)
    (hdirection : r' = r ∨ r'.intent = intent) : Accepts changes r' intent := by
  cases intent with
  | restore => trivial
  | apply =>
      obtain ⟨hforward, hplan⟩ := ha
      constructor
      · rcases hdirection with rfl | hintent
        · exact hforward
        · exact Or.inl hintent
      · have hplanned : r'.planned = r.planned := by
          funext t
          rw [Record.planned, htargets, Record.planned]
        rw [hplanned]
        exact hplan

theorem Foreign.congr (htargets : r'.targets = r.targets) : Foreign r' d t ↔ Foreign r d t := by
  rw [Foreign, htargets, Foreign]

/-- Without a foreign target an accepted call completes. -/
theorem call_returns (h : Kept d r) (ha : Accepts changes r intent)
    (hclean : ∀ t, ¬ Foreign r d t) : Returns (call changes intent) d
      fun d' => ∀ t e, r.targets t = some e → d'.node t = fileOf (e.desired intent) := by
  have hwp : (call changes intent).wp (fun _ => True)
      (fun _ d' => ∀ t e, r.targets t = some e → d'.node t = fileOf (e.desired intent))
      (fun _ _ => False) d := by
    refine wp_call h (fun hnot => absurd ha hnot) fun _ => ?_
    exact wp_run_clean h hclean (fun _ _ _ => trivial) fun _ _ _ hr hdone => hr.settled hdone
  exact hwp.returns

end Calls

section Runs

theorem tracked_step {a : EditAction} (h : Tracked d) (hok : Outside d a)
    (hstep : editedSystem.step d a = some d') : Tracked d' := by
  cases a with
  | edit d'' =>
      obtain rfl := Option.some.inj hstep
      exact h.edited hok
  | call a =>
      rcases h with ⟨hp, hnone⟩ | ⟨r, hkept⟩
      · have hidle : Recoverable (fun _ => True) d d :=
          Idle.recoverable ⟨hp, hnone, fun _ => rfl⟩
        refine (recoverable_step hidle ?_ hstep).tracked
        cases a with
        | apply changes updates => cases changes <;> trivial
        | restore updates => trivial
      · obtain ⟨intent, heffect⟩ := effect_step hkept hstep
        obtain ⟨r', hkept', -⟩ := heffect.kept hkept
        exact Or.inr ⟨r', hkept'⟩

theorem tracked_reaches {d₀ : Disk} (hparents : Parents d₀)
    (hnew : d₀.file journalParent journalName = none)
    (run : editedSystem.Reaches Outside d₀ d) : Tracked d := by
  refine run.invariant (P := Tracked) (fun _ _ _ h => tracked_step h) ?_
  exact Or.inl ⟨hparents, hnew⟩

/-- The calls respect what others have put at the targets of the record. -/
structure Respected (d : Disk) (r : Record) : Prop where
  /-- An interrupted or completed call leaves a foreign target alone. -/
  foreign : ∀ a d' t, installSystem.step d a = some d' → Foreign r d t → d'.node t = d.node t
  /-- No call changes the recorded originals and plan. -/
  recorded : ∀ a d', installSystem.step d a = some d' →
    ∃ r' s', (load journalParent d').1 = .ok (some (r', s')) ∧ r'.targets = r.targets
  /-- A call that meets a foreign target changes no target and records exactly the foreign ones. -/
  conflict : ∀ changes intent, Accepts changes r intent → Readable r d → (∃ t, Foreign r d t) →
    (∀ updates t, ((call changes intent).upTo updates d).node t = d.node t) ∧
      ∃ r' s', (load journalParent ((call changes intent).final d)).1 = .ok (some (r', s')) ∧
        (call changes intent d).1 = .error (.conflict (r'.conflicts.map Target.id)) ∧
        r'.phase = .conflict ∧ r'.intent = intent ∧ ∀ t, t ∈ r'.conflicts ↔ Foreign r d t
  /-- A call that meets a target it cannot trust changes nothing. -/
  unreadable : ∀ changes intent, ¬ Readable r d → ∃ e, call changes intent d = (.error e, [])
  changed : ∀ c, normalize c ≠ .ok r.planned → ∃ e, apply (some c) d = (.error e, [])
  restoring : r.intent = .restore → r.phase ≠ .restored →
    ∀ changes, ∃ e, apply changes d = (.error e, [])
  /-- A restoration that has begun is recorded as one until every original is back. -/
  begun : ∀ updates, restore.upTo updates d = d ∨
    ∃ r' s', (load journalParent (restore.upTo updates d)).1 = .ok (some (r', s')) ∧
      r'.intent = .restore ∧ (r'.phase = .restored → ∀ t e, r.targets t = some e →
        (restore.upTo updates d).node t = fileOf e.before)
  /-- The same call completes once the edit has been undone. -/
  undone : ∀ changes intent d', Accepts changes r intent →
    Edits ((call changes intent).final d) d' → (∀ t, ¬ Foreign r d' t) →
    Returns (call changes intent) d'
      fun d'' => ∀ t e, r.targets t = some e → d''.node t = fileOf (e.desired intent)

theorem not_accepts (h : Kept d r) (hnot : ¬ Accepts changes r .apply) :
    ∃ e, apply changes d = (.error e, []) := by
  have hwp : (call changes .apply).wp (fun _ => False) (fun _ _ => False) (fun _ _ => True) d :=
    wp_call h (fun _ _ => trivial) fun ha => absurd ha hnot
  obtain ⟨e, he, -⟩ := hwp.refused
  exact ⟨e, he⟩

theorem Kept.conflict (h : Kept d r) (ha : Accepts changes r intent) (hread : Readable r d)
    (hforeign : ∃ t, Foreign r d t) :
    ∃ r' s', (Install.load journalParent ((call changes intent).final d)).1 = .ok (some (r', s')) ∧
      (call changes intent d).1 = .error (.conflict (r'.conflicts.map Target.id)) ∧
      r'.phase = .conflict ∧ r'.intent = intent ∧ ∀ t, t ∈ r'.conflicts ↔ Foreign r d t := by
  have hwp : (call changes intent).wp (fun _ => True) (fun _ _ => False)
      (fun e d' => ∃ r', Conflicted d r intent d' r' ∧
        e = .conflict (r'.conflicts.map Target.id)) d := by
    refine wp_call h (fun hnot => absurd ha hnot) fun _ => ?_
    exact wp_run_conflict h hread hforeign (fun _ _ _ => trivial) fun _ r' hc => ⟨r', hc, rfl⟩
  cases hv : (call changes intent d).1 with
  | ok s => exact (hwp.ok hv).elim
  | error e =>
      obtain ⟨r', hc, rfl⟩ := hwp.failed hv
      exact ⟨r', _, hc.kept.load, rfl, hc.phase, hc.direction, hc.conflicts⟩

/-- At every state that interrupted calls and outside edits lead to, the calls respect the edits. -/
theorem outside_edits_respected {d₀ : Disk} {s : Snapshot} (hparents : Parents d₀)
    (hnew : d₀.file journalParent journalName = none)
    (run : editedSystem.Reaches Outside d₀ d)
    (hload : (load journalParent d).1 = .ok (some (r, s))) : Respected d r := by
  have h : Kept d r := (tracked_reaches hparents hnew run).kept hload
  constructor
  · intro a d' t hstep hforeign
    obtain ⟨intent, heffect⟩ := effect_step h hstep
    exact heffect.node ⟨t, hforeign⟩ t
  · intro a d' hstep
    obtain ⟨intent, heffect⟩ := effect_step h hstep
    obtain ⟨r', hkept, htargets, -⟩ := heffect.kept h
    exact ⟨r', _, hkept.load, htargets⟩
  · intro changes intent ha hread hforeign
    exact ⟨fun updates t => (effect_upTo h updates).node hforeign t,
      h.conflict ha hread hforeign⟩
  · intro changes intent hread
    have hwp : (call changes intent).wp (fun _ => False) (fun _ _ => False) (fun _ _ => True) d :=
      wp_call h (fun _ _ => trivial) fun _ =>
        wp_run_unreadable h.parents hread fun _ => trivial
    obtain ⟨e, he, -⟩ := hwp.refused
    exact ⟨e, he⟩
  · intro c hc
    exact not_accepts h fun ha => hc (ha.2 c rfl)
  · intro hintent hphase changes
    refine not_accepts h fun ha => ?_
    rcases ha.1 with happly | hrestored
    · rw [hintent] at happly
      cases happly
    · exact hphase hrestored
  · intro updates
    have heffect : Effect d r .restore (restore.upTo updates d) :=
      @effect_upTo d r none .restore h updates
    generalize restore.upTo updates d = d' at heffect ⊢
    cases heffect with
    | refused => exact Or.inl rfl
    | conflicted hc =>
        refine Or.inr ⟨_, _, hc.kept.load, hc.direction, fun hphase => ?_⟩
        rw [hc.phase] at hphase
        cases hphase
    | run _ hr => exact Or.inr ⟨_, _, hr.kept.load, hr.direction, hr.settled⟩
  · intro changes intent d' ha hedit hclean
    obtain ⟨r', hkept, htargets, hdirection⟩ := (effect_final h).kept h
    have hreturns := call_returns (hkept.edited hedit) (ha.again htargets hdirection)
      fun t => (Foreign.congr htargets).not.mpr (hclean t)
    rw [htargets] at hreturns
    exact hreturns

end Runs

section Sample

theorem edits_put (hp : Parents d) (t : Target) (file : Option File) :
    Edits d (d.put t.parent t.name file) where
  parents := hp.put _
  journal := by
    refine put_dirs_ne ?_
    cases t <;> decide +kernel
  config _ _ _ hdir := Or.inr (put_config hdir)

/-- The sample plan has been applied, and somebody has replaced the enrollment. -/
def replacedDisk (file : File) : Disk :=
  ((apply (some samplePlan)).final freshDisk).put Target.enrollment.parent
    Target.enrollment.name (some file)

theorem replacedDisk_reaches (file : File) :
    editedSystem.Reaches Outside freshDisk (replacedDisk file) := by
  obtain ⟨s, r, -, -, hdone⟩ := sample_applied
  have hparents := hdone.recorded.parents
  have happlied : editedSystem.Next Outside freshDisk
      ((apply (some samplePlan)).final freshDisk) := by
    refine ⟨.call (.apply (some samplePlan) (apply (some samplePlan) freshDisk).2.length),
      trivial, ?_⟩
    exact congrArg some (Call.upTo_of_length_le (Nat.le_refl _))
  have hedit : editedSystem.Next Outside ((apply (some samplePlan)).final freshDisk)
      (replacedDisk file) :=
    ⟨.edit (replacedDisk file), edits_put hparents .enrollment _, rfl⟩
  exact .tail (.single happlied) hedit

/-- The journal says applied, and only the enrollment can be foreign. -/
theorem replacedDisk_kept (file : File) : ∃ r, Kept (replacedDisk file) r ∧ r.phase = .applied ∧
    r.intent = .apply ∧ (∀ t, t ≠ .enrollment → (replacedDisk file).node t = none) ∧
    (replacedDisk file).node .enrollment = some file ∧
    ∀ t, Foreign r (replacedDisk file) t ↔
      t = .enrollment ∧ file ≠ .regular [123, 125] 0o640 processUid 7 1 := by
  obtain ⟨s, r, -, hplan, hdone⟩ := sample_applied
  have hp := hdone.recorded.parents
  have hedit : Edits ((apply (some samplePlan)).final freshDisk) (replacedDisk file) :=
    edits_put hp .enrollment _
  have hnormal : normalize samplePlan = .ok r.planned := hplan ▸ samplePlan_normal
  have hnodes : ∀ t, ((apply (some samplePlan)).final freshDisk).node t =
      plannedFile samplePlan freshDisk t := hdone.node hnormal
  have htrusted : Trusted ((apply (some samplePlan)).final freshDisk) Target.enrollment.parent := by
    rcases parents_cases hp Target.enrollment.parent_opened with htrusted | ⟨mode, -, hnone⟩
    · exact htrusted
    · have hnode := hnodes .enrollment
      rw [Disk.node, Disk.file, hnone] at hnode
      cases hnode
  have hother : ∀ t, t ≠ .enrollment → (replacedDisk file).node t =
      plannedFile samplePlan freshDisk t := fun t ht => (node_put ht).trans (hnodes t)
  have henrollment : (replacedDisk file).node .enrollment = some file := htrusted.file_put
  obtain ⟨e, he, happlied⟩ : ∃ e, r.targets .enrollment = some e ∧
      fileOf e.applied = some (.regular [123, 125] 0o640 processUid 7 1) := by
    rcases @planned_file freshDisk r samplePlan hnormal .enrollment with ⟨-, hfile⟩ | ⟨e, he, hfile⟩
    · cases hfile
    · exact ⟨e, he, hfile⟩
  have hbefore : fileOf e.before = none := hdone.recorded.original .enrollment e he
  refine ⟨r.inPhase .apply .applied, (hdone.recorded.kept hdone.journal).edited hedit, rfl, rfl,
    fun t ht => ?_, henrollment, fun t => ?_⟩
  · rw [hother t ht]
    cases t with
    | enrollment => exact absurd rfl ht
    | _ => rfl
  constructor
  · rintro ⟨e', he', hnotBefore, hnotApplied⟩
    have he' : r.targets t = some e' := he'
    by_cases ht : t = .enrollment
    · subst ht
      rw [he] at he'
      obtain rfl := Option.some.inj he'
      rw [henrollment, happlied] at hnotApplied
      exact ⟨rfl, fun hfile => hnotApplied (congrArg some hfile)⟩
    · refine absurd ?_ hnotApplied
      exact (hother t ht).trans ((hnodes t).symm.trans (hdone.done t e' he'))
  · rintro ⟨rfl, hfile⟩
    refine ⟨e, he, ?_, ?_⟩
    · rw [henrollment, hbefore]
      exact Option.some_ne_none file
    · rw [henrollment, happlied]
      exact fun hsame => hfile (Option.some.inj hsame)

/-- A restoration that finds the enrollment rewritten names it and changes no target. -/
theorem outside_edits_respected_rewritten : ∃ r s,
    (load journalParent (restore.final (replacedDisk (.regular [91] 0o640 processUid 7 1)))).1 =
      .ok (some (r, s)) ∧ r.phase = .conflict ∧ (∀ t, t ∈ r.conflicts ↔ t = .enrollment) ∧
    ∀ updates t, (restore.upTo updates (replacedDisk (.regular [91] 0o640 processUid 7 1))).node t =
      (replacedDisk (.regular [91] 0o640 processUid 7 1)).node t := by
  obtain ⟨r, hkept, -, -, hother, henrollment, hforeign⟩ :=
    replacedDisk_kept (.regular [91] 0o640 processUid 7 1)
  have hread : Readable r (replacedDisk (.regular [91] 0o640 processUid 7 1)) := by
    intro t _
    by_cases ht : t = .enrollment
    · subst ht
      rw [henrollment]
      exact ⟨some (snapshot [91] 0o640 processUid 7), rfl⟩
    · rw [hother t ht]
      exact ⟨none, rfl⟩
  have hsome : Foreign r (replacedDisk (.regular [91] 0o640 processUid 7 1)) .enrollment :=
    (hforeign _).mpr ⟨rfl, by simp⟩
  have h := outside_edits_respected freshDisk_parents (freshDisk_journal _)
    (replacedDisk_reaches _) hkept.load
  obtain ⟨hnodes, r', s', hload, -, hphase, -, hconflicts⟩ :=
    h.conflict none .restore trivial hread ⟨_, hsome⟩
  refine ⟨r', s', hload, hphase, fun t => ?_, hnodes⟩
  rw [hconflicts, hforeign]
  exact and_iff_left (by simp)

/-- A restoration that finds a link in place of the enrollment fails before it records anything. -/
theorem linked_enrollment_unrecorded : ∃ r s e,
    editedSystem.Reaches Outside freshDisk (replacedDisk .other) ∧
    (load journalParent (replacedDisk .other)).1 = .ok (some (r, s)) ∧
    Foreign r (replacedDisk .other) .enrollment ∧
    restore (replacedDisk .other) = (.error e, []) ∧
    (load journalParent (restore.final (replacedDisk .other))).1 = .ok (some (r, s)) ∧
    r.phase = .applied := by
  obtain ⟨r, hkept, hphase, -, -, henrollment, hforeign⟩ := replacedDisk_kept .other
  have hsome : Foreign r (replacedDisk .other) .enrollment := (hforeign _).mpr ⟨rfl, nofun⟩
  have hread : ¬ Readable r (replacedDisk .other) := by
    intro hread
    obtain ⟨e, he, -⟩ := hsome
    obtain ⟨s, hs⟩ := hread .enrollment (mem_targetsOf.mpr ⟨e, he⟩)
    rw [henrollment] at hs
    cases hs
  have hwp : (call none .restore).wp (fun _ => False) (fun _ _ => False) (fun _ _ => True)
      (replacedDisk .other) :=
    wp_call hkept (fun _ _ => trivial) fun _ =>
      wp_run_unreadable hkept.parents hread fun _ => trivial
  obtain ⟨e, he, -⟩ := hwp.refused
  have he : restore (replacedDisk .other) = (.error e, []) := he
  have hfinal : restore.final (replacedDisk .other) = replacedDisk .other := by
    rw [Call.final, he, List.getLastD_nil]
  refine ⟨r, _, e, replacedDisk_reaches _, hkept.load, hsome, he, ?_, hphase⟩
  rw [hfinal]
  exact hkept.load

end Sample

end HccastWired.Install
