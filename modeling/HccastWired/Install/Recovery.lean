import HccastWired.Install.DiskSteps

/-!
# Recovery of an interrupted transaction

The journal is either absent, and every target is its original, or holds a valid
record of the plan and of the originals, and every target is the one or the
other. Every update keeps this, so every call can be interrupted anywhere.
-/

namespace HccastWired.Install

open Foundation

def Disk.node (d : Disk) (t : Target) : Option File :=
  d.file t.parent t.name

def configParent : List String :=
  Target.enrollment.parent

/-- The record is of an offered plan and of the originals, and every target is one of them. -/
structure Recorded (offers : Changes → Prop) (d₀ d : Disk) (r : Record) : Prop where
  parents : Parents d
  valid : r.Valid
  settled : r.conflicts = []
  journalDir : Trusted d journalParent
  lock : ∃ s, readFile (d.file journalParent lockName) 0 true = .ok (some s)
  plan : ∃ changes, offers changes ∧ normalize changes = .ok r.planned
  original : ∀ t e, r.targets t = some e → fileOf e.before = d₀.node t
  target : ∀ t, d.node t = d₀.node t ∨
    ∃ e, r.targets t = some e ∧ d.node t = fileOf e.applied
  config : r.configParentWasAbsent = true → ∀ mode uid files,
    d.dirs configParent = some (.directory mode uid files) → mode = 0o755

def Journaled (d : Disk) (r : Record) : Prop :=
  d.file journalParent journalName = fileOf (some (journalSnapshot r))

/-- What every interruption leaves behind. -/
structure Recoverable (offers : Changes → Prop) (d₀ d : Disk) : Prop where
  parents : Parents d
  idle : d.file journalParent journalName = none → ∀ t, d.node t = d₀.node t
  journaled : ∀ f, d.file journalParent journalName = some f →
    ∃ r, Recorded offers d₀ d r ∧ Journaled d r

variable {offers : Changes → Prop} {d₀ d d' : Disk} {r : Record} {t : Target} {e : Entry}
  {crash : Disk → Prop} {fail : TransactionError → Disk → Prop} {intent : Intent}

section Steps

theorem node_put_journal {name : String} {file : Option File} (t : Target) :
    (d.put journalParent name file).node t = d.node t := by
  refine file_put_ne (Or.inl ?_)
  cases t <;> decide +kernel

theorem node_put {u : Target} {file : Option File} (h : u ≠ t) :
    (d.put t.parent t.name file).node u = d.node u := by
  have hne : ∀ u t : Target, u ≠ t → u.parent ≠ t.parent ∨ u.name ≠ t.name := by
    intro u t
    cases u <;> cases t <;> decide +kernel
  exact file_put_ne (hne u t h)

theorem journal_put_target {name : String} {file : Option File} (t : Target) :
    (d.put t.parent t.name file).file journalParent name = d.file journalParent name := by
  refine file_put_ne (Or.inl ?_)
  cases t <;> decide +kernel

theorem Recorded.recoverable (h : Recorded offers d₀ d r) (hj : Journaled d r) :
    Recoverable offers d₀ d where
  parents := h.parents
  idle hnone := by
    rw [hj] at hnone
    simp [journalSnapshot] at hnone
  journaled _ _ := ⟨r, h, hj⟩

/-- A put changes no mode of a directory. -/
theorem put_config {path : List String} {name : String} {file : Option File} {mode uid : Int}
    {files : String → Option File}
    (h : (d.put path name file).dirs configParent = some (.directory mode uid files)) :
    ∃ files', d.dirs configParent = some (.directory mode uid files') := by
  rcases @put_directory d path name file configParent with hsame | ⟨_, _, files', _, hold, hnew⟩
  · exact ⟨files, hsame.symm.trans h⟩
  · rw [h] at hnew
    cases hnew
    exact ⟨files', hold⟩

theorem Recorded.put (h : Recorded offers d₀ d r) {path : List String} {name : String}
    {file : Option File}
    (hlock : ∃ s, readFile ((d.put path name file).file journalParent lockName) 0 true =
      .ok (some s))
    (htarget : ∀ t, (d.put path name file).node t = d₀.node t ∨
      ∃ e, r.targets t = some e ∧ (d.put path name file).node t = fileOf e.applied) :
    Recorded offers d₀ (d.put path name file) r where
  parents := h.parents.put path
  valid := h.valid
  settled := h.settled
  journalDir := h.journalDir.put path
  lock := hlock
  plan := h.plan
  original := h.original
  target := htarget
  config habsent mode uid files hdir := by
    obtain ⟨files', hold⟩ := put_config hdir
    exact h.config habsent mode uid files' hold

theorem Recorded.put_journal (h : Recorded offers d₀ d r) (file : Option File) :
    Recorded offers d₀ (d.put journalParent journalName file) r := by
  refine h.put ?_ fun t => ?_
  · rw [file_put_ne (Or.inr (by decide +kernel))]
    exact h.lock
  · rw [node_put_journal]
    exact h.target t

theorem Recorded.put_target (h : Recorded offers d₀ d r) (ht : r.targets t = some e)
    {s : Option Snapshot} (hs : s = e.before ∨ s = e.applied) :
    Recorded offers d₀ (d.put t.parent t.name (fileOf s)) r := by
  refine h.put ?_ fun u => ?_
  · rw [journal_put_target]
    exact h.lock
  · by_cases hu : u = t
    · subst hu
      rcases parents_cases h.parents u.parent_opened with htrusted | ⟨mode, hmode, hnone⟩
      · have hnode : (d.put u.parent u.name (fileOf s)).node u = fileOf s := htrusted.file_put
        rcases hs with rfl | rfl
        · exact Or.inl (hnode.trans (h.original u e ht))
        · exact Or.inr ⟨e, ht, hnode⟩
      · -- nothing is put into a directory that is not there
        have hnode : (d.put u.parent u.name (fileOf s)).node u = d.node u := by
          simp [Disk.node, Disk.put, hnone]
        rw [hnode]
        exact h.target u
    · rw [node_put hu]
      exact h.target u

theorem Recorded.mkdir (h : Recorded offers d₀ d r) (hnone : d.dirs configParent = none) :
    Recorded offers d₀ (d.mkdir configParent 0o755) r where
  parents := h.parents.mkdir (by decide +kernel)
  valid := h.valid
  settled := h.settled
  journalDir := by
    obtain ⟨mode, uid, files, hdir, htrusted⟩ := h.journalDir
    exact ⟨mode, uid, files, (mkdir_dirs_ne (by decide +kernel) _).trans hdir, htrusted⟩
  lock := by
    rw [file_mkdir hnone]
    exact h.lock
  plan := h.plan
  original := h.original
  target t := by
    rw [Disk.node, file_mkdir hnone]
    exact h.target t
  config _ mode uid files hdir := by
    rw [mkdir_dirs] at hdir
    cases hdir
    rfl

/-- The record in another phase, without conflicts. -/
def Record.inPhase (r : Record) (intent : Intent) (phase : Phase) : Record :=
  { r with intent := intent, conflicts := [], phase := phase }

theorem Recorded.inPhase (h : Recorded offers d₀ d r) {phase : Phase}
    (hconsistent : consistent phase intent = true) (hphase : phase ≠ .conflict) :
    Recorded offers d₀ d (r.inPhase intent phase) where
  parents := h.parents
  valid :=
    { nonempty := h.valid.nonempty
      consistent := hconsistent
      sorted := by simp [Record.inPhase]
      known := by simp [Record.inPhase]
      conflicts := by simpa [Record.inPhase] using hphase
      entries := h.valid.entries
      config := h.valid.config }
  settled := rfl
  journalDir := h.journalDir
  lock := h.lock
  plan := h.plan
  original := h.original
  target := h.target
  config := h.config

end Steps

section States

def stateOf (d : Disk) (t : Target) : Except TransactionError (Option Snapshot) :=
  readFile (d.node t) maxFileBytes false

/-- The state of a target that can be read. -/
def currentOf (d : Disk) (t : Target) : Option Snapshot :=
  (stateOf d t).toOption.join

theorem currentOf_ok {a : Option Snapshot} (h : stateOf d t = .ok a) : currentOf d t = a := by
  rw [currentOf, h]
  rfl

/-- Reading the states changes nothing; it fails on a target that cannot be read. -/
theorem wp_states {post : List (Target × Option Snapshot) → Disk → Prop} (hp : Parents d)
    (ts : List Target) (hfail : ∀ t ∈ ts, ∀ e, stateOf d t = .error e → fail e d)
    (hpost : (∀ t ∈ ts, stateOf d t = .ok (currentOf d t)) →
      post (ts.map fun t => (t, currentOf d t)) d) :
    (states ts).wp crash post fail d := by
  induction ts generalizing post with
  | nil => exact (Call.wp_pure _).mpr (hpost (List.forall_mem_nil _))
  | cons t rest ih =>
      have hread : ∀ path : Option (List String),
          (path.bind fun parent => d.file parent t.name) = d.node t →
          (read path t.name maxFileBytes false).wp crash (fun s d => (states rest).wp crash
            (fun more d => post ((t, s) :: more) d) fail d) fail d := by
        intro path hpath
        rw [wp_read, hpath]
        cases hstate : readFile (d.node t) maxFileBytes false with
        | error error => exact hfail t List.mem_cons_self error hstate
        | ok s =>
            have hcurrent := currentOf_ok hstate
            refine ih (fun u hu => hfail u (List.mem_cons_of_mem t hu)) fun hrest => ?_
            rw [← hcurrent]
            refine hpost (List.forall_mem_cons.mpr ⟨?_, hrest⟩)
            rw [hcurrent]
            exact hstate
      simp only [states, Call.wp_bind, Call.wp_pure]
      rcases parents_cases hp t.parent_opened with htrusted | ⟨mode, hmode, hnone⟩
      · exact parent_trusted hp t.parent_opened htrusted (hread _ rfl)
      · refine parent_absent hp t.parent_opened hmode hnone (hread _ ?_)
        simp [Disk.node, Disk.file, hnone]

theorem mem_targetsOf {α : Type} {targets : Target → Option α} :
    t ∈ targetsOf targets ↔ ∃ a, targets t = some a := by
  simp [targetsOf, Target.mem_all, Option.isSome_iff_exists]

theorem targetsOf_nodup {α : Type} (targets : Target → Option α) : (targetsOf targets).Nodup :=
  List.filter_sublist.nodup (by decide)

/-- Every recorded target can be read, and is its original or the planned one. -/
theorem Recorded.state (h : Recorded offers d₀ d r) (ht : r.targets t = some e) :
    stateOf d t = .ok (currentOf d t) ∧
      (currentOf d t = e.before ∨ currentOf d t = e.applied) := by
  have hvalid := h.valid.entries t e ht
  have hcase : d.node t = fileOf e.before ∨ d.node t = fileOf e.applied := by
    rcases h.target t with hnode | ⟨e', ht', hnode⟩
    · exact Or.inl (hnode.trans (h.original t e ht).symm)
    · rw [ht] at ht'
      cases ht'
      exact Or.inr hnode
  rcases hcase with hnode | hnode
  · have hstate : stateOf d t = .ok e.before := by
      rw [stateOf, hnode]
      exact readFile_fileOf hvalid.before
    rw [currentOf_ok hstate]
    exact ⟨hstate, Or.inl rfl⟩
  · have hstate : stateOf d t = .ok e.applied := by
      rw [stateOf, hnode]
      exact readFile_fileOf hvalid.applied
    rw [currentOf_ok hstate]
    exact ⟨hstate, Or.inr rfl⟩

theorem Recorded.no_conflicts (h : Recorded offers d₀ d r) :
    conflictsOf r ((targetsOf r.targets).map fun t => (t, currentOf d t)) = [] := by
  rw [conflictsOf, List.map_eq_nil_iff, List.filter_eq_nil_iff]
  intro p hp
  obtain ⟨t, ht, rfl⟩ := List.mem_map.mp hp
  obtain ⟨e, he⟩ := mem_targetsOf.mp ht
  rcases (h.state he).2 with hb | ha
  · simp [he, hb]
  · simp [he, ha]

end States

section Run

/-- What a step of the run may change: the disk stays recorded and keeps its journal. -/
structure Progress (offers : Changes → Prop) (d₀ d : Disk) (r : Record) (d' : Disk) : Prop where
  recorded : Recorded offers d₀ d' r
  journal : d'.file journalParent journalName = d.file journalParent journalName

theorem Progress.trans {d'' : Disk} (h : Progress offers d₀ d r d')
    (h' : Progress offers d₀ d' r d'') : Progress offers d₀ d r d'' :=
  ⟨h'.recorded, h'.journal.trans h.journal⟩

theorem Entry.desired_cases (e : Entry) (intent : Intent) :
    e.desired intent = e.before ∨ e.desired intent = e.applied := by
  cases intent
  · exact Or.inr rfl
  · exact Or.inl rfl

theorem Entry.Valid.desired (h : e.Valid) (intent : Intent) :
    ∀ s, e.desired intent = some s → s.Valid := by
  cases intent
  · exact h.applied
  · exact h.before

/-- One target is brought into its desired state, and no other is touched. -/
theorem wp_runTarget {post : Unit → Disk → Prop} (h : Recorded offers d₀ d r)
    (ht : r.targets t = some e) (hcrash : ∀ d', Progress offers d₀ d r d' → crash d')
    (hpost : ∀ d', Progress offers d₀ d r d' → d'.node t = fileOf (e.desired intent) →
      (∀ u, u ≠ t → d'.node u = d.node u) → post () d') :
    (runTarget t (currentOf d t) (e.desired intent)).wp crash post fail d := by
  have hvalid := h.valid.entries t e ht
  have hdesired := hvalid.desired intent
  -- the last step only opens the directory above the configuration directory
  have hlast : ∀ d', Progress offers d₀ d r d' → d'.node t = fileOf (e.desired intent) →
      (∀ u, u ≠ t → d'.node u = d.node u) →
      (if t.isConfig = true then do
        let _ ← parent ["etc"] false
        pure ()
      else pure () : Transaction Unit).wp crash post fail d' := by
    intro d' hprogress hnode hother
    have hdone := hpost d' hprogress hnode hother
    split
    · rw [Call.wp_bind]
      exact parent_trusted hprogress.recorded.parents (by decide +kernel)
        (hprogress.recorded.parents.fixed _ (by decide +kernel)) ((Call.wp_pure ()).mpr hdone)
    · exact (Call.wp_pure ()).mpr hdone
  -- in a directory that is there, the write finds the state that was read
  have hwrite : ∀ d', Progress offers d₀ d r d' → Trusted d' t.parent →
      (∀ u, d'.node u = d.node u) →
      (write t.parent t.name (e.desired intent) (currentOf d t) maxFileBytes false).wp crash
        (fun _ d'' => (if t.isConfig = true then do
          let _ ← parent ["etc"] false
          pure ()
        else pure () : Transaction Unit).wp crash post fail d'') fail d' := by
    intro d' hprogress htrusted hnodes
    have hput : Progress offers d₀ d r (d'.put t.parent t.name (fileOf (e.desired intent))) :=
      hprogress.trans ⟨hprogress.recorded.put_target ht (e.desired_cases intent),
        journal_put_target t⟩
    refine wp_write ?_ ?_ ?_ ?_
    · show readFile (d'.node t) maxFileBytes false = .ok (currentOf d t)
      rw [hnodes t]
      exact (h.state ht).1
    · intro s hs
      obtain ⟨data, -, hdata⟩ := (hdesired s hs).bytes
      exact ⟨data, hdata⟩
    · intro hsame
      refine hlast d' hprogress ?_ fun u _ => hnodes u
      have hread : stateOf d t = .ok (e.desired intent) := hsame ▸ (h.state ht).1
      rw [hnodes t]
      exact (readFile_ok hread).1
    · refine ⟨hcrash _ hput, hlast _ hput htrusted.file_put fun u hu => ?_⟩
      rw [node_put hu]
      exact hnodes u
  have hself : Progress offers d₀ d r d := ⟨h, rfl⟩
  simp only [runTarget, Call.wp_bind]
  rcases parents_cases h.parents t.parent_opened with htrusted | ⟨mode, hmode, hnone⟩
  · exact parent_trusted h.parents t.parent_opened htrusted
      (Call.wp_bind.mpr (hwrite d hself htrusted fun _ => rfl))
  · have hconfig : t.parent = configParent ∧ mode = 0o755 := by
      revert hmode
      cases t <;> simp [creatable, Target.parent, journalParent, configParent, eq_comm]
    obtain ⟨hparent, rfl⟩ := hconfig
    cases hs : e.desired intent with
    | none =>
        refine parent_absent h.parents t.parent_opened hmode hnone ?_
        refine hlast d hself ?_ fun _ _ => rfl
        rw [hs]
        simp [Disk.node, Disk.file, hnone, fileOf]
    | some s =>
        rw [hs] at hwrite
        have hnew : Progress offers d₀ d r (d.mkdir t.parent 0o755) := by
          rw [hparent] at hnone ⊢
          exact ⟨h.mkdir hnone, file_mkdir hnone ..⟩
        exact parent_created h.parents t.parent_opened hmode hnone (hcrash _ hnew)
          (Call.wp_bind.mpr (hwrite _ hnew (mkdir_trusted hmode) fun u => file_mkdir hnone ..))

theorem currentOf_congr (h : d'.node t = d.node t) : currentOf d' t = currentOf d t := by
  simp only [currentOf, stateOf, h]

/-- Every target of the list is brought into its desired state, and no other is touched. -/
theorem wp_runTargets {post : Unit → Disk → Prop} {journalState : Snapshot} {ts : List Target}
    (h : Recorded offers d₀ d r) (hts : ∀ t ∈ ts, ∃ e, r.targets t = some e) (hnodup : ts.Nodup)
    (hcrash : ∀ d', Progress offers d₀ d r d' → crash d')
    (hpost : ∀ d', Progress offers d₀ d r d' →
      (∀ t ∈ ts, ∀ e, r.targets t = some e → d'.node t = fileOf (e.desired intent)) →
      (∀ t, t ∉ ts → d'.node t = d.node t) → post () d') :
    (runTargets journalParent r journalState intent (ts.map fun t => (t, currentOf d t))).wp
      crash post fail d := by
  induction ts generalizing d with
  | nil => exact (Call.wp_pure ()).mpr (hpost d ⟨h, rfl⟩ (by simp) fun _ _ => rfl)
  | cons t rest ih =>
      obtain ⟨⟨e, ht⟩, hrest⟩ := List.forall_mem_cons.mp hts
      obtain ⟨hfresh, hnodup⟩ := List.nodup_cons.mp hnodup
      simp only [List.map_cons, runTargets, ht, Option.bind_some, Call.wp_bind, Call.wp_tryCatch]
      refine wp_runTarget h ht hcrash fun d' hprogress hnode hother => ?_
      have hcurrent : rest.map (fun u => (u, currentOf d u)) =
          rest.map fun u => (u, currentOf d' u) := by
        refine List.map_congr_left fun u hu => ?_
        rw [currentOf_congr (hother u fun hut => hfresh (hut ▸ hu))]
      rw [hcurrent]
      refine ih hprogress.recorded hrest hnodup (fun d'' h'' => hcrash d'' (hprogress.trans h''))
        fun d'' hprogress' hdone hkept => ?_
      refine hpost d'' (hprogress.trans hprogress') ?_ ?_
      · intro u hu e' he'
        rcases List.mem_cons.mp hu with rfl | hu
        · rw [ht] at he'
          cases he'
          exact (hkept u hfresh).trans hnode
        · exact hdone u hu e' he'
      · intro u hu
        obtain ⟨hut, hur⟩ : u ≠ t ∧ u ∉ rest := by simpa using hu
        exact (hkept u hur).trans (hother u hut)

theorem wp_checkConfigParent {post : Unit → Disk → Prop} (h : Recorded offers d₀ d r)
    (habsent : r.configParentWasAbsent = true) (hpost : post () d) :
    checkConfigParent.wp crash post fail d := by
  simp only [checkConfigParent, Call.wp_bind, Call.wp_get]
  rcases parents_cases h.parents Target.enrollment.parent_opened with htrusted | ⟨mode, hmode, hnone⟩
  · refine parent_trusted h.parents Target.enrollment.parent_opened htrusted ?_
    obtain ⟨mode, uid, files, hdir, -⟩ := htrusted
    have hmode := h.config habsent mode uid files hdir
    simpa [hdir, hmode] using hpost
  · exact parent_absent h.parents Target.enrollment.parent_opened hmode hnone
      ((Call.wp_pure ()).mpr hpost)

theorem Intent.begun_consistent (intent : Intent) :
    consistent intent.begun intent = true ∧ intent.begun ≠ .conflict := by
  cases intent <;> decide

theorem Intent.done_consistent (intent : Intent) :
    consistent intent.done intent = true ∧ intent.done ≠ .conflict := by
  cases intent <;> decide

/-- The state that a completed run leaves. -/
structure Completed (offers : Changes → Prop) (d₀ : Disk) (r : Record) (intent : Intent)
    (d : Disk) : Prop where
  recorded : Recorded offers d₀ d (r.inPhase intent intent.done)
  journal : Journaled d (r.inPhase intent intent.done)
  done : ∀ t e, r.targets t = some e → d.node t = fileOf (e.desired intent)

/-- A run of a recorded plan completes; interrupted, it leaves its record in its direction. -/
theorem wp_run {post : Summary → Disk → Prop} {expected : Option Snapshot}
    (h : Recorded offers d₀ d r)
    (hread : readFile (d.file journalParent journalName) maxJournalBytes true = .ok expected)
    (hcrash : ∀ d' phase, Recorded offers d₀ d' (r.inPhase intent phase) →
      Journaled d' (r.inPhase intent phase) → (phase = intent.done →
        ∀ t e, r.targets t = some e → d'.node t = fileOf (e.desired intent)) → crash d')
    (hpost : ∀ s d', Completed offers d₀ r intent d' → post s d') :
    (run journalParent r expected intent).wp crash post fail d := by
  have hbegun := h.inPhase intent.begun_consistent.1 intent.begun_consistent.2
  have hunfinished : ∀ {P : Prop}, intent.begun = intent.done → P := by
    intro P heq
    cases intent <;> cases heq
  -- the second save finds the journal of the first
  have hfinish : ∀ d', Recorded offers d₀ d' (r.inPhase intent intent.begun) →
      Journaled d' (r.inPhase intent intent.begun) →
      (∀ t e, r.targets t = some e → d'.node t = fileOf (e.desired intent)) →
      (save journalParent (r.inPhase intent intent.done)
        (some (journalSnapshot (r.inPhase intent intent.begun)))).wp crash
          (fun _ d'' => post (summary (some (r.inPhase intent intent.done))) d'') fail d' := by
    intro d' hrecorded hj hdone
    have hrecorded' : Recorded offers d₀ d' (r.inPhase intent intent.done) :=
      hrecorded.inPhase intent.done_consistent.1 intent.done_consistent.2
    refine wp_save hrecorded'.valid ?_ ?_ ?_
    · rw [hj]
      exact readFile_journal hrecorded.valid
    · intro hsame
      refine hpost _ _ ⟨hrecorded', ?_, hdone⟩
      rw [Journaled, hj, hsame]
    · have hput := hrecorded'.put_journal
        (fileOf (some (journalSnapshot (r.inPhase intent intent.done))))
      have hjput := @Trusted.file_put d' journalParent journalName
        (fileOf (some (journalSnapshot (r.inPhase intent intent.done)))) hrecorded'.journalDir
      have hdone' : ∀ t e, r.targets t = some e →
          (d'.put journalParent journalName (fileOf (some (journalSnapshot
            (r.inPhase intent intent.done))))).node t = fileOf (e.desired intent) := by
        intro t e ht
        rw [node_put_journal]
        exact hdone t e ht
      exact ⟨hcrash _ _ hput hjput fun _ => hdone', hpost _ _ ⟨hput, hjput, hdone'⟩⟩
  have hmain : ∀ d', Recorded offers d₀ d' (r.inPhase intent intent.begun) →
      Journaled d' (r.inPhase intent intent.begun) → (∀ t, d'.node t = d.node t) →
      (runTargets journalParent (r.inPhase intent intent.begun)
        (journalSnapshot (r.inPhase intent intent.begun)) intent
        ((targetsOf r.targets).map fun t => (t, currentOf d t))).wp crash
          (fun _ d'' => (save journalParent (r.inPhase intent intent.done)
            (some (journalSnapshot (r.inPhase intent intent.begun)))).wp crash
              (fun _ d'' => post (summary (some (r.inPhase intent intent.done))) d'') fail d'')
          fail d' := by
    intro d' hrecorded hj hnodes
    have hcurrent : (targetsOf r.targets).map (fun t => (t, currentOf d t)) =
        (targetsOf r.targets).map fun t => (t, currentOf d' t) :=
      List.map_congr_left fun t _ => by rw [currentOf_congr (hnodes t)]
    rw [hcurrent]
    refine wp_runTargets hrecorded (fun t ht => mem_targetsOf.mp ht) (targetsOf_nodup _) ?_ ?_
    · intro d'' hprogress
      exact hcrash _ _ hprogress.recorded (hprogress.journal.trans hj) hunfinished
    · intro d'' hprogress hdone _
      exact hfinish d'' hprogress.recorded (hprogress.journal.trans hj) fun t e ht =>
        hdone t (mem_targetsOf.mpr ⟨e, ht⟩) e ht
  have hchecked : ∀ d', Recorded offers d₀ d' (r.inPhase intent intent.begun) →
      Journaled d' (r.inPhase intent intent.begun) → (∀ t, d'.node t = d.node t) →
      (do
        if intent = .apply ∧ r.configParentWasAbsent = true then checkConfigParent
        runTargets journalParent (r.inPhase intent intent.begun)
          (journalSnapshot (r.inPhase intent intent.begun)) intent
          ((targetsOf r.targets).map fun t => (t, currentOf d t))
        let _ ← save journalParent (r.inPhase intent intent.done)
          (some (journalSnapshot (r.inPhase intent intent.begun)))
        pure (summary (some (r.inPhase intent intent.done))) : Transaction Summary).wp
          crash post fail d' := by
    intro d' hrecorded hj hnodes
    have hrest := hmain d' hrecorded hj hnodes
    split
    · next hcheck =>
      simp only [Call.wp_bind, Call.wp_pure]
      exact wp_checkConfigParent hrecorded hcheck.2 hrest
    · simp only [Call.wp_bind, Call.wp_pure]
      exact hrest
  simp only [run, Call.wp_bind]
  refine wp_states h.parents _ (fun t ht error herror => ?_) fun _ => ?_
  · obtain ⟨e, he⟩ := mem_targetsOf.mp ht
    rw [(h.state he).1] at herror
    cases herror
  rw [h.no_conflicts]
  simp only [ne_eq, not_true_eq_false, if_false]
  refine wp_save hbegun.valid hread ?_ ?_
  · intro hsame
    refine hchecked d hbegun ?_ fun _ => rfl
    have := (readFile_ok hread).1
    rw [hsame] at this
    exact this
  · have hput := hbegun.put_journal (fileOf (some (journalSnapshot (r.inPhase intent intent.begun))))
    have hjput := @Trusted.file_put d journalParent journalName
      (fileOf (some (journalSnapshot (r.inPhase intent intent.begun)))) hbegun.journalDir
    exact ⟨hcrash _ _ hput hjput hunfinished, hchecked _ hput hjput node_put_journal⟩

end Run

section Plans

variable {changes : Changes} {normalized : Target → Option Planned} {c : FileChange} {p : Planned}

theorem validateIdentity_valid {j : Json} {i : FileIdentity} (h : validateIdentity j = .ok i) :
    i.Valid := by
  unfold validateIdentity at h
  split at h
  · cases h
  split at h
  · split at h
    · next hvalid =>
      cases h
      simp only [Bool.and_eq_true, decide_eq_true_eq] at hvalid
      obtain ⟨⟨⟨hhash, hmode⟩, howner⟩, hgroup⟩ := hvalid
      exact ⟨hhash, hmode, howner, hgroup⟩
    · cases h
  · cases h

/-- What the journal records of an accepted change. -/
structure Accepted (c : FileChange) (p : Planned) : Prop where
  expected : ∀ i, p.expectedBefore = some i → i.Valid
  applied : p.applied = c.data.map fun data =>
    snapshot data c.mode processUid (c.gid.getD processGid)
  valid : ∀ s, p.applied = some s → s.Valid

theorem normalize_accepted (h : c.normalize = .ok p) : Accepted c p := by
  unfold FileChange.normalize at h
  split at h
  · next hvalid =>
    simp only [Bool.and_eq_true, Option.all_eq_true, decide_eq_true_eq] at hvalid
    obtain ⟨⟨hmode, hdata⟩, hgid⟩ := hvalid
    have happlied : ∀ s, c.data.map (fun data =>
        snapshot data c.mode processUid (c.gid.getD processGid)) = some s → s.Valid := by
      intro s hs
      obtain ⟨data, hc, rfl⟩ := Option.map_eq_some_iff.mp hs
      refine ⟨⟨data, hdata data hc, rfl⟩, hmode, rfl, ?_⟩
      show validInteger (c.gid.getD processGid) maxGid = true
      cases hg : c.gid with
      | none => decide
      | some g => exact hgid g hg
    cases hexpected : c.expected with
    | none =>
        simp only [hexpected, bind, Except.bind] at h
        cases h
        exact ⟨fun i hi => (by cases hi), rfl, happlied⟩
    | some i =>
        simp only [hexpected, bind, Except.bind] at h
        cases hi : validateIdentity i.toJson with
        | error e =>
            rw [hi] at h
            cases h
        | ok i' =>
            rw [hi] at h
            cases h
            refine ⟨?_, rfl, happlied⟩
            intro i'' hi'
            cases hi'
            exact validateIdentity_valid hi
  · cases h

/-- A target is planned exactly when the plan changes it. -/
def PlannedAs (changes : Changes) (normalized : Target → Option Planned) (t : Target) : Prop :=
  match changes t with
  | none => normalized t = none
  | some c => ∃ p, normalized t = some p ∧ Accepted c p

theorem normalizeAll_planned {ts : List Target} (h : normalizeAll changes ts = .ok normalized) :
    ∀ t, (t ∈ ts → PlannedAs changes normalized t) ∧ (t ∉ ts → normalized t = none) := by
  induction ts generalizing normalized with
  | nil =>
      cases h
      exact fun t => ⟨fun ht => (by cases ht), fun _ => rfl⟩
  | cons u rest ih =>
      cases hu : changes u with
      | none =>
          simp only [normalizeAll, hu] at h
          intro t
          obtain ⟨hin, hout⟩ := ih h t
          refine ⟨fun ht => ?_, fun ht => hout fun hr => ht (List.mem_cons_of_mem u hr)⟩
          by_cases hr : t ∈ rest
          · exact hin hr
          · obtain rfl : t = u := (List.mem_cons.mp ht).resolve_right hr
            simpa [PlannedAs, hu] using hout hr
      | some c =>
          simp only [normalizeAll, hu, bind, Except.bind] at h
          cases hc : c.normalize with
          | error e =>
              rw [hc] at h
              cases h
          | ok p =>
              simp only [hc] at h
              cases hrest : normalizeAll changes rest with
              | error e =>
                  rw [hrest] at h
                  cases h
              | ok n =>
                  rw [hrest] at h
                  cases h
                  intro t
                  obtain ⟨hin, hout⟩ := ih hrest t
                  by_cases ht : t = u
                  · subst ht
                    refine ⟨fun _ => ?_, fun hnot => absurd List.mem_cons_self hnot⟩
                    simpa [PlannedAs, hu] using normalize_accepted hc
                  · refine ⟨fun hmem => ?_, fun hnot => ?_⟩
                    · have hmem := hin ((List.mem_cons.mp hmem).resolve_left ht)
                      simpa [PlannedAs, Function.update_of_ne ht] using hmem
                    · rw [Function.update_of_ne ht]
                      exact hout fun hr => hnot (List.mem_cons_of_mem u hr)

theorem normalize_planned (h : normalize changes = .ok normalized) :
    (∀ t, PlannedAs changes normalized t) ∧ ∃ t, (normalized t).isSome = true := by
  unfold normalize at h
  split at h
  · cases h
  · next hsome =>
    have hplanned := fun t => (normalizeAll_planned h t).1 (Target.mem_all t)
    refine ⟨hplanned, ?_⟩
    simp only [List.all_eq_true, not_forall] at hsome
    obtain ⟨t, -, ht⟩ := hsome
    have hp := hplanned t
    cases hc : changes t with
    | none => simp [hc] at ht
    | some c =>
        simp only [PlannedAs, hc] at hp
        obtain ⟨p, hp, -⟩ := hp
        exact ⟨t, by simp [hp]⟩

/-- The entry of a planned target whose original meets its expectation is valid. -/
theorem Accepted.entry_valid (h : Accepted c p) {s : Option Snapshot} {file : Option File}
    (hread : readFile file maxFileBytes false = .ok s)
    (hidentity : s.map Snapshot.identity = p.expectedBefore) :
    Entry.Valid ⟨s, p.applied, p.expectedBefore⟩ where
  before a ha := by
    have ha : s = some a := ha
    obtain ⟨data, hlength, hdata, hmode, howner⟩ := (readFile_ok hread).2 a ha
    have hvalid := h.expected a.identity (by rw [← hidentity, ha]; rfl)
    exact ⟨⟨data, hlength, hdata⟩, hmode, howner, hvalid.2.2.2⟩
  applied := h.valid
  expected := hidentity.symm

theorem lookup_map {ts : List Target} {f : Target → Option Snapshot} (ht : t ∈ ts) :
    ((ts.map fun u => (u, f u)).lookup t).join = f t := by
  induction ts with
  | nil => cases ht
  | cons u rest ih =>
      by_cases htu : t = u
      · subst htu
        simp
      · have hne : (t == u) = false := by simpa using htu
        simpa [List.lookup, hne] using ih ((List.mem_cons.mp ht).resolve_left htu)

theorem newRecord_planned (absent : Bool) (states : List (Target × Option Snapshot)) :
    (newRecord normalized absent states).planned = normalized := by
  funext t
  cases hn : normalized t <;> simp [newRecord, Record.planned, hn]

/-- Every planned target can be read and is what the plan expects it to be. -/
def Expected (d : Disk) (normalized : Target → Option Planned) : Prop :=
  ∀ t ∈ targetsOf normalized, stateOf d t = .ok (currentOf d t) ∧
    (currentOf d t).map Snapshot.identity = (normalized t).bind Planned.expectedBefore

/-- The record of originals that meet the plan's expectations. -/
theorem newRecord_recorded (hp : Parents d) (hdir : Trusted d journalParent)
    (hlock : ∃ s, readFile (d.file journalParent lockName) 0 true = .ok (some s))
    (hnodes : ∀ t, d.node t = d₀.node t) (hoffer : offers changes)
    (hnormal : normalize changes = .ok normalized) {absent : Bool}
    (habsent : absent = true → d.dirs configParent = none ∧
      ∃ t, t.isConfig = true ∧ (normalized t).isSome = true)
    (hexpected : Expected d normalized) :
    Recorded offers d₀ d
      (newRecord normalized absent ((targetsOf normalized).map fun t => (t, currentOf d t))) := by
  obtain ⟨hplanned, hsome⟩ := normalize_planned hnormal
  have htarget : ∀ {t e}, (newRecord normalized absent
      ((targetsOf normalized).map fun t => (t, currentOf d t))).targets t = some e →
      ∃ p, normalized t = some p ∧ t ∈ targetsOf normalized ∧
        e = ⟨currentOf d t, p.applied, p.expectedBefore⟩ := by
    intro t e he
    obtain ⟨p, hn, rfl⟩ := Option.map_eq_some_iff.mp he
    have ht : t ∈ targetsOf normalized := mem_targetsOf.mpr ⟨p, hn⟩
    exact ⟨p, hn, ht, by rw [lookup_map ht]⟩
  have hrecorded : ∀ t, ((newRecord normalized absent
      ((targetsOf normalized).map fun t => (t, currentOf d t))).targets t).isSome =
        (normalized t).isSome := fun t => Option.isSome_map ..
  refine ⟨hp, ?_, rfl, hdir, hlock, ⟨changes, hoffer, ?_⟩,
    ?_, fun t => Or.inl (hnodes t), ?_⟩
  rotate_left
  · rw [newRecord_planned]
    exact hnormal
  rotate_left 2
  · constructor
    · obtain ⟨t, ht⟩ := hsome
      exact ⟨t, (hrecorded t).trans ht⟩
    · rfl
    · rfl
    · intro t ht
      cases ht
    · simp [newRecord]
    · intro t e he
      obtain ⟨p, hn, ht, rfl⟩ := htarget he
      have hp := hplanned t
      cases hc : changes t with
      | none =>
          simp only [PlannedAs, hc, hn] at hp
          cases hp
      | some c =>
          simp only [PlannedAs, hc, hn] at hp
          obtain ⟨p', hpp, haccepted⟩ := hp
          obtain rfl := Option.some.inj hpp
          refine haccepted.entry_valid (hexpected t ht).1 ?_
          rw [(hexpected t ht).2, hn]
          rfl
    · intro habs
      obtain ⟨hnone, u, hu, hsomeu⟩ := habsent habs
      refine ⟨⟨u, hu, (hrecorded u).trans hsomeu⟩, ?_⟩
      intro t e htc he
      obtain ⟨p, hn, ht, rfl⟩ := htarget he
      have hparent : t.parent = configParent := by
        revert htc
        cases t <;> simp [Target.isConfig, configParent, Target.parent]
      have hnode : d.node t = none := by
        simp [Disk.node, Disk.file, hparent, hnone]
      refine currentOf_ok ?_
      rw [stateOf, hnode]
      rfl
  · intro t e he
    obtain ⟨p, hn, ht, rfl⟩ := htarget he
    rw [← hnodes t]
    exact (readFile_ok (hexpected t ht).1).1.symm
  · intro habs mode uid files hconfig
    rw [(habsent habs).1] at hconfig
    cases hconfig

/-- Beginning a plan changes nothing yet. -/
theorem wp_beginPlan {post : Record → Disk → Prop} (hp : Parents d)
    (hdir : Trusted d journalParent)
    (hlock : ∃ s, readFile (d.file journalParent lockName) 0 true = .ok (some s))
    (hnodes : ∀ t, d.node t = d₀.node t) (hoffer : offers changes)
    (hnormal : normalize changes = .ok normalized) (hfail : ¬ Expected d normalized → ∀ e, fail e d)
    (hpost : ∀ r, Recorded offers d₀ d r → r.planned = normalized → Expected d normalized →
      post r d) :
    (beginPlan normalized).wp crash post fail d := by
  have hmain : ∀ absent : Bool, (absent = true → d.dirs configParent = none ∧
      ∃ t, t.isConfig = true ∧ (normalized t).isSome = true) →
      (states (targetsOf normalized)).wp crash (fun states d =>
        (if (states.filter fun c => c.2.map Snapshot.identity ≠
            (normalized c.1).bind Planned.expectedBefore) ≠ [] then
          throw (.conflict ((states.filter fun c => c.2.map Snapshot.identity ≠
            (normalized c.1).bind Planned.expectedBefore).map fun c => c.1.id))
        else pure (newRecord normalized absent states) : Transaction Record).wp crash post fail d)
        fail d := by
    intro absent habsent
    refine wp_states hp _ (fun t ht e he => hfail (fun h => ?_) e) fun hstates => ?_
    · rw [(h t ht).1] at he
      cases he
    split
    · next hsome =>
      refine (Call.wp_throw _).mpr (hfail (fun h => hsome ?_) _)
      rw [List.filter_eq_nil_iff]
      intro p hp
      obtain ⟨t, ht, rfl⟩ := List.mem_map.mp hp
      simpa using (h t ht).2
    · next hnone =>
      have hexpected : Expected d normalized := by
        intro t ht
        rw [ne_eq, Decidable.not_not, List.filter_eq_nil_iff] at hnone
        exact ⟨hstates t ht,
          by simpa using hnone (t, currentOf d t) (List.mem_map.mpr ⟨t, ht, rfl⟩)⟩
      exact (Call.wp_pure _).mpr (hpost _ (newRecord_recorded hp hdir hlock hnodes hoffer hnormal
        habsent hexpected) (newRecord_planned _ _) hexpected)
  simp only [beginPlan]
  split
  · next hconfig =>
    have hsome : ∃ t, t.isConfig = true ∧ (normalized t).isSome = true := by
      rcases Bool.or_eq_true _ _ ▸ hconfig with h | h
      · exact ⟨.enrollment, rfl, h⟩
      · exact ⟨.rescueBinding, rfl, h⟩
    simp only [Call.wp_bind, Call.wp_pure]
    rcases parents_cases hp Target.enrollment.parent_opened with htrusted | ⟨mode, hmode, hnone⟩
    · exact parent_trusted hp Target.enrollment.parent_opened htrusted
        (hmain false fun h => by cases h)
    · exact parent_absent hp Target.enrollment.parent_opened hmode hnone
        (hmain true fun _ => ⟨hnone, hsome⟩)
  · simp only [Call.wp_bind, Call.wp_pure]
    exact hmain false fun h => by cases h

end Plans

section Calls

variable {changes : Option Changes} {α : Type} {body : Option (List String) → Transaction α}
  {post : α → Disk → Prop} {create : Bool}

def LockHeld (d : Disk) : Prop :=
  ∃ s, readFile (d.file journalParent lockName) 0 true = .ok (some s)

/-- The lock can be taken, or created. -/
def LockUsable (d : Disk) : Prop :=
  ∀ e, readFile (d.file journalParent lockName) 0 true ≠ .error e

theorem LockHeld.usable (h : LockHeld d) : LockUsable d := by
  obtain ⟨s, hs⟩ := h
  intro e he
  rw [hs] at he
  cases he

theorem wp_transaction_held (hp : Parents d) (hdir : Trusted d journalParent) (hlock : LockHeld d)
    (hbody : (body (some journalParent)).wp crash post fail d) :
    (transaction create body).wp crash post fail d := by
  obtain ⟨s, hs⟩ := hlock
  simp only [transaction, Call.wp_bind]
  refine baseFd_trusted hp (parent_trusted hp journalParent_opened hdir ?_)
  simp only [Call.wp_bind, wp_read, Option.bind_some, hs, Option.isNone_some, Bool.false_and,
    Bool.false_eq_true, if_false]
  exact parent_trusted hp (by decide +kernel) (hp.fixed _ (by decide +kernel)) hbody

/-- No journal yet, and every target is its original. -/
structure Idle (d₀ d : Disk) : Prop where
  parents : Parents d
  journal : d.file journalParent journalName = none
  nodes : ∀ t, d.node t = d₀.node t

theorem Idle.recoverable (h : Idle d₀ d) : Recoverable offers d₀ d where
  parents := h.parents
  idle _ := h.nodes
  journaled f hf := by
    rw [h.journal] at hf
    cases hf

theorem Idle.put_lock (h : Idle d₀ d) (file : Option File) :
    Idle d₀ (d.put journalParent lockName file) where
  parents := h.parents.put _
  journal := (file_put_ne (Or.inr (by decide +kernel))).trans h.journal
  nodes t := (node_put_journal t).trans (h.nodes t)

theorem Idle.mkdir (h : Idle d₀ d) {path : List String} {mode : Int}
    (hmode : creatable path = some mode) (hnone : d.dirs path = none) :
    Idle d₀ (d.mkdir path mode) where
  parents := h.parents.mkdir hmode
  journal := (file_mkdir hnone _ _).trans h.journal
  nodes t := (file_mkdir hnone _ _).trans (h.nodes t)

def newLock : File :=
  .regular [] 0o600 processUid processGid 1

theorem readFile_newLock : ∃ s, readFile (some newLock) 0 true = .ok (some s) :=
  ⟨snapshot [] 0o600 processUid processGid, by decide +kernel⟩

/-- Without a journal the transaction's directory and lock are created first. -/
theorem wp_transaction_create (h : Idle d₀ d)
    (hcrash : ∀ d', Idle d₀ d' → (∀ t, d'.node t = d.node t) →
      (LockUsable d → LockUsable d') → crash d')
    (hfail : ¬ LockUsable d → ∀ e d', Idle d₀ d' → fail e d')
    (hbody : LockUsable d → ∀ d', Idle d₀ d' → (∀ t, d'.node t = d.node t) →
      Trusted d' journalParent → LockHeld d' →
        (body (some journalParent)).wp crash post fail d') :
    (transaction true body).wp crash post fail d := by
  have hlib : LockUsable d → ∀ d', Idle d₀ d' → (∀ t, d'.node t = d.node t) →
      Trusted d' journalParent → LockHeld d' → (parent ["var", "lib"] false).wp crash
        (fun _ d' => (body (some journalParent)).wp crash post fail d') fail d' := by
    intro husable d' hidle hnodes hdir hlock
    exact parent_trusted hidle.parents (by decide +kernel) (hidle.parents.fixed _ (by decide +kernel))
      (hbody husable d' hidle hnodes hdir hlock)
  have hopened : ∀ d', Idle d₀ d' → (∀ t, d'.node t = d.node t) → Trusted d' journalParent →
      d'.file journalParent lockName = d.file journalParent lockName →
      (read (some journalParent) lockName 0 true).wp crash (fun lockState d' =>
        (if (lockState.isNone && !true) = true then do
          let journal ← read (some journalParent) journalName maxJournalBytes true
          if journal.isSome then throw (.error "Journal has no transaction lock") else body none
        else do
          if lockState.isNone then
            Call.update fun d => d.put journalParent lockName (some newLock)
          let _ ← parent ["var", "lib"] false
          body (some journalParent) : Transaction α).wp crash post fail d') fail d' := by
    intro d' hidle hnodes hdir hlock
    rw [wp_read, Option.bind_some, hlock]
    cases hread : readFile (d.file journalParent lockName) 0 true with
    | error e => exact hfail (fun h => h e hread) e d' hidle
    | ok lockState =>
        have husable : LockUsable d := by
          intro e he
          rw [hread] at he
          cases he
        simp only [Bool.not_true, Bool.and_false, Bool.false_eq_true, if_false]
        cases lockState with
        | some s =>
            simp only [Option.isNone_some, Bool.false_eq_true, if_false, Call.wp_bind]
            exact hlib husable d' hidle hnodes hdir ⟨s, hlock ▸ hread⟩
        | none =>
            simp only [Option.isNone_none, if_true, Call.wp_bind, Call.wp_update]
            have hput := hidle.put_lock (some newLock)
            have hnodes' : ∀ t, (d'.put journalParent lockName (some newLock)).node t = d.node t :=
              fun t => (node_put_journal t).trans (hnodes t)
            have hheld : LockHeld (d'.put journalParent lockName (some newLock)) := by
              rw [LockHeld, hdir.file_put]
              exact readFile_newLock
            exact ⟨hcrash _ hput hnodes' fun _ => hheld.usable,
              hlib husable _ hput hnodes' (hdir.put _) hheld⟩
  simp only [transaction, Call.wp_bind]
  refine baseFd_trusted h.parents ?_
  rcases parents_cases h.parents journalParent_opened with htrusted | ⟨mode, hmode, hnone⟩
  · exact parent_trusted h.parents journalParent_opened htrusted
      (Call.wp_bind.mpr (hopened d h (fun _ => rfl) htrusted rfl))
  · have hnew := h.mkdir hmode hnone
    have hlock : (d.mkdir journalParent mode).file journalParent lockName =
        d.file journalParent lockName := file_mkdir hnone _ _
    refine parent_created h.parents journalParent_opened hmode hnone
      (hcrash _ hnew (fun t => file_mkdir hnone _ _) fun husable => ?_)
      (Call.wp_bind.mpr (hopened _ hnew (fun t => file_mkdir hnone _ _) (mkdir_trusted hmode) hlock))
    rw [LockUsable, hlock]
    exact husable

/-- A transaction that may not create anything changes nothing before its body. -/
theorem wp_transaction_idle (h : Idle d₀ d) (hfail : ∀ e, fail e d)
    (hnone : (body none).wp crash post fail d)
    (hsome : (body (some journalParent)).wp crash post fail d) :
    (transaction false body).wp crash post fail d := by
  simp only [transaction, Call.wp_bind]
  refine baseFd_trusted h.parents ?_
  rcases parents_cases h.parents journalParent_opened with htrusted | ⟨mode, hmode, habsent⟩
  · refine parent_trusted h.parents journalParent_opened htrusted ?_
    simp only [Call.wp_bind, wp_read, Option.bind_some]
    cases hread : readFile (d.file journalParent lockName) 0 true with
    | error e => exact hfail e
    | ok lockState =>
        cases lockState with
        | some s =>
            simp only [Option.isNone_some, Bool.false_and, Bool.false_eq_true, if_false,
              Call.wp_bind]
            exact parent_trusted h.parents (by decide +kernel)
              (h.parents.fixed _ (by decide +kernel)) hsome
        | none =>
            simp only [Option.isNone_none, Bool.not_false, Bool.and_self, if_true, Call.wp_bind,
              wp_read, Option.bind_some, h.journal, readFile, Option.isSome_none,
              Bool.false_eq_true, if_false]
            exact hnone
  · exact parent_absent h.parents journalParent_opened hmode habsent hnone

/-- The record is being applied, or has been restored. -/
def Forward (r : Record) : Prop :=
  r.intent = .apply ∨ r.phase = .restored

theorem wp_resume {normalized : Option (Target → Option Planned)} {post : Unit → Disk → Prop}
    (hfail : ¬ (Forward r ∧ ∀ n, normalized = some n → n = r.planned) → ∀ e, fail e d)
    (hpost : Forward r → (∀ n, normalized = some n → n = r.planned) → post () d) :
    (resume r normalized).wp crash post fail d := by
  have hplan : (normalized.any fun n => Target.all.any fun t => n t ≠ r.planned t) = false ↔
      ∀ n, normalized = some n → n = r.planned := by
    cases normalized with
    | none => simp
    | some n =>
        simp only [Option.any_some, List.any_eq_false, Target.mem_all, decide_eq_true_eq, ne_eq,
          Decidable.not_not, true_imp_iff, Option.some.injEq, forall_eq']
        exact funext_iff.symm
  have hdirection : ¬ (r.intent = .restore ∧ r.phase ≠ .restored) ↔ Forward r := by
    unfold Forward
    cases r.intent <;> simp
  unfold resume
  split
  · next hchanged =>
    refine (Call.wp_throw _).mpr (hfail (fun h => ?_) _)
    rw [hplan.mpr h.2] at hchanged
    cases hchanged
  split
  · next hbackwards =>
    exact (Call.wp_throw _).mpr (hfail (fun h => hdirection.mpr h.1 hbackwards) _)
  · next hsame hforwards =>
    exact (Call.wp_pure ()).mpr (hpost (hdirection.mp hforwards) (hplan.mp (by simpa using hsame)))

theorem wp_applyIn_journaled {normalized : Option (Target → Option Planned)}
    {post : Summary → Disk → Prop} (h : Recorded offers d₀ d r) (hj : Journaled d r)
    (hfail : ¬ (Forward r ∧ ∀ n, normalized = some n → n = r.planned) → ∀ e, fail e d)
    (hcrash : ∀ d' phase, Recorded offers d₀ d' (r.inPhase .apply phase) →
      Journaled d' (r.inPhase .apply phase) → crash d')
    (hpost : Forward r → (∀ n, normalized = some n → n = r.planned) →
      ∀ s d', Completed offers d₀ r .apply d' → post s d') :
    (applyIn normalized journalParent).wp crash post fail d := by
  simp only [applyIn, Call.wp_bind]
  refine wp_load h.valid hj ?_
  simp only [Call.wp_bind]
  refine wp_resume hfail fun hforward hplan => ?_
  refine wp_run h ?_ (fun d' phase hrecorded' hj' _ => hcrash d' phase hrecorded' hj')
    (hpost hforward hplan)
  rw [hj]
  exact readFile_journal h.valid

theorem wp_applyIn_idle {normalized : Target → Option Planned} {changes : Changes}
    {post : Summary → Disk → Prop} (h : Idle d₀ d) (hdir : Trusted d journalParent)
    (hlock : LockHeld d) (hoffer : offers changes) (hnormal : normalize changes = .ok normalized)
    (hfail : ¬ Expected d normalized → ∀ e, fail e d)
    (hcrash : ∀ r d', r.planned = normalized → r.intent = .apply →
      Recorded offers d₀ d' r → Journaled d' r → crash d')
    (hpost : Expected d normalized → ∀ r s d', r.planned = normalized →
      Completed offers d₀ r .apply d' → post s d') :
    (applyIn (some normalized) journalParent).wp crash post fail d := by
  simp only [applyIn, Call.wp_bind]
  refine wp_load_none h.journal ?_
  simp only [Call.wp_bind]
  refine wp_beginPlan h.parents hdir hlock h.nodes hoffer hnormal hfail
    fun r hrecorded hplan hexpected => ?_
  refine wp_run hrecorded ?_ (fun d' phase hrecorded' hj _ => ?_) fun s d' hdone => ?_
  · rw [h.journal]
    rfl
  · exact hcrash (r.inPhase .apply phase) d' hplan rfl hrecorded' hj
  · exact hpost hexpected r s d' hplan hdone

theorem Journaled.unique {r' : Record} (h : r.Valid) (h' : r'.Valid) (hj : Journaled d r)
    (hj' : Journaled d r') : r = r' := by
  have hfile := hj.symm.trans hj'
  simp only [journalSnapshot, fileOf_snapshot, Option.some.injEq, File.regular.injEq] at hfile
  have hdecode := decodeRecord_journalSnapshot h
  rw [journalSnapshot, hfile.1] at hdecode
  exact Except.ok.inj (hdecode.symm.trans (decodeRecord_journalSnapshot h'))

theorem Recoverable.cases (h : Recoverable offers d₀ d) :
    Idle d₀ d ∨ ∃ r, Recorded offers d₀ d r ∧ Journaled d r := by
  cases hf : d.file journalParent journalName with
  | none => exact Or.inl ⟨h.parents, hf, h.idle hf⟩
  | some f => exact Or.inr (h.journaled f hf)

theorem Idle.not_journaled (h : Idle d₀ d) : ¬ Journaled d r := by
  intro hj
  rw [Journaled, h.journal] at hj
  simp [journalSnapshot] at hj

/-- `apply` goes through with the plan: it begins one that meets the disk or goes
on with the recorded one. -/
def Applicable (offers : Changes → Prop) (d₀ : Disk) (changes : Option Changes)
    (plan : Target → Option Planned) (d : Disk) : Prop :=
  (∀ c, changes = some c → normalize c = .ok plan) ∧
    ((Idle d₀ d ∧ LockUsable d ∧ changes ≠ none ∧ Expected d plan) ∨
      ∃ r, Recorded offers d₀ d r ∧ Journaled d r ∧ Forward r ∧ r.planned = plan)

variable {plan plan' : Target → Option Planned}

theorem Applicable.unique (h : Applicable offers d₀ changes plan d)
    (h' : Applicable offers d₀ changes plan' d) : plan = plan' := by
  cases changes with
  | some c => exact Except.ok.inj ((h.1 c rfl).symm.trans (h'.1 c rfl))
  | none =>
      rcases h.2 with ⟨-, -, hnone, -⟩ | ⟨r, hrecorded, hj, -, rfl⟩
      · exact absurd rfl hnone
      rcases h'.2 with ⟨-, -, hnone, -⟩ | ⟨r', hrecorded', hj', -, rfl⟩
      · exact absurd rfl hnone
      rw [hj.unique hrecorded.valid hrecorded'.valid hj']

theorem wp_apply_normal {post : Summary → Disk → Prop}
    (hfail : (∃ c, changes = some c ∧ ∀ plan, normalize c ≠ .ok plan) → ∀ e, fail e d)
    (hbody : ∀ normalized, (changes = none ∧ normalized = none ∨
        ∃ c plan, changes = some c ∧ normalize c = .ok plan ∧ normalized = some plan) →
      (transaction true fun context =>
        match context with
        | none => throw (.error "File transaction I/O failed")
        | some journal => applyIn normalized journal).wp crash post fail d) :
    (apply changes).wp crash post fail d := by
  unfold apply
  cases changes with
  | none =>
      simp only [Call.wp_bind, Call.wp_pure]
      exact hbody none (Or.inl ⟨rfl, rfl⟩)
  | some c =>
      simp only [Call.wp_bind, Call.wp_ofExcept]
      cases hn : normalize c with
      | error e =>
          refine hfail ⟨c, rfl, fun plan hplan => ?_⟩ e
          rw [hn] at hplan
          cases hplan
      | ok n =>
          simp only [Call.wp_pure]
          exact hbody (some n) (Or.inr ⟨c, n, rfl, hn, rfl⟩)

/-- A plan is applied, or refused; interrupted, it can be applied again. -/
theorem wp_apply (h : Recoverable offers d₀ d) (hoffer : ∀ c, changes = some c → offers c) :
    (apply changes).wp
      (fun d' => Recoverable offers d₀ d' ∧ ∀ plan, Applicable offers d₀ changes plan d →
        Applicable offers d₀ changes plan d')
      (fun _ d' => ∃ r, Applicable offers d₀ changes r.planned d ∧ Completed offers d₀ r .apply d')
      (fun _ d' => Recoverable offers d₀ d' ∧ ∀ plan, ¬ Applicable offers d₀ changes plan d) d := by
  refine wp_apply_normal (fun ⟨c, hc, hnone⟩ e => ⟨h, fun plan ha => hnone plan (ha.1 c hc)⟩)
    fun normalized hn => ?_
  rcases h.cases with hidle | ⟨r, hrecorded, hj⟩
  · -- nothing is recorded yet, so a plan has to be given and to meet the disk
    have hidle_applicable : ∀ plan, Applicable offers d₀ changes plan d →
        LockUsable d ∧ changes ≠ none ∧ Expected d plan := by
      rintro plan ⟨-, ⟨-, ha⟩ | ⟨r, -, hj, -⟩⟩
      · exact ha
      · exact absurd hj hidle.not_journaled
    have hexpected_congr : ∀ {d' plan}, (∀ t, d'.node t = d.node t) →
        (Expected d' plan ↔ Expected d plan) := by
      intro d' plan hnodes
      have hstate : ∀ t, stateOf d' t = stateOf d t := fun t => by rw [stateOf, hnodes t, stateOf]
      simp only [Expected, hstate, currentOf_congr (hnodes _)]
    refine wp_transaction_create hidle (fun d' hidle' hnodes hlock => ⟨hidle'.recoverable, ?_⟩)
      (fun hlock e d' hidle' => ⟨hidle'.recoverable, fun plan ha => hlock (hidle_applicable plan ha).1⟩)
      fun husable d' hidle' hnodes hdir hlock => ?_
    · intro plan ha
      obtain ⟨husable, hsome, hexpected⟩ := hidle_applicable plan ha
      exact ⟨ha.1, Or.inl ⟨hidle', hlock husable, hsome, (hexpected_congr hnodes).mpr hexpected⟩⟩
    · rcases hn with ⟨hnone, rfl⟩ | ⟨c, plan, rfl, hplan, rfl⟩
      · simp only [applyIn, Call.wp_bind]
        refine wp_load_none hidle'.journal ((Call.wp_throw _).mpr ⟨hidle'.recoverable, ?_⟩)
        intro plan ha
        exact (hidle_applicable plan ha).2.1 hnone
      · have hgiven : ∀ c', some c = some c' → normalize c' = .ok plan := by
          intro c' hc
          cases hc
          exact hplan
        refine wp_applyIn_idle hidle' hdir hlock (hoffer c rfl) hplan (fun hnot e => ?_) ?_ ?_
        · refine ⟨hidle'.recoverable, fun plan' ha => hnot ((hexpected_congr hnodes).mpr ?_)⟩
          obtain rfl : plan' = plan := Except.ok.inj ((ha.1 c rfl).symm.trans hplan)
          exact (hidle_applicable plan' ha).2.2
        · intro r d'' hr hintent hrecorded hj
          refine ⟨hrecorded.recoverable hj, fun plan' ha => ⟨ha.1, Or.inr ⟨r, hrecorded, hj,
            Or.inl hintent, hr.trans ?_⟩⟩⟩
          exact Except.ok.inj (hplan.symm.trans (ha.1 c rfl))
        · intro hexpected r s d'' hr hdone
          subst hr
          exact ⟨r, ⟨hgiven, Or.inl ⟨hidle, husable, by simp, (hexpected_congr hnodes).mp hexpected⟩⟩,
            hdone⟩
  · have hrecorded_applicable : ∀ plan, Applicable offers d₀ changes plan d →
        Forward r ∧ r.planned = plan := by
      rintro plan ⟨-, ⟨hidle, -⟩ | ⟨r', hrecorded', hj', hforward, hplan⟩⟩
      · exact absurd hj hidle.not_journaled
      · rw [hj.unique hrecorded.valid hrecorded'.valid hj']
        exact ⟨hforward, hplan⟩
    refine wp_transaction_held hrecorded.parents hrecorded.journalDir hrecorded.lock ?_
    refine wp_applyIn_journaled hrecorded hj (fun hnot e => ⟨h, fun plan ha => hnot ?_⟩) ?_ ?_
    · obtain ⟨hforward, rfl⟩ := hrecorded_applicable plan ha
      refine ⟨hforward, fun n hn' => ?_⟩
      rcases hn with ⟨-, rfl⟩ | ⟨c, n', rfl, hc, rfl⟩
      · cases hn'
      · cases hn'
        exact Except.ok.inj (hc.symm.trans (ha.1 c rfl))
    · intro d' phase hrecorded' hj'
      refine ⟨hrecorded'.recoverable hj', fun plan ha => ⟨ha.1, Or.inr ⟨_, hrecorded', hj',
        Or.inl rfl, ?_⟩⟩⟩
      exact (hrecorded_applicable plan ha).2
    · intro hforward hplan s d' hdone
      refine ⟨r, ⟨fun c hc => ?_, Or.inr ⟨r, hrecorded, hj, hforward, rfl⟩⟩, hdone⟩
      rcases hn with ⟨hnone, -⟩ | ⟨c', n, hc', hnormal, rfl⟩
      · rw [hnone] at hc
        cases hc
      · rw [hc'] at hc
        cases hc
        rw [hnormal, hplan n rfl]

/-- A recorded plan is reversed. Without one nothing has to be. -/
theorem wp_restore (h : Recoverable offers d₀ d) :
    restore.wp (fun d' => Recoverable offers d₀ d' ∧
        (d.file journalParent journalName = none → d' = d) ∧
        (d.file journalParent journalName ≠ none → d'.file journalParent journalName ≠ none))
      (fun _ d' => Recoverable offers d₀ d' ∧ ∀ t, d'.node t = d₀.node t)
      (fun _ d' => d' = d ∧ d.file journalParent journalName = none) d := by
  rcases h.cases with hidle | ⟨r, hrecorded, hj⟩
  · refine wp_transaction_idle hidle (fun e => ⟨rfl, hidle.journal⟩)
      ((Call.wp_pure _).mpr ⟨h, hidle.nodes⟩) ?_
    simp only [Call.wp_bind]
    exact wp_load_none hidle.journal ((Call.wp_pure _).mpr ⟨h, hidle.nodes⟩)
  · refine wp_transaction_held hrecorded.parents hrecorded.journalDir hrecorded.lock ?_
    simp only [Call.wp_bind]
    refine wp_load hrecorded.valid hj (wp_run hrecorded ?_ ?_ ?_)
    · rw [hj]
      exact readFile_journal hrecorded.valid
    · intro d' phase hrecorded' hj' _
      have hsome : ∀ {d r}, Journaled d r → d.file journalParent journalName ≠ none := by
        intro d r hj
        rw [hj]
        simp [journalSnapshot]
      exact ⟨hrecorded'.recoverable hj', fun hnone => absurd hnone (hsome hj), fun _ => hsome hj'⟩
    · intro s d' hdone
      refine ⟨hdone.recorded.recoverable hdone.journal, fun t => ?_⟩
      cases ht : r.targets t with
      | none =>
          rcases hdone.recorded.target t with hnode | ⟨e, he, -⟩
          · exact hnode
          · have he : r.targets t = some e := he
            rw [ht] at he
            cases he
      | some e => exact (hdone.done t e ht).trans (hrecorded.original t e ht)

end Calls

end HccastWired.Install
