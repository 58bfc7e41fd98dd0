import HccastWired.Usb.GadgetRun

/-!
# A run and the gadgets that are there

The cleanup of a run looks at what is there, not at what the run has made. Where the run
finds no gadget of its name it takes down all that it has built; a gadget that is there
already is taken down too.
-/

namespace HccastWired.Usb

open Foundation

/-! ## Directories -/

namespace Tree

variable {t : Tree} {p q : FsPath}

theorem has_prefix (hq : t.has q = true) (h : p <+: q) : t.has p = true := by
  obtain ⟨rest, rfl⟩ := h
  induction rest using List.reverseRecOn with
  | nil => rwa [List.append_nil] at hq
  | append_singleton front last ih =>
      apply ih
      have hparent := t.closed _ hq
      rwa [← List.append_assoc, List.dropLast_concat] at hparent

theorem has_insert {h : t.has p.dropLast = true} :
    (t.insert p h).has q = true ↔ t.has q = true ∨ q = p := by
  simp [insert]

theorem has_insertAll_of_has {paths : List FsPath} (hq : t.has q = true) :
    (t.insertAll paths).has q = true := by
  induction paths generalizing t with
  | nil => exact hq
  | cons p rest ih =>
      rw [insertAll]
      split
      · exact ih (has_insert.mpr (Or.inl hq))
      · exact ih hq

theorem has_insertAll {paths : List FsPath} (hq : (t.insertAll paths).has q = true) :
    t.has q = true ∨ q ∈ paths := by
  induction paths generalizing t with
  | nil => exact Or.inl hq
  | cons p rest ih =>
      rw [insertAll] at hq
      split at hq
      · obtain hhas | hmem := ih hq
        · obtain hhas | rfl := has_insert.mp hhas
          · exact Or.inl hhas
          · exact Or.inr List.mem_cons_self
        · exact Or.inr (List.mem_cons_of_mem p hmem)
      · exact (ih hq).imp_right (List.mem_cons_of_mem p)

theorem has_insertAll_of_mem {paths : List FsPath}
    (hplace : ∀ p ∈ paths, t.has p.dropLast = true) (hq : q ∈ paths) :
    (t.insertAll paths).has q = true := by
  induction paths generalizing t with
  | nil => exact absurd hq List.not_mem_nil
  | cons p rest ih =>
      rw [insertAll, dif_pos (hplace p List.mem_cons_self)]
      obtain rfl | hrest := List.mem_cons.mp hq
      · exact has_insertAll_of_has (has_insert.mpr (Or.inr rfl))
      · apply ih
        · intro r hr
          exact has_insert.mpr (Or.inl (hplace r (List.mem_cons_of_mem p hr)))
        · exact hrest

theorem has_of_has_remove (hq : (t.remove p).has q = true) : t.has q = true :=
  (Bool.and_eq_true_iff.mp hq).1

theorem not_has_remove : (t.remove p).has p = false := by
  simp [remove]

end Tree

theorem prefix_of_mem_ancestors {p q : FsPath} (h : q ∈ ancestors p) : q <+: p.dropLast :=
  (List.mem_inits q p.dropLast).mp h

/-! ## What a run leaves -/

/-- Something is there. -/
def Board.present (b : Board) : Made → Bool
  | .dir p => b.dirs.has p
  | .link p => b.links p
  | .mount target fsType => decide ((target, fsType) ∈ b.mounts)

/-- The entry of `/proc/mounts` that counts for a target. -/
def Board.entryAt (b : Board) (target : FsPath) : Option (FsPath × String) :=
  b.mounts.find? fun entry => entry.1 = target

namespace Gadget

variable (g : Gadget)

/-- The controller that the gadget is bound to, empty without one. -/
def binding (b : Board) : String :=
  if b.dirs.has g.root then b.udc else ""

/-- The gadget is as it was. -/
structure Unchanged (s b : Board) : Prop where
  binding : g.binding b = g.binding s
  link : b.links g.link = s.links g.link
  mounts : b.mounts.filter (fun entry => entry.1 = g.resolved) =
    s.mounts.filter fun entry => entry.1 = g.resolved
  dirs : ∀ p, g.root <+: p → b.dirs.has p = s.dirs.has p

/-- The run has undone what it has made, but for what the kernel has refused to remove. -/
structure Released (b : Board) : Prop where
  closed : b.early = false
  unbound : g.binding b = ""
  gone : ∀ m ∈ b.made, b.present m = true → m ∈ b.refused

/-- The run that began in the first state has touched its own gadget only. -/
def OwnGadget (s b : Board) : Prop :=
  (s.dirs.has g.root = true → g.Unchanged s b) ∧ (s.dirs.has g.root = false → g.Released b)

/-- No gadget of the name is there, and what the cleanup does not look at is as the cleanup
expects it: ConfigFS is mounted, the mountpoint has a directory to be in, `/proc/mounts`
can be read and shows the mountpoint, no signal comes while the endpoints are opened,
and of the removals only those of directories and mounts are refused. -/
structure Undisturbed (k : KernelAnswers) (s : Board) : Prop where
  absent : s.dirs.has g.root = false
  configfs : s.dirs.has configfs = true
  configfsMounted : s.entryAt Usb.configfs = some (Usb.configfs, "configfs")
  mountpoint : s.dirs.has g.mountpoint.dropLast = true
  resolved : ∀ entry, s.entryAt g.resolved = some entry → entry.2 = "functionfs"
  plain : g.plain = true
  readable : ∀ i, k.readMounts i = .text
  opened : ∀ i, k.openingInterrupted i = false
  unbinds : ∀ i, k.refusesUnbind i = false
  unlinks : ∀ i, k.refusesUnlink i = false
  umounts : ∀ i, k.umount i ≠ .notStarted

/-! ## Building -/

/-- What the cleanup takes down, the last first. -/
def parts : List Made :=
  [.dir g.root, .dir (g.root ++ ["strings"]), .dir g.deviceStrings,
    .dir (g.root ++ ["functions"]), .dir (g.root ++ ["configs"]), .dir g.config,
    .dir g.configStrings, .dir g.function, .dir g.mountpoint,
    .mount g.resolved "functionfs", .link g.link]

/-- Where the run has mounted something, nothing else is mounted there. -/
def OwnMount (b : Board) : Prop :=
  .mount g.resolved "functionfs" ∈ b.made →
    (b.mounts.filter fun entry => entry.1 = g.resolved) = [(g.resolved, "functionfs")]

/-- What holds at every point before the cleanup. -/
structure Building (b : Board) : Prop where
  cleaning : b.cleaning = false
  early : b.early = false
  made : ∀ m ∈ b.made, m ∈ g.parts
  ownMount : g.OwnMount b
  resolved : ∀ entry, b.entryAt g.resolved = some entry → entry.2 = "functionfs"
  ep0 : b.ep0 = true → b.control = true
  endpoints : b.endpoints = true → b.transport = true
  configfs : b.dirs.has configfs = true
  configfsMounted : b.entryAt Usb.configfs = some (Usb.configfs, "configfs")
  mountpoint : b.dirs.has g.mountpoint.dropLast = true

/-- Every directory of the gadget has those that the kernel adds. -/
structure Grown (b : Board) : Prop extends Building g b where
  groups : ∀ p, b.dirs.has p = true → ∀ q ∈ g.groups p, b.dirs.has q = true

variable {g} {k : KernelAnswers} {s b : Board} {I F : Board → Prop} {p : FsPath}

theorem dropLast_of_mem_groups {q : FsPath} (h : q ∈ g.groups p) : q.dropLast = p := by
  rw [groups] at h
  split at h
  · simp only [List.mem_cons, List.not_mem_nil, or_false] at h
    obtain rfl | rfl | rfl := h
    all_goals exact List.dropLast_concat
  · split at h
    · rw [List.mem_singleton.mp h]
      exact List.dropLast_concat
    · exact absurd h List.not_mem_nil

theorem groups_of_mem_groups {q : FsPath} (h : q ∈ g.groups p) : g.groups q = [] := by
  rw [groups] at h
  split at h
  · simp only [List.mem_cons, List.not_mem_nil, or_false] at h
    obtain rfl | rfl | rfl := h
    all_goals subst p; simp [groups, config, root]
  · split at h
    · rw [List.mem_singleton.mp h]
      subst p
      simp [groups, config, root]
    · exact absurd h List.not_mem_nil

/-! ### Steps of the setup -/

theorem Building.makeDir (h : g.Building b) (hpart : .dir p ∈ g.parts)
    (hplace : b.dirs.has p.dropLast = true) : g.Building (b.makeDir g p hplace) :=
  { h with
    made := by
      intro m hm
      obtain rfl | hm := List.mem_cons.mp hm
      · exact hpart
      · exact h.made m hm
    ownMount := by
      intro hm
      obtain hm | hm := List.mem_cons.mp hm
      · cases hm
      · exact h.ownMount hm
    configfs := Tree.has_insertAll_of_has (Tree.has_insert.mpr (Or.inl h.configfs))
    mountpoint := Tree.has_insertAll_of_has (Tree.has_insert.mpr (Or.inl h.mountpoint)) }

theorem Grown.makeDir (h : g.Grown b) (hpart : .dir p ∈ g.parts)
    (hplace : b.dirs.has p.dropLast = true) : g.Grown (b.makeDir g p hplace) where
  toBuilding := h.toBuilding.makeDir hpart hplace
  groups := by
    intro q hq r hr
    change ((b.dirs.insert p hplace).insertAll (g.groups p)).has q = true at hq
    change ((b.dirs.insert p hplace).insertAll (g.groups p)).has r = true
    obtain hq | hq := Tree.has_insertAll hq
    · obtain hq | rfl := Tree.has_insert.mp hq
      · apply Tree.has_insertAll_of_has
        exact Tree.has_insert.mpr (Or.inl (h.groups q hq r hr))
      · apply Tree.has_insertAll_of_mem
        · intro r hr
          rw [dropLast_of_mem_groups hr]
          exact Tree.has_insert.mpr (Or.inr rfl)
        · exact hr
    · rw [groups_of_mem_groups hq] at hr
      exact absurd hr List.not_mem_nil

/-- Where the gadget is not there yet, there is nothing to add. -/
theorem Building.grown (h : g.Building b) (habsent : b.dirs.has g.root = false) : g.Grown b where
  toBuilding := h
  groups := by
    intro p hp q hq
    have hroot : ¬ g.root <+: p := by
      intro hprefix
      rw [Tree.has_prefix hp hprefix] at habsent
      cases habsent
    have hnone : g.groups p = [] := by
      rw [Gadget.groups, if_neg, if_neg]
      · rintro rfl
        apply hroot
        rw [config, List.append_assoc]
        exact List.prefix_append g.root _
      · rintro rfl
        exact hroot (List.prefix_refl _)
    rw [hnone] at hq
    exact absurd hq List.not_mem_nil

/-- A property that the setup keeps while it asks the kernel. -/
structure Stage (I F : Board → Prop) : Prop where
  weaken : ∀ b, I b → F b
  next : ∀ b n, I b → I { b with index := n }

theorem stage_building : Stage g.Building g.Building where
  weaken _ h := h
  next _ _ h := { h with cleaning := h.cleaning }

theorem stage_grown : Stage g.Grown g.Building where
  weaken _ h := h.toBuilding
  next _ _ h := { h with cleaning := h.cleaning }

/-- A fact about the tree or the variables may be added to a stage. -/
theorem Stage.and {J : Board → Prop} (h : Stage I F)
    (hJ : ∀ b n, J b → J { b with index := n }) : Stage (fun b => I b ∧ J b) F where
  weaken b hb := h.weaken b hb.1
  next b n hb := ⟨h.next b n hb.1, hJ b n hb.2⟩

namespace Stage

theorem triple_next (h : Stage I F) :
    Task.Triple I (Usb.next k) (fun _ => I) fun _ => F := by
  apply Task.Triple.bindGet
  intro b hb
  apply @Task.Triple.bind _ _ _ _ _ _ _ (fun _ => I)
  · apply Task.Triple.update
    rintro t ⟨_, ht⟩
    exact h.next t _ ht
  · intro _
    apply @Task.Triple.bind _ _ _ _ _ _ _ (fun _ => I)
    · exact Task.Triple.refuse (fun _ t ht => h.weaken t ht) fun _ _ ht => ht
    · exact fun _ => Task.Triple.pure fun _ ht => ht

theorem triple_attempt (h : Stage I F) :
    Task.Triple I (attempt k) (fun _ => I) fun _ => F :=
  Task.Triple.bind h.triple_next fun _ =>
    Task.Triple.refuse (fun _ t ht => h.weaken t ht) fun _ _ ht => ht

theorem triple_writeAttributes (h : Stage I F) (count : Nat) :
    Task.Triple I (writeAttributes k count) (fun _ => I) fun _ => F := by
  induction count with
  | zero => exact Task.Triple.pure fun _ ht => ht
  | succ count ih => exact Task.Triple.bind h.triple_attempt fun _ => ih

/-- A directory that is made was not there, and what it is in was. -/
theorem triple_mkdir (h : Stage I F) {Q : Board → Prop}
    (hmade : ∀ b (hplace : b.dirs.has p.dropLast = true), I b → b.dirs.has p = false →
      Q (b.makeDir g p hplace)) :
    Task.Triple I (mkdir k g p) (fun _ => Q) fun _ => F := by
  apply Task.Triple.bind h.triple_next
  intro i
  apply Task.Triple.bindGet
  intro b hb
  split
  · exact Task.Triple.raise fun t ht => h.weaken t ht.2
  · rename_i habsent
    split
    · rename_i hplace
      split
      · exact Task.Triple.raise fun t ht => h.weaken t ht.2
      · exact Task.Triple.update fun _ _ =>
          hmade b hplace hb (Bool.not_eq_true _ ▸ habsent)
    · exact Task.Triple.raise fun t ht => h.weaken t ht.2

theorem triple_mkdirMissing (h : Stage I F) {paths : List FsPath}
    (hmade : ∀ p ∈ paths, ∀ b (hplace : b.dirs.has p.dropLast = true), I b →
      b.dirs.has p = false → I (b.makeDir g p hplace)) :
    Task.Triple I (mkdirMissing k g paths) (fun _ => I) fun _ => F := by
  induction paths with
  | nil => exact Task.Triple.pure fun _ ht => ht
  | cons p rest ih =>
      apply Task.Triple.bindGet
      intro b _
      apply @Task.Triple.bind _ _ _ _ _ _ _ (fun _ => I)
      · apply Task.Triple.when
        · intro _
          exact (h.triple_mkdir (hmade p List.mem_cons_self)).pre fun _ ht => ht.2
        · exact fun _ _ ht => ht.2
      · exact fun _ => ih fun q hq => hmade q (List.mem_cons_of_mem p hq)

theorem triple_isMounted (h : Stage I F) (hreadable : ∀ i, k.readMounts i = .text)
    (target : FsPath) (plain : Bool) (fsType : String) :
    Task.Triple I (isMounted k target plain fsType)
      (fun mounted b => I b ∧
        mounted = (plain && (b.entryAt target).any fun entry => entry.2 = fsType))
      fun _ => F := by
  apply Task.Triple.bind h.triple_next
  intro i
  apply Task.Triple.bindGet
  intro b hb
  rw [hreadable i]
  apply Task.Triple.pure
  rintro t ⟨rfl, ht⟩
  exact ⟨ht, rfl⟩

end Stage

/-! ### The setup -/

theorem triple_ensureConfigfs (u : g.Undisturbed k s) :
    Task.Triple g.Building (ensureConfigfs k g) (fun _ => g.Building) fun _ => g.Building := by
  apply Task.Triple.bind stage_building.triple_attempt
  intro _
  apply @Task.Triple.bind _ _ _ _ _ _ _ (fun _ => g.Building)
  · apply stage_building.triple_mkdirMissing
    intro p hp b _ hb habsent
    have hprefix : p <+: configfs := by
      obtain hp | hp := List.mem_append.mp hp
      · exact (prefix_of_mem_ancestors hp).trans (List.dropLast_prefix configfs)
      · exact List.mem_singleton.mp hp ▸ List.prefix_refl configfs
    rw [Tree.has_prefix hb.configfs hprefix] at habsent
    cases habsent
  · intro _
    apply Task.Triple.bind (stage_building.triple_isMounted u.readable configfs true "configfs")
    intro mounted
    apply @Task.Triple.bind _ _ _ _ _ _ _ (fun _ => g.Building)
    · apply Task.Triple.when
      · intro hunmounted t ht
        rw [ht.2, ht.1.configfsMounted] at hunmounted
        cases hunmounted
      · exact fun _ t ht => ht.1
    · intro _
      apply Task.Triple.bindGet
      intro b _
      apply @Task.Triple.bind _ _ _ _ _ _ _ (fun _ => g.Building)
      · apply Task.Triple.when
        · intro _
          apply @Task.Triple.bind _ _ _ _ _ _ _ (fun _ => g.Building)
          · exact stage_building.triple_attempt.pre fun t ht => ht.2
          · intro _
            apply Task.Triple.bind stage_building.triple_next
            intro i
            apply Task.Triple.update
            intro t ht
            exact { ht with
              configfs := Bool.or_eq_true_iff.mpr (Or.inl ht.configfs)
              mountpoint := Bool.or_eq_true_iff.mpr (Or.inl ht.mountpoint) }
        · exact fun _ t ht => ht.2
      · intro _
        apply Task.Triple.bindGet
        intro t _
        exact Task.Triple.refuse (fun _ t ht => ht.2) fun _ t ht => ht.2

/-- Below the directories that the kernel adds, the run makes its own. -/
theorem triple_makeParts :
    Task.Triple (fun b => g.Grown b ∧ b.dirs.has g.root = true)
      (do
        writeAttributes k 7
        mkdirParents k g g.deviceStrings
        writeAttributes k 3
        mkdirParents k g g.configStrings
        writeAttributes k 3
        mkdirParents k g g.function)
      (fun _ b => g.Grown b ∧ b.dirs.has g.root = true) fun _ => g.Building := by
  have stage : Stage (fun b => g.Grown b ∧ b.dirs.has g.root = true) g.Building :=
    stage_grown.and fun _ _ h => h
  have hkeep : ∀ p, .dir p ∈ g.parts → ∀ b (hplace : b.dirs.has p.dropLast = true),
      g.Grown b ∧ b.dirs.has g.root = true → b.dirs.has p = false →
      g.Grown (b.makeDir g p hplace) ∧ (b.makeDir g p hplace).dirs.has g.root = true :=
    fun p hp b hplace hb _ => ⟨hb.1.makeDir hp hplace,
      Tree.has_insertAll_of_has (Tree.has_insert.mpr (Or.inl hb.2))⟩
  have hadded : ∀ (b : Board) (x : String), g.Grown b ∧ b.dirs.has g.root = true →
      x ∈ ["configs", "functions", "strings"] → b.dirs.has (g.root ++ [x]) = true := by
    intro b x hb hx
    apply hb.1.groups g.root hb.2
    simp only [List.mem_cons, List.not_mem_nil, or_false] at hx
    obtain rfl | rfl | rfl := hx
    all_goals simp [groups]
  apply Task.Triple.bind (stage.triple_writeAttributes 7)
  intro _
  apply @Task.Triple.bind _ _ _ _ _ _ _ (fun _ b => g.Grown b ∧ b.dirs.has g.root = true)
  · apply @Task.Triple.bind _ _ _ _ _ _ _ (fun _ b => g.Grown b ∧ b.dirs.has g.root = true)
    · apply stage.triple_mkdirMissing
      intro p hp b _ hb habsent
      have hprefix : p <+: g.root ++ ["strings"] := by
        have hparent := prefix_of_mem_ancestors hp
        rwa [deviceStrings, List.dropLast_concat] at hparent
      rw [Tree.has_prefix (hadded b "strings" hb (by simp)) hprefix] at habsent
      cases habsent
    · exact fun _ => stage.triple_mkdir (hkeep g.deviceStrings (by simp [parts]))
  intro _
  apply Task.Triple.bind (stage.triple_writeAttributes 3)
  intro _
  apply @Task.Triple.bind _ _ _ _ _ _ _ (fun _ b => g.Grown b ∧ b.dirs.has g.root = true)
  · apply @Task.Triple.bind _ _ _ _ _ _ _ (fun _ b => g.Grown b ∧ b.dirs.has g.root = true)
    · apply stage.triple_mkdirMissing
      intro p hp b hplace hb habsent
      have hprefix : p <+: g.config ++ ["strings"] := by
        have hparent := prefix_of_mem_ancestors hp
        rwa [configStrings, List.dropLast_concat] at hparent
      obtain rfl | hprefix := List.prefix_concat_iff.mp hprefix
      · -- the kernel adds these strings with the configuration
        have hgroup : b.dirs.has (g.config ++ ["strings"]) = true := by
          rw [List.dropLast_concat] at hplace
          apply hb.1.groups g.config hplace
          simp [groups, config, root]
        rw [hgroup] at habsent
        cases habsent
      · obtain rfl | hprefix := List.prefix_concat_iff.mp hprefix
        · exact hkeep g.config (by simp [parts]) b hplace hb habsent
        · rw [Tree.has_prefix (hadded b "configs" hb (by simp)) hprefix] at habsent
          cases habsent
    · exact fun _ => stage.triple_mkdir (hkeep g.configStrings (by simp [parts]))
  intro _
  apply Task.Triple.bind (stage.triple_writeAttributes 3)
  intro _
  apply @Task.Triple.bind _ _ _ _ _ _ _ (fun _ b => g.Grown b ∧ b.dirs.has g.root = true)
  · apply stage.triple_mkdirMissing
    intro p hp b _ hb habsent
    have hprefix : p <+: g.root ++ ["functions"] := by
      have hparent := prefix_of_mem_ancestors hp
      rwa [function, List.dropLast_concat] at hparent
    rw [Tree.has_prefix (hadded b "functions" hb (by simp)) hprefix] at habsent
    cases habsent
  · exact fun _ => stage.triple_mkdir (hkeep g.function (by simp [parts]))

theorem triple_create (u : g.Undisturbed k s) :
    Task.Triple g.Building (create k g) (fun _ => g.Building) fun _ => g.Building := by
  apply Task.Triple.bind (triple_ensureConfigfs u)
  intro _
  apply Task.Triple.bindGet
  intro b hb
  apply @Task.Triple.bind _ _ _ _ _ _ _ (fun _ b => g.Building b ∧ b.dirs.has g.root = false)
  · apply Task.Triple.refuse
    · exact fun _ t ht => ht.2
    · rintro habsent t ⟨rfl, ht⟩
      exact ⟨ht, habsent⟩
  · intro _
    apply @Task.Triple.bind _ _ _ _ _ _ _ (fun _ b => g.Grown b ∧ b.dirs.has g.root = true)
    · apply (stage_building.and fun _ _ h => h).triple_mkdir
      intro t hplace ht _
      constructor
      · exact (ht.1.grown ht.2).makeDir (by simp [parts]) hplace
      · exact Tree.has_insertAll_of_has (Tree.has_insert.mpr (Or.inr rfl))
    · exact fun _ => triple_makeParts.post fun _ t ht => ht.1.toBuilding

theorem triple_mountFunctionfs (u : g.Undisturbed k s) :
    Task.Triple g.Building (mountFunctionfs k g) (fun _ => g.Building) fun _ => g.Building := by
  apply @Task.Triple.bind _ _ _ _ _ _ _ (fun _ => g.Building)
  · apply stage_building.triple_mkdirMissing
    intro p hp b hplace hb habsent
    obtain hp | hp := List.mem_append.mp hp
    · rw [Tree.has_prefix hb.mountpoint (prefix_of_mem_ancestors hp)] at habsent
      cases habsent
    · obtain rfl := List.mem_singleton.mp hp
      exact hb.makeDir (by simp [parts]) hplace
  · intro _
    apply Task.Triple.bind
      (stage_building.triple_isMounted u.readable g.resolved g.plain "functionfs")
    intro mounted
    apply Task.Triple.when
    · intro hunmounted
      apply @Task.Triple.bind _ _ _ _ _ _ _
        (fun _ b => g.Building b ∧ b.entryAt g.resolved = none)
      · apply ((stage_building.and fun _ _ h => h).triple_attempt).pre
        rintro t ⟨ht, hmounted⟩
        refine ⟨ht, ?_⟩
        rw [Option.eq_none_iff_forall_ne_some]
        intro entry hentry
        rw [hmounted, u.plain, hentry] at hunmounted
        simp [ht.resolved entry hentry] at hunmounted
      · intro _
        apply Task.Triple.update
        rintro t ⟨ht, hnone⟩
        have hfilter : (t.mounts.filter fun entry => entry.1 = g.resolved) = [] := by
          rw [List.filter_eq_nil_iff]
          exact fun entry hentry => List.find?_eq_none.mp hnone entry hentry
        have hentry : ∀ target entry, t.entryAt target = some entry →
            (t.mounts ++ [(g.resolved, "functionfs")]).find?
              (fun entry => entry.1 = target) = some entry := by
          intro target entry hentry
          rw [List.find?_append, ← Board.entryAt, hentry]
          rfl
        exact { ht with
          made := by
            intro m hm
            obtain rfl | hm := List.mem_cons.mp hm
            · simp [parts]
            · exact ht.made m hm
          ownMount := by
            intro _
            rw [List.filter_append, hfilter]
            simp
          resolved := by
            intro entry hentry
            rw [Board.entryAt, List.find?_append, ← Board.entryAt, hnone] at hentry
            simp at hentry
            rw [← hentry]
          configfsMounted := hentry configfs _ ht.configfsMounted }
    · exact fun _ t ht => ht.1

theorem triple_openControl :
    Task.Triple g.Building (openControl k) (fun _ => g.Building) fun _ => g.Building := by
  have stage : Stage (fun b => g.Building b ∧ b.control = true) g.Building :=
    stage_building.and fun _ _ h => h
  apply @Task.Triple.bind _ _ _ _ _ _ _ (fun _ b => g.Building b ∧ b.control = true)
  · exact Task.Triple.update fun t ht => ⟨{ ht with ep0 := fun _ => rfl }, rfl⟩
  · intro _
    apply Task.Triple.bind stage.triple_attempt
    intro _
    apply @Task.Triple.bind _ _ _ _ _ _ _ (fun _ b => g.Building b ∧ b.control = true)
    · exact Task.Triple.update fun t ht => ⟨{ ht.1 with ep0 := fun _ => ht.2 }, ht.2⟩
    · intro _
      apply Task.Triple.bind stage.triple_next
      intro i
      split
      · apply @Task.Triple.bind _ _ _ _ _ _ _ (fun _ => g.Building)
        · exact Task.Triple.update fun t ht =>
            { ht.1 with ep0 := fun hopen => absurd hopen Bool.false_ne_true }
        · exact fun _ => Task.Triple.raise fun t ht => ht
      · exact Task.Triple.pure fun t ht => ht.1

theorem triple_linkFunction :
    Task.Triple g.Building (linkFunction k g) (fun _ => g.Building) fun _ => g.Building := by
  apply Task.Triple.bindGet
  intro b _
  apply Task.Triple.when
  · intro _
    apply @Task.Triple.bind _ _ _ _ _ _ _ (fun _ => g.Building)
    · exact stage_building.triple_attempt.pre fun t ht => ht.2
    · intro _
      apply Task.Triple.update
      intro t ht
      exact { ht with
        made := by
          intro m hm
          obtain rfl | hm := List.mem_cons.mp hm
          · simp [parts]
          · exact ht.made m hm
        ownMount := by
          intro hm
          obtain hm | hm := List.mem_cons.mp hm
          · cases hm
          · exact ht.ownMount hm }
  · exact fun _ t ht => ht.2

theorem triple_bind :
    Task.Triple g.Building (bind k) (fun _ => g.Building) fun _ => g.Building := by
  apply Task.Triple.bindGet
  intro b _
  apply Task.Triple.when
  · intro _
    apply @Task.Triple.bind _ _ _ _ _ _ _ (fun _ => g.Building)
    · exact stage_building.triple_next.pre fun t ht => ht.2
    · intro i
      apply @Task.Triple.bind _ _ _ _ _ _ _ (fun _ => g.Building)
      · exact Task.Triple.ofAnswer (fun _ _ _ ht => ht) fun _ _ _ ht => ht
      · intro udc
        apply Task.Triple.bind stage_building.triple_attempt
        intro _
        apply @Task.Triple.bind _ _ _ _ _ _ _ (fun _ => g.Building)
        · exact Task.Triple.update fun t ht => { ht with cleaning := ht.cleaning }
        · intro _
          apply Task.Triple.bind stage_building.triple_next
          intro _
          exact Task.Triple.update fun t ht => { ht with cleaning := ht.cleaning }
  · exact fun _ t ht => ht.2

theorem triple_unbind :
    Task.Triple g.Building (unbind k g) (fun _ => g.Building) fun _ => g.Building := by
  apply Task.Triple.bindGet
  intro b _
  apply Task.Triple.when
  · intro _
    apply @Task.Triple.bind _ _ _ _ _ _ _ (fun _ => g.Building)
    · exact stage_building.triple_next.pre fun t ht => ht.2
    · intro i
      apply @Task.Triple.bind _ _ _ _ _ _ _ (fun _ => g.Building)
      · apply Task.Triple.when
        · intro _
          exact Task.Triple.update fun t ht => { ht with cleaning := ht.cleaning }
        · exact fun _ t ht => ht
      · intro _
        exact Task.Triple.update fun t ht => { ht with cleaning := ht.cleaning }
  · exact fun _ t ht => ht.2

theorem triple_reenumerateAsAoa :
    Task.Triple g.Building (reenumerateAsAoa k g) (fun _ => g.Building) fun _ => g.Building := by
  apply Task.Triple.bind triple_unbind
  intro _
  apply Task.Triple.bind stage_building.triple_attempt
  intro _
  apply Task.Triple.bindGet
  intro b _
  apply @Task.Triple.bind _ _ _ _ _ _ _ (fun _ => g.Building)
  · exact Task.Triple.refuse (fun _ t ht => ht.2) fun _ t ht => ht.2
  · intro _
    apply Task.Triple.bind (stage_building.triple_writeAttributes 4)
    exact fun _ => triple_bind

/-- Between the first endpoint and the transport nothing can stop the run. -/
theorem triple_openTransport (u : g.Undisturbed k s) :
    Task.Triple g.Building (openTransport k) (fun _ => g.Building) fun _ => g.Building := by
  apply Task.Triple.bind stage_building.triple_attempt
  intro _
  apply @Task.Triple.bind _ _ _ _ _ _ _ (fun _ b => g.Building { b with transport := true })
  · exact Task.Triple.update fun t ht => { ht with endpoints := fun _ => rfl }
  · intro _
    apply Task.Triple.bindGet
    intro b _
    apply @Task.Triple.bind _ _ _ _ _ _ _ (fun _ b => g.Building { b with transport := true })
    · apply Task.Triple.refuse
      · intro hinterrupted
        rw [u.opened] at hinterrupted
        cases hinterrupted
      · exact fun _ t ht => ht.2
    · intro _
      split
      · apply @Task.Triple.bind _ _ _ _ _ _ _ (fun _ => g.Building)
        · exact Task.Triple.update fun t ht =>
            { ht with endpoints := fun hopen => absurd hopen Bool.false_ne_true }
        · exact fun _ => Task.Triple.raise fun t ht => ht
      · exact Task.Triple.update fun t ht => ht

theorem triple_body (u : g.Undisturbed k s) (negotiate : Bool) :
    Task.Triple g.Building (body k g negotiate) (fun _ => g.Building) fun _ => g.Building := by
  apply Task.Triple.bind (triple_create u)
  intro _
  apply Task.Triple.bind (triple_mountFunctionfs u)
  intro _
  apply Task.Triple.bind triple_openControl
  intro _
  apply Task.Triple.bind triple_linkFunction
  intro _
  apply Task.Triple.bind triple_bind
  intro _
  apply @Task.Triple.bind _ _ _ _ _ _ _ (fun _ => g.Building)
  · apply Task.Triple.when
    · intro _
      apply Task.Triple.bind stage_building.triple_attempt
      exact fun _ => triple_reenumerateAsAoa
    · exact fun _ _ ht => ht
  · intro _
    apply Task.Triple.bind stage_building.triple_attempt
    intro _
    apply Task.Triple.bind (triple_openTransport u)
    intro _
    apply Task.Triple.bind stage_building.triple_next
    intro _
    apply @Task.Triple.bind _ _ _ _ _ _ _ (fun _ => g.Building)
    · exact Task.Triple.update fun t ht => { ht with cleaning := ht.cleaning }
    · exact fun _ => stage_building.triple_attempt

/-! ## Cleaning up -/

/-- What holds in the cleanup once the gadget is unbound; the parts that the cleanup has
dealt with are gone or were refused. -/
structure Sweeping (g : Gadget) (done : List Made) (b : Board) : Prop where
  cleaning : b.cleaning = true
  early : b.early = false
  ep0 : b.ep0 = false
  endpoints : b.endpoints = false
  unbound : g.binding b = ""
  made : ∀ m ∈ b.made, m ∈ g.parts
  ownMount : .mount g.resolved "functionfs" ∉ done → g.OwnMount b
  gone : ∀ m ∈ b.made, m ∈ done → b.present m = true → m ∈ b.refused

variable {done : List Made} {E : String → Board → Prop}

namespace Sweeping

/-- A part is dealt with where fewer things are there than before. -/
theorem shrink (h : Sweeping g done b) (m : Made) {dirs : Tree} {links : FsPath → Bool}
    {refused : List Made} (hdirs : ∀ p, dirs.has p = true → b.dirs.has p = true)
    (hlinks : ∀ p, links p = true → b.links p = true) (hrefused : ∀ n ∈ b.refused, n ∈ refused)
    (hdone : { b with dirs := dirs, links := links }.present m = true → m ∈ refused) :
    Sweeping g (m :: done) { b with dirs := dirs, links := links, refused := refused } :=
  { h with
    unbound := by
      have hunbound := h.unbound
      rw [binding] at hunbound ⊢
      split
      · rename_i hroot
        rwa [if_pos (hdirs g.root hroot)] at hunbound
      · rfl
    ownMount := fun hm => h.ownMount fun hold => hm (List.mem_cons_of_mem m hold)
    gone := by
      intro n hn hdealt hthere
      obtain rfl | hold := List.mem_cons.mp hdealt
      · apply hdone
        cases n <;> exact hthere
      · apply hrefused n
        apply h.gone n hn hold
        cases n with
        | dir p => exact hdirs p hthere
        | link p => exact hlinks p hthere
        | mount target fsType => exact hthere }

theorem triple_next :
    Task.Triple (Sweeping g done) (Usb.next k) (fun _ => Sweeping g done) E := by
  apply Task.Triple.bindGet
  intro b hb
  apply @Task.Triple.bind _ _ _ _ _ _ _ (fun _ => Sweeping g done)
  · apply Task.Triple.update
    rintro t ⟨_, ht⟩
    exact { ht with cleaning := ht.cleaning }
  · intro _
    apply @Task.Triple.bind _ _ _ _ _ _ _ (fun _ => Sweeping g done)
    · apply Task.Triple.refuse
      · intro hinterrupted
        rw [hb.cleaning] at hinterrupted
        cases hinterrupted
      · exact fun _ t ht => ht
    · exact fun _ => Task.Triple.pure fun _ ht => ht

/-- Every descriptor is closed by now. -/
theorem triple_noteRemoval :
    Task.Triple (Sweeping g done) noteRemoval (fun _ => Sweeping g done) E :=
  Task.Triple.update fun t ht =>
    { ht with early := by simp [ht.early, ht.ep0, ht.endpoints] }

theorem triple_refuseRemoval (m : Made) :
    Task.Triple (Sweeping g done) (refuseRemoval m) (fun _ => Sweeping g (m :: done)) E :=
  Task.Triple.update fun _ ht => ht.shrink m (fun _ hp => hp) (fun _ hp => hp)
    (fun _ hn => List.mem_cons_of_mem m hn) fun _ => List.mem_cons_self

theorem triple_rmdir (p : FsPath) :
    Task.Triple (Sweeping g done) (rmdir k p) (fun _ => Sweeping g (.dir p :: done)) E := by
  apply Task.Triple.bind triple_next
  intro i
  apply Task.Triple.bindGet
  intro b _
  apply Task.Triple.when
  · intro _
    apply @Task.Triple.bind _ _ _ _ _ _ _ (fun _ => Sweeping g done)
    · exact triple_noteRemoval.pre fun t ht => ht.2
    · intro _
      split
      · exact triple_refuseRemoval (.dir p)
      · apply Task.Triple.update
        intro t ht
        apply ht.shrink (.dir p)
        · exact fun q hq => Tree.has_of_has_remove hq
        · exact fun q hq => (Bool.and_eq_true_iff.mp hq).1
        · exact fun n hn => hn
        · intro hthere
          rw [Board.present, Tree.not_has_remove] at hthere
          cases hthere
  · rintro habsent t ⟨rfl, ht⟩
    apply ht.shrink (.dir p) (fun _ hq => hq) (fun _ hq => hq) (fun _ hn => hn)
    intro hthere
    rw [Board.present, habsent] at hthere
    cases hthere

theorem triple_rmdirAll (paths : List FsPath) :
    Task.Triple (Sweeping g done) (rmdirAll k paths)
      (fun _ => Sweeping g ((paths.map Made.dir).reverse ++ done)) E := by
  induction paths generalizing done with
  | nil => exact Task.Triple.pure fun _ ht => ht
  | cons p rest ih =>
      apply Task.Triple.bind (triple_rmdir p)
      intro _
      rw [List.map_cons, List.reverse_cons, List.append_assoc, List.singleton_append]
      exact ih

/-- The link was made by the run or was there before. -/
theorem triple_removeLink (u : g.Undisturbed k s) :
    Task.Triple (Sweeping g done) (removeLink k g)
      (fun _ => Sweeping g (.link g.link :: done)) E := by
  apply Task.Triple.bind triple_next
  intro i
  apply Task.Triple.bindGet
  intro b _
  rw [u.unlinks i]
  split
  · apply @Task.Triple.bind _ _ _ _ _ _ _ (fun _ => Sweeping g done)
    · exact triple_noteRemoval.pre fun t ht => ht.2
    · intro _
      apply Task.Triple.update
      intro t ht
      apply ht.shrink (.link g.link) (fun _ hp => hp)
      · exact fun p hp => (Bool.and_eq_true_iff.mp hp).1
      · exact fun _ hn => hn
      · intro hthere
        simp [Board.present] at hthere
  · rename_i hnone
    apply Task.Triple.when
    · intro _
      apply @Task.Triple.bind _ _ _ _ _ _ _
        (fun _ t => Sweeping g done t ∧ t.links g.link = b.links g.link)
      · apply Task.Triple.update
        rintro t ⟨rfl, ht⟩
        exact ⟨{ ht with early := by simp [ht.early, ht.ep0, ht.endpoints] }, rfl⟩
      · intro _
        apply Task.Triple.update
        rintro t ⟨ht, hlink⟩
        apply ht.shrink (.link g.link)
        · exact fun p hp => Tree.has_of_has_remove hp
        · exact fun _ hp => hp
        · exact fun _ hn => hn
        · intro hthere
          exact absurd (hlink ▸ hthere) hnone
    · rintro _ t ⟨rfl, ht⟩
      apply ht.shrink (.link g.link) (fun _ hp => hp) (fun _ hp => hp) (fun _ hn => hn)
      exact fun hthere => absurd hthere hnone

end Sweeping

/-- The only mount on a target is the last one. -/
theorem unmountTop_single {target : FsPath} {fsType : String} {mounts : List (FsPath × String)}
    (h : (mounts.filter fun entry => entry.1 = target) = [(target, fsType)]) :
    (target, fsType) ∉ unmountTop target mounts := by
  induction mounts with
  | nil => exact List.not_mem_nil
  | cons entry rest ih =>
      rw [unmountTop]
      by_cases htarget : entry.1 = target
      · rw [List.filter_cons_of_pos (by simpa using htarget)] at h
        have hrest : (rest.filter fun entry => entry.1 = target) = [] := List.tail_eq_of_cons_eq h
        have hall : rest.all (fun other => other.1 ≠ target) = true := by
          rw [List.all_eq_true]
          intro other hother
          simpa using List.filter_eq_nil_iff.mp hrest other hother
        rw [if_pos ⟨htarget, hall⟩]
        intro hmem
        simpa using List.filter_eq_nil_iff.mp hrest _ hmem
      · rw [List.filter_cons_of_neg (by simpa using htarget)] at h
        rw [if_neg fun hboth => htarget hboth.1, List.mem_cons, not_or]
        constructor
        · rintro rfl
          exact htarget rfl
        · exact ih h

namespace Sweeping

/-- Whether the first entry for the mountpoint is a FunctionFS. -/
def Seen (g : Gadget) (mounted : Bool) (b : Board) : Prop :=
  mounted = (b.entryAt g.resolved).any fun entry => entry.2 = "functionfs"

theorem triple_isMounted (u : g.Undisturbed k s) :
    Task.Triple (Sweeping g done) (isMounted k g.resolved g.plain "functionfs")
      (fun mounted b => Sweeping g done b ∧ Seen g mounted b) E := by
  apply Task.Triple.bind triple_next
  intro i
  apply Task.Triple.bindGet
  intro b _
  rw [u.readable i, u.plain]
  apply Task.Triple.pure
  rintro t ⟨rfl, ht⟩
  exact ⟨ht, rfl⟩

/-- Where the run has mounted FunctionFS, the cleanup sees it. -/
theorem triple_unmount (u : g.Undisturbed k s) {mounted : Bool}
    (hdone : .mount g.resolved "functionfs" ∉ done) :
    Task.Triple (fun b => Sweeping g done b ∧ Seen g mounted b)
      (Task.when mounted (unmount k g))
      (fun _ => Sweeping g (.mount g.resolved "functionfs" :: done)) E := by
  apply Task.Triple.when
  · intro _
    apply @Task.Triple.bind _ _ _ _ _ _ _ (fun _ => Sweeping g done)
    · exact triple_next.pre fun t ht => ht.1
    · intro i
      apply Task.Triple.bind triple_noteRemoval
      intro _
      split
      · apply Task.Triple.update
        intro t ht
        exact { ht with
          ownMount := fun hm => absurd List.mem_cons_self hm
          gone := by
            intro m hm hdealt hthere
            obtain rfl | hold := List.mem_cons.mp hdealt
            · exact absurd (of_decide_eq_true hthere)
                (unmountTop_single (ht.ownMount hdone hm))
            · cases m with
              | dir p => exact ht.gone _ hm hold hthere
              | link p => exact ht.gone _ hm hold hthere
              | mount target fsType =>
                  have hpart := ht.made _ hm
                  simp only [parts, List.mem_cons, List.not_mem_nil, or_false, reduceCtorEq,
                    Made.mount.injEq, false_or] at hpart
                  obtain ⟨rfl, rfl⟩ := hpart
                  exact absurd hold hdone }
      · exact triple_refuseRemoval (.mount g.resolved "functionfs")
      · exact absurd ‹_› (u.umounts i)
  · rintro hunmounted t ⟨ht, hmounted⟩
    exact { ht with
      ownMount := fun hm => absurd List.mem_cons_self hm
      gone := by
        intro m hm hdealt hthere
        obtain rfl | hold := List.mem_cons.mp hdealt
        · rw [Seen, hunmounted, Board.entryAt, ← List.head?_filter,
            ht.ownMount hdone hm] at hmounted
          simp at hmounted
        · exact ht.gone m hm hold hthere }

end Sweeping

/-- After the closes the gadget is still to be unbound. -/
theorem triple_cleanup (u : g.Undisturbed k s) :
    Task.Triple (fun b => Sweeping g [] { b with udc := "" }) (cleanup k g)
      (fun _ => g.Released) E := by
  apply @Task.Triple.bind _ _ _ _ _ _ _ (fun _ => Sweeping g [])
  · apply Task.Triple.bindGet
    intro b hb
    apply Task.Triple.when
    · intro _
      apply @Task.Triple.bind _ _ _ _ _ _ _ (fun _ t => Sweeping g [] { t with udc := "" })
      · apply Task.Triple.bindGet
        intro b hb
        apply @Task.Triple.bind _ _ _ _ _ _ _ (fun _ t => Sweeping g [] { t with udc := "" })
        · apply Task.Triple.update
          rintro t ⟨_, _, ht⟩
          exact { ht with cleaning := ht.cleaning }
        · intro _
          apply @Task.Triple.bind _ _ _ _ _ _ _ (fun _ t => Sweeping g [] { t with udc := "" })
          · apply Task.Triple.refuse
            · intro hinterrupted
              have hcleaning : b.cleaning = true := hb.2.cleaning
              rw [hcleaning] at hinterrupted
              cases hinterrupted
            · exact fun _ t ht => ht
          · exact fun _ => Task.Triple.pure fun _ ht => ht
      · intro i
        apply @Task.Triple.bind _ _ _ _ _ _ _ (fun _ => Sweeping g [])
        · rw [u.unbinds i]
          exact Task.Triple.update fun t ht => ht
        · exact fun _ => Task.Triple.update fun t ht => { ht with cleaning := ht.cleaning }
    · rintro habsent t ⟨rfl, ht⟩
      exact { ht with
        unbound := by
          rw [binding, habsent]
          rfl }
  · intro _
    apply Task.Triple.bind (Sweeping.triple_removeLink u)
    intro _
    apply Task.Triple.bind (Sweeping.triple_isMounted u)
    intro mounted
    apply Task.Triple.bind (Sweeping.triple_unmount u (by simp))
    intro _
    apply Task.Triple.bind (Sweeping.triple_rmdir g.mountpoint)
    intro _
    apply (Sweeping.triple_rmdirAll _).post
    intro _ t ht
    exact {
      closed := ht.early
      unbound := ht.unbound
      gone := fun m hm => ht.gone m hm (ht.made m hm) }

/-! ## A gadget that is there -/

theorem stage_rooted :
    Stage (fun b => b.dirs.has g.root = true) fun b => b.dirs.has g.root = true where
  weaken _ h := h
  next _ _ h := h

/-- While ConfigFS is looked at, nothing is taken down. -/
theorem triple_ensureConfigfs_rooted :
    Task.Triple (fun b => b.dirs.has g.root = true) (ensureConfigfs k g)
      (fun _ b => b.dirs.has g.root = true) fun _ b => b.dirs.has g.root = true := by
  have hreveal : Task.Triple (fun b => b.dirs.has g.root = true) (reveal k)
      (fun _ b => b.dirs.has g.root = true) fun _ b => b.dirs.has g.root = true :=
    Task.Triple.bind stage_rooted.triple_next fun _ =>
      Task.Triple.update fun _ ht => Bool.or_eq_true_iff.mpr (Or.inl ht)
  apply Task.Triple.bind stage_rooted.triple_attempt
  intro _
  apply @Task.Triple.bind _ _ _ _ _ _ _ (fun _ b => b.dirs.has g.root = true)
  · apply stage_rooted.triple_mkdirMissing
    exact fun _ _ b _ hb _ => Tree.has_insertAll_of_has (Tree.has_insert.mpr (Or.inl hb))
  · intro _
    apply @Task.Triple.bind _ _ _ _ _ _ _ (fun _ b => b.dirs.has g.root = true)
    · apply Task.Triple.bind stage_rooted.triple_next
      intro i
      apply Task.Triple.bindGet
      intro b _
      split
      · exact Task.Triple.pure fun _ ht => ht.2
      · exact Task.Triple.raise fun _ ht => ht.2
      · exact Task.Triple.pure fun _ ht => ht.2
    · intro mounted
      apply @Task.Triple.bind _ _ _ _ _ _ _ (fun _ b => b.dirs.has g.root = true)
      · apply Task.Triple.when
        · intro _
          apply Task.Triple.bind stage_rooted.triple_attempt
          intro _
          apply Task.Triple.bind hreveal
          intro _
          apply @Task.Triple.bind _ _ _ _ _ _ _ (fun _ b => b.dirs.has g.root = true)
          · apply Task.Triple.bind stage_rooted.triple_attempt
            exact fun _ => Task.Triple.update fun _ ht => ht
          · exact fun _ => hreveal
        · exact fun _ _ ht => ht
      · intro _
        apply Task.Triple.bindGet
        intro b _
        apply @Task.Triple.bind _ _ _ _ _ _ _ (fun _ b => b.dirs.has g.root = true)
        · apply Task.Triple.when
          · intro _
            apply @Task.Triple.bind _ _ _ _ _ _ _ (fun _ b => b.dirs.has g.root = true)
            · exact stage_rooted.triple_attempt.pre fun _ ht => ht.2
            · exact fun _ => hreveal
          · exact fun _ _ ht => ht.2
        · intro _
          apply Task.Triple.bindGet
          intro t _
          exact Task.Triple.refuse (fun _ _ ht => ht.2) fun _ _ ht => ht.2

/-- The run does not get beyond `create`. -/
theorem triple_body_rooted (negotiate : Bool) :
    Task.Triple (fun b => b.dirs.has g.root = true) (body k g negotiate) (fun _ _ => False)
      fun _ b => b.dirs.has g.root = true := by
  apply @Task.Triple.bind _ _ _ _ _ _ _ (fun _ _ => False)
  · apply Task.Triple.bind triple_ensureConfigfs_rooted
    intro _
    apply Task.Triple.bindGet
    intro b hb
    apply @Task.Triple.bind _ _ _ _ _ _ _ (fun _ _ => False)
    · apply Task.Triple.refuse
      · exact fun _ t ht => ht.2
      · intro habsent
        rw [hb] at habsent
        cases habsent
    · exact fun _ _ hnever => hnever.elim
  · exact fun _ _ hnever => hnever.elim

theorem stage_unbound : Stage (fun b => b.udc = "") fun b => b.udc = "" where
  weaken _ h := h
  next _ _ h := h

theorem triple_rmdir_unbound (p : FsPath) :
    Task.Triple (fun b => b.udc = "") (rmdir k p) (fun _ b => b.udc = "")
      fun _ b => b.udc = "" := by
  apply Task.Triple.bind stage_unbound.triple_next
  intro i
  apply Task.Triple.bindGet
  intro b _
  apply Task.Triple.when
  · intro _
    apply @Task.Triple.bind _ _ _ _ _ _ _ (fun _ b => b.udc = "")
    · exact Task.Triple.update fun _ ht => ht.2
    · intro _
      split
      · exact Task.Triple.update fun _ ht => ht
      · exact Task.Triple.update fun _ ht => ht
  · exact fun _ _ ht => ht.2

/-- Once unbound the gadget stays so. -/
theorem triple_remove_unbound :
    Task.Triple (fun b => b.udc = "")
      (do
        removeLink k g
        let mounted ← isMounted k g.resolved g.plain "functionfs"
        Task.when mounted (unmount k g)
        rmdir k g.mountpoint
        rmdirAll k [g.function, g.configStrings, g.config, g.root ++ ["configs"],
          g.root ++ ["functions"], g.deviceStrings, g.root ++ ["strings"], g.root])
      (fun _ b => b.udc = "") fun _ b => b.udc = "" := by
  have hnote : ∀ P : Board → Prop, (∀ b, P b → b.udc = "") → Task.Triple P noteRemoval
      (fun _ b => b.udc = "") fun _ b => b.udc = "" :=
    fun P hP => Task.Triple.update fun t ht => hP t ht
  have hremoveAll : ∀ paths, Task.Triple (fun b => b.udc = "") (rmdirAll k paths)
      (fun _ b => b.udc = "") fun _ b => b.udc = "" := by
    intro paths
    induction paths with
    | nil => exact Task.Triple.pure fun _ ht => ht
    | cons p rest ih => exact Task.Triple.bind (triple_rmdir_unbound p) fun _ => ih
  apply @Task.Triple.bind _ _ _ _ _ _ _ (fun _ b => b.udc = "")
  · apply Task.Triple.bind stage_unbound.triple_next
    intro i
    apply Task.Triple.bindGet
    intro b _
    have hends : ∀ (m : Made) (text : String) (f : Board → Board),
        (∀ t, t.udc = "" → (f t).udc = "") →
        Task.Triple (fun t => t = b ∧ t.udc = "")
          (do
            noteRemoval
            if k.refusesUnlink i then do
              refuseRemoval m
              Task.raise text
            else Call.update f)
          (fun _ b => b.udc = "") fun _ b => b.udc = "" := by
      intro m text f hf
      apply Task.Triple.bind (hnote _ fun t ht => ht.2)
      intro _
      split
      · apply @Task.Triple.bind _ _ _ _ _ _ _ (fun _ b => b.udc = "")
        · exact Task.Triple.update fun _ ht => ht
        · exact fun _ => Task.Triple.raise fun _ ht => ht
      · exact Task.Triple.update hf
    split
    · exact hends _ _ _ fun _ ht => ht
    · apply Task.Triple.when
      · exact fun _ => hends _ _ _ fun _ ht => ht
      · exact fun _ _ ht => ht.2
  · intro _
    apply @Task.Triple.bind _ _ _ _ _ _ _ (fun _ b => b.udc = "")
    · apply Task.Triple.bind stage_unbound.triple_next
      intro i
      apply Task.Triple.bindGet
      intro b _
      split
      · exact Task.Triple.pure fun _ ht => ht.2
      · exact Task.Triple.raise fun _ ht => ht.2
      · exact Task.Triple.pure fun _ ht => ht.2
    · intro mounted
      apply @Task.Triple.bind _ _ _ _ _ _ _ (fun _ b => b.udc = "")
      · apply Task.Triple.when
        · intro _
          apply Task.Triple.bind stage_unbound.triple_next
          intro i
          apply Task.Triple.bind (hnote _ fun _ ht => ht)
          intro _
          split
          · exact Task.Triple.update fun _ ht => ht
          · exact Task.Triple.update fun _ ht => ht
          · exact Task.Triple.raise fun _ ht => ht
        · exact fun _ _ ht => ht
      · exact fun _ => Task.Triple.bind (triple_rmdir_unbound g.mountpoint) fun _ => hremoveAll _

/-- The cleanup asks nobody whose gadget it is. -/
theorem triple_cleanup_rooted (hunbinds : ∀ i, k.refusesUnbind i = false) :
    Task.Triple (fun b => b.cleaning = true ∧ b.dirs.has g.root = true) (cleanup k g)
      (fun _ b => b.udc = "") fun _ b => b.udc = "" := by
  apply @Task.Triple.bind _ _ _ _ _ _ _ (fun _ b => b.udc = "")
  · apply Task.Triple.bindGet
    intro b hb
    rw [hb.2]
    apply @Task.Triple.bind _ _ _ _ _ _ _ (fun _ _ => True)
    · apply Task.Triple.bindGet
      intro b hb
      apply @Task.Triple.bind _ _ _ _ _ _ _ (fun _ _ => True)
      · exact Task.Triple.update fun _ _ => trivial
      · intro _
        apply @Task.Triple.bind _ _ _ _ _ _ _ (fun _ _ => True)
        · apply Task.Triple.refuse
          · intro hinterrupted
            rw [hb.2.1] at hinterrupted
            cases hinterrupted
          · exact fun _ _ _ => trivial
        · exact fun _ => Task.Triple.pure fun _ _ => trivial
    · intro i
      apply @Task.Triple.bind _ _ _ _ _ _ _ (fun _ b => b.udc = "")
      · rw [hunbinds i]
        exact Task.Triple.update fun _ _ => rfl
      · exact fun _ => Task.Triple.update fun _ ht => ht
  · exact fun _ => triple_remove_unbound

/-! ## Runs -/

theorem Undisturbed.building {dirs : Tree} {links : FsPath → Bool}
    {mounts : List (FsPath × String)} {udc : String}
    (u : g.Undisturbed k (Board.start dirs links mounts udc)) :
    g.Building (Board.start dirs links mounts udc) where
  cleaning := rfl
  early := rfl
  made _ hm := absurd hm List.not_mem_nil
  ownMount hm := absurd hm List.not_mem_nil
  resolved := u.resolved
  ep0 hopen := absurd hopen Bool.false_ne_true
  endpoints hopen := absurd hopen Bool.false_ne_true
  configfs := u.configfs
  configfsMounted := u.configfsMounted
  mountpoint := u.mountpoint

/-- Closing leaves no descriptor open. -/
theorem Building.closed {t : Board} (h : g.Building b)
    (ht : t = { b with
      cleaning := true
      endpoints := b.endpoints && !(b.session || b.transport)
      transport := b.transport && !b.session
      ep0 := b.ep0 && !b.control }) : Sweeping g [] { t with udc := "" } := by
  subst ht
  exact {
    cleaning := rfl
    early := h.early
    ep0 := by
      cases hopen : b.ep0 with
      | false => rfl
      | true => simp [h.ep0 hopen]
    endpoints := by
      cases hopen : b.endpoints with
      | false => rfl
      | true => simp [h.endpoints hopen]
    unbound := by
      rw [binding]
      split <;> rfl
    made := h.made
    ownMount := fun _ => h.ownMount
    gone := fun _ _ hm => absurd hm List.not_mem_nil }

theorem triple_run (u : g.Undisturbed k s) (hs : g.Building s) (negotiate : Bool) :
    Task.Triple (fun b => b = s) (run k g negotiate) (fun _ => g.Released)
      fun _ => g.Released := by
  have hclean : Task.Triple g.Building (do closeAll; cleanup k g) (fun _ => g.Released)
      fun _ => g.Released := by
    apply @Task.Triple.bind _ _ _ _ _ _ _ (fun _ b => Sweeping g [] { b with udc := "" })
    · exact Task.Triple.update fun t ht => ht.closed rfl
    · exact fun _ => triple_cleanup u
  apply @Task.Triple.bind _ _ _ _ _ _ _ (fun _ => g.Released)
  · apply @Task.Triple.finallyDo _ _ _ _ _ _ (fun _ => g.Building) _ (fun _ _ => g.Released)
      (fun _ => g.Building) (fun _ => g.Released)
    · exact (triple_body u negotiate).pre fun t ht => ht ▸ hs
    · exact fun _ => hclean
    · exact fun _ => hclean
  · exact fun _ => Task.Triple.pure fun _ ht => ht

theorem triple_run_rooted (hunbinds : ∀ i, k.refusesUnbind i = false)
    (hs : s.dirs.has g.root = true) (negotiate : Bool) :
    Task.Triple (fun b => b = s) (run k g negotiate) (fun _ b => b.udc = "")
      fun _ b => b.udc = "" := by
  have hclean : Task.Triple (fun b => b.dirs.has g.root = true) (do closeAll; cleanup k g)
      (fun _ b => b.udc = "") fun _ b => b.udc = "" := by
    apply @Task.Triple.bind _ _ _ _ _ _ _
      (fun _ b => b.cleaning = true ∧ b.dirs.has g.root = true)
    · exact Task.Triple.update fun t ht => ⟨rfl, ht⟩
    · exact fun _ => triple_cleanup_rooted hunbinds
  apply @Task.Triple.bind _ _ _ _ _ _ _ (fun _ b => b.udc = "")
  · apply @Task.Triple.finallyDo _ _ _ _ _ _ (fun _ _ => False) _
      (fun _ _ (b : Board) => b.udc = "") (fun _ (b : Board) => b.dirs.has g.root = true)
      (fun _ (b : Board) => b.udc = "")
    · exact (triple_body_rooted negotiate).pre fun t ht => ht ▸ hs
    · exact fun _ _ hnever => hnever.elim
    · exact fun _ => hclean
  · exact fun _ => Task.Triple.pure fun _ ht => ht

/-- What a run ends in, by its value or by an exception. -/
theorem final_of_triple {Q : Board → Prop} {negotiate : Bool}
    (hrun : Task.Triple (fun t => t = s) (run k g negotiate) (fun _ => Q) fun _ => Q) :
    Q ((run k g negotiate).final s) := by
  have hwp := hrun s rfl
  cases houtcome : (run k g negotiate s).1 with
  | ok a => exact hwp.ok houtcome
  | error halt =>
      cases halt with
      | unfinished => exact absurd houtcome ((run_ends negotiate).outcome s)
      | raised text => exact hwp.failed houtcome

/-- A gadget that was bound is not any more. -/
theorem not_ownGadget_of_rooted (hunbinds : ∀ i, k.refusesUnbind i = false)
    (hroot : s.dirs.has g.root = true) (hudc : s.udc ≠ "") (negotiate : Bool) :
    ¬ g.OwnGadget s ((run k g negotiate).final s) := by
  intro hown
  have hbinding := (hown.1 hroot).binding
  have hunbound := final_of_triple (triple_run_rooted hunbinds hroot negotiate)
  rw [binding, binding, hroot, hunbound] at hbinding
  apply hudc
  rw [if_pos rfl] at hbinding
  rw [← hbinding]
  split <;> rfl

/-- Undisturbed, every run that finds no gadget of its name takes down what it has made; a
run that finds one bound to a controller never leaves it as it was, unless the kernel
refuses to unbind it. -/
theorem gadget_run_own (k : KernelAnswers) (g : Gadget) (negotiate : Bool) (dirs : Tree)
    (links : FsPath → Bool) (mounts : List (FsPath × String)) (udc : String) :
    let s := Board.start dirs links mounts udc
    let b := (run k g negotiate).final s
    (g.Undisturbed k s → g.OwnGadget s b) ∧
      (s.dirs.has g.root = true → s.udc ≠ "" → (∀ i, k.refusesUnbind i = false) →
        ¬ g.OwnGadget s b) := by
  intro s b
  constructor
  · intro u
    constructor
    · intro hroot
      rw [u.absent] at hroot
      cases hroot
    · exact fun _ => final_of_triple (triple_run u u.building negotiate)
  · intro hroot hudc hunbinds
    exact not_ownGadget_of_rooted hunbinds hroot hudc negotiate

/-- A kernel that refuses nothing, with one controller. -/
def willing : KernelAnswers where
  interrupted _ := false
  fails _ := false
  chooseUdc _ := .ok "fe980000.usb"
  reveals _ := { has := fun _ => false, closed := fun _ hp => absurd hp Bool.false_ne_true }
  openingInterrupted _ := false
  readMounts _ := .text
  refusesUnbind _ := false
  refusesUnlink _ := false
  umount _ := .succeeded
  refusesRmdir _ := false

/-- The gadget of the default arguments. -/
def hccast : Gadget where
  name := "hccast"
  functionName := "hccast"
  mountpoint := ["dev", "ffs-hccast"]
  resolved := ["dev", "ffs-hccast"]
  plain := true

/-- The directories of a board without gadgets. -/
def bareDirs : Tree where
  has p := p.isPrefixOf configfsRoot || decide (p = ["dev"])
  closed := by
    intro p hp
    apply Bool.or_eq_true_iff.mpr
    obtain hp | hp := Bool.or_eq_true_iff.mp hp
    · left
      rw [List.isPrefixOf_iff_prefix] at hp ⊢
      exact (List.dropLast_prefix p).trans hp
    · left
      rw [of_decide_eq_true hp]
      rfl

/-- With another run's gadget, which is bound. -/
def liveDirs : Tree :=
  bareDirs.insert hccast.root rfl

theorem gadget_run_own_both :
    hccast.Released ((run willing hccast true).final
        (Board.start bareDirs (fun _ => false) [(configfs, "configfs")] "")) ∧
      ¬ hccast.OwnGadget (Board.start liveDirs (fun _ => false) [] "fe980000.usb")
        ((run willing hccast true).final
          (Board.start liveDirs (fun _ => false) [] "fe980000.usb")) := by
  have hbare := (gadget_run_own willing hccast true bareDirs (fun _ => false)
    [(configfs, "configfs")] "").1
  have hlive := (gadget_run_own willing hccast true liveDirs (fun _ => false) []
    "fe980000.usb").2
  constructor
  · refine (hbare ?_).2 rfl
    exact {
      absent := rfl
      configfs := rfl
      configfsMounted := rfl
      mountpoint := rfl
      resolved := fun entry hentry => by cases hentry
      plain := rfl
      readable := fun _ => rfl
      opened := fun _ => rfl
      unbinds := fun _ => rfl
      unlinks := fun _ => rfl
      umounts := fun _ => by simp [willing] }
  · exact hlive rfl (by simp [Board.start]) fun _ => rfl

/-- `create` refuses the gadget of another run, and the cleanup then takes it down. -/
theorem live_gadget_taken_down :
    ¬ ∀ (k : KernelAnswers) (g : Gadget) (negotiate : Bool) (dirs : Tree)
      (links : FsPath → Bool) (mounts : List (FsPath × String)) (udc : String),
      g.OwnGadget (Board.start dirs links mounts udc)
        ((run k g negotiate).final (Board.start dirs links mounts udc)) := by
  intro hall
  exact not_ownGadget_of_rooted (fun _ => rfl) rfl (by simp [Board.start]) true
    (hall willing hccast true liveDirs (fun _ => false) [] "fe980000.usb")

end Gadget

end HccastWired.Usb
