import HccastWired.Install.JournalText
import HccastWired.Install.Transaction

/-!
# What the steps of a transaction do to the disk

One rule for every function that reads or changes the disk, for disks whose
fixed parents are trusted directories.
-/

namespace HccastWired.Install

open Foundation

variable {d : Disk} {path : List String} {name : String} {file : Option File}
  {crash : Disk → Prop} {fail : TransactionError → Disk → Prop}

section Parents

def Trusted (d : Disk) (path : List String) : Prop :=
  ∃ mode uid files, d.dirs path = some (.directory mode uid files) ∧ trustedDir mode uid = true

/-- The directories that have to exist already. -/
def fixedParents : List (List String) :=
  [[], ["etc"], ["etc", "dbus-1"], ["etc", "dbus-1", "system.d"], ["etc", "systemd"],
    ["etc", "systemd", "system"], ["var"], ["var", "lib"]]

/-- Every parent is a trusted directory, or may be created and does not exist. -/
structure Parents (d : Disk) : Prop where
  fixed : ∀ path ∈ fixedParents, Trusted d path
  created : ∀ path mode, creatable path = some mode → d.dirs path = none ∨ Trusted d path

/-- The directories that the calls open. -/
def openedParents : List (List String) :=
  [["etc"], ["var", "lib"], journalParent, Target.enrollment.parent,
    Target.stagedBusPolicy.parent, Target.stagedHelperUnit.parent]

theorem Target.parent_opened (t : Target) : t.parent ∈ openedParents := by
  cases t <;> decide +kernel

theorem journalParent_opened : journalParent ∈ openedParents := by
  decide +kernel

theorem put_dirs_ne {q : List String} (h : q ≠ path) :
    (d.put path name file).dirs q = d.dirs q := by
  unfold Disk.put
  split
  · exact Function.update_of_ne h _ _
  · rfl

theorem put_dirs (mode uid : Int) (files : String → Option File)
    (h : d.dirs path = some (.directory mode uid files)) :
    (d.put path name file).dirs path =
      some (.directory mode uid (Function.update files name file)) := by
  simp [Disk.put, h]

/-- Putting a file changes no directory's mode or owner, and creates none. -/
theorem put_directory (q : List String) : (d.put path name file).dirs q = d.dirs q ∨
    ∃ mode uid files files', d.dirs q = some (.directory mode uid files) ∧
      (d.put path name file).dirs q = some (.directory mode uid files') := by
  by_cases hq : q = path
  · subst hq
    cases hd : d.dirs q with
    | none => exact Or.inl (by simp [Disk.put, hd])
    | some dir =>
        cases dir with
        | other => exact Or.inl (by simp [Disk.put, hd])
        | directory mode uid files =>
            exact Or.inr ⟨mode, uid, files, _, rfl, put_dirs mode uid files hd⟩
  · exact Or.inl (put_dirs_ne hq)

theorem Trusted.put (h : Trusted d path) (q : List String) : Trusted (d.put q name file) path := by
  obtain ⟨mode, uid, files, hdir, htrusted⟩ := h
  rcases @put_directory d q name file path with hsame | ⟨mode', uid', files', files'', hold, hnew⟩
  · exact ⟨mode, uid, files, hsame.trans hdir, htrusted⟩
  · rw [hold] at hdir
    cases hdir
    exact ⟨_, _, files'', hnew, htrusted⟩

theorem Parents.put (h : Parents d) (q : List String) : Parents (d.put q name file) := by
  constructor
  · intro path hpath
    exact (h.fixed path hpath).put q
  · intro path mode hmode
    rcases h.created path mode hmode with hnone | htrusted
    · rcases @put_directory d q name file path with hsame | ⟨_, _, _, _, hold, -⟩
      · exact Or.inl (hsame.trans hnone)
      · rw [hnone] at hold
        cases hold
    · exact Or.inr (htrusted.put q)

theorem creatable_trusted {mode : Int} (h : creatable path = some mode) :
    trustedDir mode processUid = true := by
  unfold creatable at h
  split at h
  · cases h
    decide
  · split at h <;> cases h
    decide

theorem mkdir_dirs (mode : Int) :
    (d.mkdir path mode).dirs path = some (.directory mode processUid fun _ => none) :=
  Function.update_self ..

theorem mkdir_dirs_ne {q : List String} (h : q ≠ path) (mode : Int) :
    (d.mkdir path mode).dirs q = d.dirs q :=
  Function.update_of_ne h _ _

theorem mkdir_trusted {mode : Int} (h : creatable path = some mode) :
    Trusted (d.mkdir path mode) path :=
  ⟨mode, processUid, fun _ => none, mkdir_dirs mode, creatable_trusted h⟩

theorem Parents.mkdir (h : Parents d) {mode : Int} (hmode : creatable path = some mode) :
    Parents (d.mkdir path mode) := by
  have hkept : ∀ q, Trusted d q → Trusted (d.mkdir path mode) q := by
    rintro q ⟨m, u, files, hdir, htrusted⟩
    by_cases hq : q = path
    · rw [hq]
      exact mkdir_trusted hmode
    · exact ⟨m, u, files, (mkdir_dirs_ne hq mode).trans hdir, htrusted⟩
  constructor
  · intro q hq
    exact hkept q (h.fixed q hq)
  · intro q m hm
    by_cases hq : q = path
    · rw [hq]
      exact Or.inr (mkdir_trusted hmode)
    · exact (h.created q m hm).imp (mkdir_dirs_ne hq mode).trans (hkept q)

theorem Trusted.file_put (h : Trusted d path) : (d.put path name file).file path name = file := by
  obtain ⟨mode, uid, files, hdir, -⟩ := h
  simp [Disk.file, put_dirs mode uid files hdir]

theorem file_put_ne {q : List String} {m : String} (h : q ≠ path ∨ m ≠ name) :
    (d.put path name file).file q m = d.file q m := by
  by_cases hq : q = path
  · subst hq
    have hm : m ≠ name := h.resolve_left fun hne => hne rfl
    cases hd : d.dirs q with
    | none => simp [Disk.put, hd]
    | some dir =>
        cases dir with
        | other => simp [Disk.put, hd]
        | directory mode uid files =>
            simp [Disk.file, put_dirs mode uid files hd, hd, Function.update_of_ne hm]
  · simp [Disk.file, put_dirs_ne hq]

/-- A new directory is empty, and so was what did not exist. -/
theorem file_mkdir {mode : Int} (h : d.dirs path = none) (q : List String) (m : String) :
    (d.mkdir path mode).file q m = d.file q m := by
  by_cases hq : q = path
  · subst hq
    simp [Disk.file, Disk.mkdir, h]
  · simp [Disk.file, Disk.mkdir, Function.update_of_ne hq]

end Parents

section Walk

variable {create : Bool} {post : Option (List String) → Disk → Prop}

theorem walk_trusted {here rest : List String} {part : String} (h : Trusted d (here ++ [part]))
    (hrest : (walk create (here ++ [part]) rest).wp crash post fail d) :
    (walk create here (part :: rest)).wp crash post fail d := by
  obtain ⟨mode, uid, files, hdir, htrusted⟩ := h
  simp only [walk, Call.wp_bind, Call.wp_get, hdir, htrusted, if_true]
  exact hrest

/-- The path before the last component is there. -/
theorem parent_last (hp : Parents d) (hpath : path ∈ openedParents) :
    ∃ here part, path = here ++ [part] ∧
      ∀ {post : Option (List String) → Disk → Prop} {create : Bool},
        (walk create here [part]).wp crash post fail d →
          (parent path create).wp crash post fail d := by
  have htrusted := hp.fixed
  simp only [fixedParents, List.forall_mem_cons] at htrusted
  obtain ⟨-, hetc, hdbus, hsystemd, hsystem, hunits, hvar, hlib, -⟩ := htrusted
  simp only [openedParents, journalParent, Target.parent, List.mem_cons, List.not_mem_nil,
    or_false] at hpath
  rcases hpath with rfl | rfl | rfl | rfl | rfl | rfl
  · exact ⟨[], "etc", rfl, id⟩
  · exact ⟨["var"], "lib", rfl, fun h => walk_trusted hvar h⟩
  · exact ⟨["var", "lib"], "panelbridge", rfl, fun h => walk_trusted hvar (walk_trusted hlib h)⟩
  · exact ⟨["etc"], "panelbridge", rfl, fun h => walk_trusted hetc h⟩
  · exact ⟨["etc", "dbus-1"], "system.d", rfl, fun h => walk_trusted hetc (walk_trusted hdbus h)⟩
  · exact ⟨["etc", "systemd"], "system", rfl, fun h => walk_trusted hetc (walk_trusted hsystem h)⟩

theorem parent_trusted (hp : Parents d) (hpath : path ∈ openedParents) (h : Trusted d path)
    (hpost : post (some path) d) : (parent path create).wp crash post fail d := by
  obtain ⟨here, part, rfl, hlast⟩ := @parent_last d path crash fail hp hpath
  refine hlast (walk_trusted h ?_)
  simpa [walk] using hpost

theorem parent_absent (hp : Parents d) (hpath : path ∈ openedParents) {mode : Int}
    (hmode : creatable path = some mode) (h : d.dirs path = none) (hpost : post none d) :
    (parent path false).wp crash post fail d := by
  obtain ⟨here, part, rfl, hlast⟩ := @parent_last d path crash fail hp hpath
  refine hlast ?_
  simpa [walk, h, hmode] using hpost

theorem parent_created (hp : Parents d) (hpath : path ∈ openedParents) {mode : Int}
    (hmode : creatable path = some mode) (h : d.dirs path = none)
    (hcrash : crash (d.mkdir path mode)) (hpost : post (some path) (d.mkdir path mode)) :
    (parent path true).wp crash post fail d := by
  obtain ⟨here, part, rfl, hlast⟩ := @parent_last d path crash fail hp hpath
  refine hlast ?_
  simpa [walk, h, hmode, hcrash] using hpost

theorem parents_cases (hp : Parents d) (hpath : path ∈ openedParents) :
    Trusted d path ∨ ∃ mode, creatable path = some mode ∧ d.dirs path = none := by
  have htrusted := hp.fixed
  simp only [fixedParents, List.forall_mem_cons] at htrusted
  obtain ⟨-, hetc, -, hsystemd, -, hunits, -, hlib, -⟩ := htrusted
  have hcreated : ∀ mode, creatable path = some mode →
      Trusted d path ∨ ∃ mode, creatable path = some mode ∧ d.dirs path = none := by
    intro mode hmode
    rcases hp.created path mode hmode with hnone | h
    · exact Or.inr ⟨mode, hmode, hnone⟩
    · exact Or.inl h
  simp only [openedParents, journalParent, Target.parent, List.mem_cons, List.not_mem_nil,
    or_false] at hpath
  rcases hpath with rfl | rfl | rfl | rfl | rfl | rfl
  · exact Or.inl hetc
  · exact Or.inl hlib
  · exact hcreated 0o700 (by decide +kernel)
  · exact hcreated 0o755 (by decide +kernel)
  · exact Or.inl hsystemd
  · exact Or.inl hunits

theorem baseFd_trusted {post : Unit → Disk → Prop} (hp : Parents d) (hpost : post () d) :
    baseFd.wp crash post fail d := by
  obtain ⟨mode, uid, files, hdir, htrusted⟩ := hp.fixed [] (by simp [fixedParents])
  simpa [baseFd, hdir, htrusted] using hpost

end Walk

section Files

variable {a desired : Option Snapshot} {limit : Nat} {isPrivate : Bool}

/-- The file that a snapshot describes. -/
def fileOf (s : Option Snapshot) : Option File :=
  s.bind fun s => s.bytes.map fun data => .regular data s.mode s.uid s.gid 1

@[simp] theorem fileOf_snapshot (data : Bytes) (mode uid gid : Int) :
    fileOf (some (snapshot data mode uid gid)) = some (.regular data mode uid gid 1) := by
  simp [fileOf, snapshot, Snapshot.bytes, Base64.decode_encoded]

/-- What is read is the file itself, and it is trusted. -/
theorem readFile_ok (h : readFile file limit isPrivate = .ok a) : file = fileOf a ∧
    ∀ s, a = some s → ∃ data, data.length ≤ limit ∧ s = snapshot data s.mode s.uid s.gid ∧
      validMode s.mode = true ∧ s.uid = processUid := by
  unfold readFile at h
  split at h
  · cases h
    exact ⟨rfl, fun s hs => by cases hs⟩
  · next data mode uid gid links =>
    split at h
    · next htrusted =>
      cases h
      simp only [trustedFile, Bool.and_eq_true, decide_eq_true_eq] at htrusted
      obtain ⟨⟨⟨⟨rfl, rfl⟩, hmode⟩, hlength⟩, -⟩ := htrusted
      refine ⟨by simp, ?_⟩
      intro s hs
      cases hs
      exact ⟨data, hlength, rfl, hmode, rfl⟩
    · cases h
  · cases h

theorem readFile_fileOf (h : ∀ s, a = some s → s.Valid) :
    readFile (fileOf a) maxFileBytes false = .ok a := by
  cases a with
  | none => rfl
  | some s =>
      have hs := h s rfl
      obtain ⟨data, hlength, hdata⟩ := hs.bytes
      rw [hdata, fileOf_snapshot]
      simp [readFile, trustedFile, hs.owner, hs.mode, hlength]

theorem wp_read {post : Option Snapshot → Disk → Prop} {parent? : Option (List String)} :
    (read parent? name limit isPrivate).wp crash post fail d ↔
      match readFile (parent?.bind fun parent => d.file parent name) limit isPrivate with
      | .ok a => post a d
      | .error e => fail e d := by
  simp only [read, Call.wp_bind, Call.wp_get, Call.wp_ofExcept]
  cases readFile (parent?.bind fun parent => d.file parent name) limit isPrivate <;> rfl

/-- A write that finds what it expects leaves the desired file, in one update at most. -/
theorem wp_write {post : Unit → Disk → Prop}
    (hread : readFile (d.file path name) limit isPrivate = .ok a)
    (hdesired : ∀ s, desired = some s → ∃ data, s = snapshot data s.mode s.uid s.gid)
    (hsame : a = desired → post () d)
    (hput : crash (d.put path name (fileOf desired)) ∧ post () (d.put path name (fileOf desired))) :
    (write path name desired a limit isPrivate).wp crash post fail d := by
  simp only [write, Call.wp_bind, wp_read, Option.bind_some, hread, ne_eq, not_true_eq_false,
    if_false]
  split
  · next heq => exact (Call.wp_pure ()).mpr (hsame heq)
  · cases desired with
    | none => exact Call.wp_update.mpr hput
    | some s =>
        obtain ⟨data, hs⟩ := hdesired s rfl
        have hbytes : s.bytes = some data := by
          rw [hs]
          exact snapshot_bytes data _ _ _
        have hfile : fileOf (some s) = some (.regular data s.mode s.uid s.gid 1) := by
          simp [fileOf, hbytes]
        rw [hfile] at hput
        simp only [hbytes, Call.wp_bind, wp_read, Option.bind_some, hread, not_true_eq_false,
          if_false]
        exact Call.wp_update.mpr hput

end Files

section Journal

variable {r : Record}

def Record.bytes (r : Record) : Bytes :=
  (Json.asciiBytes r.text).getD []

/-- The snapshot of the journal that holds the record. -/
def journalSnapshot (r : Record) : Snapshot :=
  snapshot r.bytes 0o600 processUid processGid

theorem Record.Valid.bytes (h : r.Valid) : Json.asciiBytes r.text = some r.bytes ∧
    r.bytes.length ≤ maxJournalBytes ∧ Json.asciiText r.bytes = some r.text := by
  have hascii : ∀ c ∈ r.text, c.toNat < 128 :=
    Json.ascii_append (Json.dumps_ascii r.toJson h.plain) (by simp)
  obtain ⟨bytes, hbytes, hlength, htext⟩ := Json.asciiText_asciiBytes hascii
  have hr : r.bytes = bytes := by rw [Record.bytes, hbytes, Option.getD_some]
  rw [hr]
  exact ⟨hbytes, hlength ▸ h.length, htext⟩

theorem decodeRecord_journalSnapshot (h : r.Valid) : decodeRecord (journalSnapshot r) = .ok r := by
  obtain ⟨-, -, htext⟩ := h.bytes
  have hloads : Json.loads r.text = some r.toJson := Json.loads_dumps h.plain (by decide)
  simp [decodeRecord, journalSnapshot, htext, hloads, r.toJson_unique, validateRecord_toJson h]

theorem readFile_journal (h : r.Valid) :
    readFile (fileOf (some (journalSnapshot r))) maxJournalBytes true =
      .ok (some (journalSnapshot r)) := by
  obtain ⟨-, hlength, -⟩ := h.bytes
  simp [journalSnapshot, readFile, trustedFile, hlength]
  decide

/-- Loading a disk whose journal holds a valid record gives the record. -/
theorem wp_load {post : Option (Record × Snapshot) → Disk → Prop} (h : r.Valid)
    (hfile : d.file journalParent journalName = fileOf (some (journalSnapshot r)))
    (hpost : post (some (r, journalSnapshot r)) d) :
    (load journalParent).wp crash post fail d := by
  simp only [load, Call.wp_bind, wp_read, Option.bind_some, hfile, readFile_journal h,
    Call.wp_ofExcept, decodeRecord_journalSnapshot h, Call.wp_pure]
  exact hpost

theorem wp_load_none {post : Option (Record × Snapshot) → Disk → Prop}
    (hfile : d.file journalParent journalName = none) (hpost : post none d) :
    (load journalParent).wp crash post fail d := by
  simp only [load, Call.wp_bind, wp_read, Option.bind_some, hfile, readFile, Call.wp_pure]
  exact hpost

/-- Saving a valid record leaves a journal that holds it, in one update at most. -/
theorem wp_save {post : Snapshot → Disk → Prop} {expected : Option Snapshot} (h : r.Valid)
    (hread : readFile (d.file journalParent journalName) maxJournalBytes true = .ok expected)
    (hsame : expected = some (journalSnapshot r) → post (journalSnapshot r) d)
    (hput : crash (d.put journalParent journalName (fileOf (some (journalSnapshot r)))) ∧
      post (journalSnapshot r) (d.put journalParent journalName (fileOf (some (journalSnapshot r))))) :
    (save journalParent r expected).wp crash post fail d := by
  obtain ⟨hbytes, hlength, -⟩ := h.bytes
  simp only [save, Call.wp_bind, Call.wp_ofExcept, validateRecord_toJson h, hbytes,
    Nat.not_lt.mpr hlength, if_false]
  refine wp_write hread ?_ ?_ ?_
  · rintro s ⟨⟩
    exact ⟨_, rfl⟩
  · intro heq
    exact (Call.wp_pure _).mpr (hsame heq)
  · exact ⟨hput.1, (Call.wp_pure _).mpr hput.2⟩

end Journal

end HccastWired.Install
