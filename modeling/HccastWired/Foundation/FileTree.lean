import Mathlib

/-!
# File trees

A tree of directories, regular files and symbolic links, and the system calls that name a
file by its path. A call whose path leads through a link fails: whatever succeeds has
stayed inside the tree. The order of the entries is the one in which they are listed.
-/

namespace HccastWired.Foundation

inductive Node where
  | file (size : Nat)
  | dir (entries : List (String × Node))
  | link (target : String)
  | other

abbrev Entries := List (String × Node)

abbrev TreePath := List String

inductive TreeError
  | notFound
  | notDirectory
  | isDirectory
  | exists
  | notEmpty
  /-- The call would have followed a symbolic link. -/
  | followed
  /-- The recursion is deeper than its bound. -/
  | depth
  deriving DecidableEq

namespace Node

/-- `lstat`: the node at a path, itself possibly a link. -/
def lstat : Node → TreePath → Except TreeError Node
  | node, [] => .ok node
  | .dir entries, name :: rest =>
      match entries.lookup name with
      | some node => node.lstat rest
      | none => .error .notFound
  | .link _, _ :: _ => .error .followed
  | _, _ :: _ => .error .notDirectory

/-- `scandir`, which follows a link. -/
def scandir (tree : Node) (path : TreePath) : Except TreeError Entries :=
  match tree.lstat path with
  | .ok (.dir entries) => .ok entries
  | .ok (.link _) => .error .followed
  | .ok _ => .error .notDirectory
  | .error e => .error e

/-- The tree without what is at a path. -/
def without : Node → TreePath → Node
  | .dir entries, [name] => .dir (entries.filter fun entry => entry.1 ≠ name)
  | .dir entries, name :: rest =>
      .dir (entries.map fun entry => if entry.1 = name then (entry.1, entry.2.without rest) else entry)
  | node, _ => node

def unlink (tree : Node) (path : TreePath) : Except TreeError Node :=
  match tree.lstat path with
  | .ok (.dir _) => .error .isDirectory
  | .ok _ => .ok (tree.without path)
  | .error e => .error e

def rmdir (tree : Node) (path : TreePath) : Except TreeError Node :=
  match tree.lstat path with
  | .ok (.dir []) => .ok (tree.without path)
  | .ok (.dir (_ :: _)) => .error .notEmpty
  | .ok _ => .error .notDirectory
  | .error e => .error e

/-- The entries with one replaced, or added at the end. -/
def setEntry (entries : Entries) (name : String) (value : Node) : Entries :=
  if name ∈ entries.map Prod.fst then
    entries.map fun entry => if entry.1 = name then (name, value) else entry
  else entries ++ [(name, value)]

/-- The tree with a node put at a path. -/
def put (value : Node) : Node → TreePath → Node
  | .dir entries, [name] => .dir (setEntry entries name value)
  | .dir entries, name :: rest =>
      .dir (entries.map fun entry => if entry.1 = name then (entry.1, put value entry.2 rest) else entry)
  | node, _ => node

/-- `open` with `O_CREAT | O_EXCL`. -/
def create (tree : Node) (directory : TreePath) (name : String) : Except TreeError Node :=
  match tree.scandir directory with
  | .ok entries =>
      if (entries.lookup name).isSome then .error .exists
      else .ok (put (.file 0) tree (directory ++ [name]))
  | .error e => .error e

/-- `replace` inside a directory. -/
def replace (tree : Node) (directory : TreePath) (source destination : String) :
    Except TreeError Node :=
  match tree.scandir directory with
  | .ok entries =>
      match entries.lookup source, entries.lookup destination with
      | none, _ => .error .notFound
      | some _, some (.dir _) => .error .isDirectory
      | some node, _ =>
          .ok (put node (tree.without (directory ++ [source])) (directory ++ [destination]))
  | .error e => .error e

end Node

mutual

/-- The bytes of the regular files. -/
def Node.bytes : Node → Nat
  | .file size => size
  | .dir entries => entriesBytes entries
  | .link _ => 0
  | .other => 0

def entriesBytes : Entries → Nat
  | [] => 0
  | (_, node) :: rest => node.bytes + entriesBytes rest

end

mutual

/-- The levels of directories. -/
def Node.depth : Node → Nat
  | .dir entries => entriesDepth entries + 1
  | _ => 0

def entriesDepth : Entries → Nat
  | [] => 0
  | (_, node) :: rest => max node.depth (entriesDepth rest)

end

mutual

/-- The names in a directory are different. -/
def Node.Proper : Node → Prop
  | .dir entries => (entries.map Prod.fst).Nodup ∧ EntriesProper entries
  | _ => True

def EntriesProper : Entries → Prop
  | [] => True
  | (_, node) :: rest => node.Proper ∧ EntriesProper rest

end

namespace Node

section Walks

variable {tree node : Node} {path : TreePath} {name : String} {entries rest : Entries}

theorem without_cons {rest : TreePath} (h : rest ≠ []) :
    (dir entries).without (name :: rest) =
      .dir (entries.map fun entry => if entry.1 = name then (entry.1, entry.2.without rest) else entry) := by
  obtain ⟨second, rest, rfl⟩ := List.exists_cons_of_ne_nil h
  rfl

/-- The entries of a directory without one of its entries. -/
theorem filter_head (h : (((name, node) :: rest).map Prod.fst).Nodup) :
    (((name, node) :: rest).filter fun entry => entry.1 ≠ name) = rest := by
  have hnew : name ∉ rest.map Prod.fst := (List.nodup_cons.mp h).1
  rw [List.filter_cons_of_neg (by simp)]
  apply List.filter_eq_self.mpr
  intro entry hentry
  have hne : entry.1 ≠ name := fun heq => hnew (heq ▸ List.mem_map_of_mem hentry)
  exact decide_eq_true hne

/-- Removing a directory removes what has been removed from it before. -/
theorem without_without (tree : Node) (hpath : path ≠ []) (name : String) :
    (tree.without (path ++ [name])).without path = tree.without path := by
  induction path generalizing tree with
  | nil => exact absurd rfl hpath
  | cons first path ih =>
    cases tree with
    | dir others =>
      rw [List.cons_append, without_cons (by simp)]
      by_cases hnil : path = []
      · subst hnil
        rw [without, without, List.filter_map]
        congr 1
        rw [List.filter_congr (q := fun entry => entry.1 ≠ first)]
        · conv_rhs => rw [← List.map_id (others.filter _)]
          apply List.map_congr_left
          intro entry hentry
          have hne := of_decide_eq_true (List.mem_filter.mp hentry).2
          rw [if_neg hne, id]
        · intro entry _
          rw [Function.comp_apply]
          split <;> rfl
      · rw [without_cons hnil, without_cons hnil, List.map_map]
        congr 1
        apply List.map_congr_left
        intro entry _
        rw [Function.comp_apply]
        by_cases heq : entry.1 = first
        · rw [if_pos heq, if_pos heq, if_pos heq, ih _ hnil]
        · rw [if_neg heq, if_neg heq]
    | file size => rfl
    | link target => rfl
    | other => rfl

theorem scandir_of_lstat (h : tree.lstat path = .ok (.dir entries)) : tree.scandir path = .ok entries := by
  rw [scandir, h]

theorem lstat_of_scandir (h : tree.scandir path = .ok entries) : tree.lstat path = .ok (.dir entries) := by
  rw [scandir] at h
  split at h
  · next hdir =>
    cases h
    exact hdir
  all_goals cases h

theorem create_of_lstat (h : tree.lstat path = .ok (.dir entries)) (name : String) :
    tree.create path name = if (entries.lookup name).isSome then .error .exists
      else .ok (put (.file 0) tree (path ++ [name])) := by
  rw [create, scandir_of_lstat h]

theorem replace_directory {source destination : String} {inner : Entries}
    (h : tree.lstat path = .ok (.dir entries)) (hsource : entries.lookup source = some node)
    (hdestination : entries.lookup destination = some (.dir inner)) :
    tree.replace path source destination = .error .isDirectory := by
  rw [replace, scandir_of_lstat h]
  simp only [hsource, hdestination]

theorem replace_of_lstat {source destination : String} (h : tree.lstat path = .ok (.dir entries))
    (hsource : entries.lookup source = some node)
    (hdestination : ∀ inner, entries.lookup destination ≠ some (.dir inner)) :
    tree.replace path source destination =
      .ok (put node (tree.without (path ++ [source])) (path ++ [destination])) := by
  rw [replace, scandir_of_lstat h]
  simp only [hsource]

theorem lstat_append (h : tree.lstat path = .ok (.dir entries)) (name : String) :
    tree.lstat (path ++ [name]) = match entries.lookup name with
      | some node => .ok node
      | none => .error .notFound := by
  induction path generalizing tree with
  | nil =>
    rw [lstat] at h
    cases h
    rw [List.nil_append, lstat]
    cases entries.lookup name with
    | none => rfl
    | some node => exact lstat.eq_1 node
  | cons first path ih =>
    cases tree with
    | dir others =>
      rw [lstat] at h
      rw [List.cons_append, lstat]
      cases hlookup : others.lookup first with
      | none =>
        rw [hlookup] at h
        cases h
      | some node =>
        rw [hlookup] at h
        exact ih h
    | file size => cases h
    | link target => cases h
    | other => cases h

/-- An entry of a directory of different names is found by its name. -/
theorem lookup_of_mem (h : (entries.map Prod.fst).Nodup) (hmem : (name, node) ∈ entries) :
    entries.lookup name = some node := by
  obtain ⟨before, after, rfl⟩ := List.append_of_mem hmem
  apply List.lookup_eq_some_iff.mpr
  refine ⟨before, after, rfl, ?_⟩
  intro entry hentry
  rw [List.map_append, List.nodup_append] at h
  have hne := h.2.2 entry.1 (List.mem_map_of_mem hentry) name (List.mem_cons_self ..)
  simpa using hne.symm

theorem entriesProper_iff : EntriesProper entries ↔ ∀ entry ∈ entries, entry.2.Proper := by
  induction entries with
  | nil => simp [EntriesProper]
  | cons entry entries ih => rw [EntriesProper, ih, List.forall_mem_cons]

theorem depth_le {entry : String × Node} (h : entry ∈ entries) : entry.2.depth ≤ entriesDepth entries := by
  induction entries with
  | nil => exact absurd h List.not_mem_nil
  | cons first entries ih =>
    obtain rfl | h := List.mem_cons.mp h
    · exact le_max_left _ _
    · exact (ih h).trans (le_max_right _ _)

end Walks

section Edits

variable {tree value : Node} {path : TreePath} {name : String} {entries : Entries}
  {f g : Entries → Entries}

/-- The tree with the entries of one directory edited. -/
def edit (f : Entries → Entries) : Node → TreePath → Node
  | .dir entries, [] => .dir (f entries)
  | .dir entries, name :: rest =>
      .dir (entries.map fun entry => if entry.1 = name then (entry.1, edit f entry.2 rest) else entry)
  | node, _ => node

theorem put_append (tree value : Node) (path : TreePath) (name : String) :
    put value tree (path ++ [name]) = edit (fun entries => setEntry entries name value) tree path := by
  induction path generalizing tree with
  | nil => cases tree <;> rfl
  | cons first path ih =>
    cases tree with
    | dir entries =>
      obtain ⟨second, rest, hcons⟩ := List.exists_cons_of_ne_nil (List.append_ne_nil_of_right_ne_nil path
        (List.cons_ne_nil name []))
      have hput : put value (.dir entries) (first :: (path ++ [name])) =
          .dir (entries.map fun entry =>
            if entry.1 = first then (entry.1, put value entry.2 (path ++ [name])) else entry) := by
        rw [hcons]
        rfl
      rw [List.cons_append, hput, edit]
      simp only [ih]
    | file size => rfl
    | link target => rfl
    | other => rfl

theorem without_append (tree : Node) (path : TreePath) (name : String) :
    tree.without (path ++ [name]) =
      edit (fun entries => entries.filter fun entry => entry.1 ≠ name) tree path := by
  induction path generalizing tree with
  | nil => cases tree <;> rfl
  | cons first path ih =>
    cases tree with
    | dir entries =>
      rw [List.cons_append, without_cons (by simp), edit]
      simp only [ih]
    | file size => rfl
    | link target => rfl
    | other => rfl

theorem edit_edit (tree : Node) (path : TreePath) :
    edit g (edit f tree path) path = edit (g ∘ f) tree path := by
  induction path generalizing tree with
  | nil => cases tree <;> rfl
  | cons first path ih =>
    cases tree with
    | dir entries =>
      rw [edit, edit, edit, List.map_map]
      congr 1
      apply List.map_congr_left
      intro entry _
      rw [Function.comp_apply]
      by_cases heq : entry.1 = first
      · rw [if_pos heq, if_pos heq, if_pos heq, ih]
      · rw [if_neg heq, if_neg heq, if_neg heq]
    | file size => rfl
    | link target => rfl
    | other => rfl

theorem lookup_map_edit (entries : Entries) (name : String) (path : TreePath) :
    (entries.map fun entry => if entry.1 = name then (entry.1, edit f entry.2 path) else entry).lookup name =
      (entries.lookup name).map fun node => edit f node path := by
  induction entries with
  | nil => rfl
  | cons entry entries ih =>
    obtain ⟨other, node⟩ := entry
    by_cases heq : name = other
    · subst heq
      simp
    · have hne : (name == other) = false := beq_false_of_ne heq
      rw [List.map_cons, if_neg (fun h => heq h.symm), List.lookup_cons, hne, List.lookup_cons, hne]
      exact ih

theorem lstat_edit (h : tree.lstat path = .ok (.dir entries)) :
    (edit f tree path).lstat path = .ok (.dir (f entries)) := by
  induction path generalizing tree with
  | nil =>
    rw [lstat] at h
    cases h
    rfl
  | cons first path ih =>
    cases tree with
    | dir others =>
      rw [lstat] at h
      rw [edit, lstat, lookup_map_edit]
      cases hlookup : others.lookup first with
      | none =>
        rw [hlookup] at h
        cases h
      | some node =>
        rw [hlookup] at h
        exact ih h
    | file size => cases h
    | link target => cases h
    | other => cases h

/-- What is left of a directory when one of its entries is removed. -/
theorem lstat_without (h : tree.lstat path = .ok (.dir entries)) :
    (tree.without (path ++ [name])).lstat path =
      .ok (.dir (entries.filter fun entry => entry.1 ≠ name)) := by
  rw [without_append, lstat_edit h]

theorem mem_of_lookup {node : Node} (h : entries.lookup name = some node) : (name, node) ∈ entries := by
  obtain ⟨before, after, rfl, -⟩ := List.lookup_eq_some_iff.mp h
  exact List.mem_append_right _ List.mem_cons_self

/-- Edits of one directory that agree there give the same tree. -/
theorem edit_congr (hproper : tree.Proper) (h : tree.lstat path = .ok (.dir entries))
    (heq : f entries = g entries) : edit f tree path = edit g tree path := by
  induction path generalizing tree with
  | nil =>
    rw [lstat] at h
    cases h
    rw [edit, edit, heq]
  | cons first path ih =>
    cases tree with
    | dir others =>
      rw [Proper] at hproper
      rw [lstat] at h
      rw [edit, edit]
      congr 1
      apply List.map_congr_left
      intro entry hentry
      by_cases hname : entry.1 = first
      · rw [if_pos hname, if_pos hname]
        have hlookup : others.lookup first = some entry.2 := by
          apply lookup_of_mem hproper.1
          rw [← hname]
          exact hentry
        rw [hlookup] at h
        rw [ih (entriesProper_iff.mp hproper.2 entry hentry) h]
      · rw [if_neg hname, if_neg hname]
    | file size => cases h
    | link target => cases h
    | other => cases h

theorem edit_id (tree : Node) (path : TreePath) : edit id tree path = tree := by
  induction path generalizing tree with
  | nil => cases tree <;> rfl
  | cons first path ih =>
    cases tree with
    | dir entries =>
      rw [edit]
      congr 1
      conv_rhs => rw [← List.map_id entries]
      apply List.map_congr_left
      intro entry _
      rw [ih, ite_self, id]
    | file size => rfl
    | link target => rfl
    | other => rfl

/-- What is found at a path of a tree is proper, and no deeper than the tree. -/
theorem lstat_proper (hproper : tree.Proper) (h : tree.lstat path = .ok value) :
    value.Proper ∧ value.depth ≤ tree.depth := by
  induction path generalizing tree with
  | nil =>
    rw [lstat] at h
    cases h
    exact ⟨hproper, le_refl _⟩
  | cons first path ih =>
    cases tree with
    | dir others =>
      rw [Proper] at hproper
      rw [lstat] at h
      cases hlookup : others.lookup first with
      | none =>
        rw [hlookup] at h
        cases h
      | some node =>
        rw [hlookup] at h
        have hmem := mem_of_lookup hlookup
        obtain ⟨hvalue, hdepth⟩ := ih (entriesProper_iff.mp hproper.2 _ hmem) h
        have hle := depth_le hmem
        rw [Node.depth]
        exact ⟨hvalue, by omega⟩
    | file size => cases h
    | link target => cases h
    | other => cases h

/-- A name put where there was none is removed without a trace. -/
theorem filter_setEntry (h : entries.lookup name = none) (value : Node) :
    (setEntry entries name value).filter (fun entry => entry.1 ≠ name) = entries := by
  have hnot : ∀ entry ∈ entries, entry.1 ≠ name := by
    intro entry hentry heq
    have hne := List.lookup_eq_none_iff.mp h entry hentry
    rw [heq] at hne
    simp at hne
  have hnew : name ∉ entries.map Prod.fst := by
    intro hmem
    obtain ⟨entry, hentry, heq⟩ := List.mem_map.mp hmem
    exact hnot entry hentry heq
  rw [setEntry, if_neg hnew, List.filter_append, List.filter_eq_self.mpr fun entry hentry =>
    decide_eq_true (hnot entry hentry)]
  simp

end Edits

section Entry

variable {tree value u v : Node} {path : TreePath} {name other : String} {entries : Entries}
  {f : Entries → Entries}

theorem lookup_setEntry (entries : Entries) (name : String) (value : Node) :
    (setEntry entries name value).lookup name = some value := by
  rw [setEntry]
  split
  · next hmem =>
    induction entries with
    | nil => exact absurd hmem List.not_mem_nil
    | cons entry entries ih =>
      by_cases heq : entry.1 = name
      · rw [List.map_cons, if_pos heq, List.lookup_cons, beq_self_eq_true]
      · have hne : (name == entry.1) = false := beq_false_of_ne (Ne.symm heq)
        rw [List.map_cons, if_neg heq, List.lookup_cons, hne]
        exact ih ((List.mem_cons.mp hmem).resolve_left (Ne.symm heq))
  · next hnew =>
    have hnone : entries.lookup name = none := by
      apply List.lookup_eq_none_iff.mpr
      intro entry hentry
      have hne : name ≠ entry.1 := fun heq => hnew (heq ▸ List.mem_map_of_mem hentry)
      simp [hne]
    rw [List.lookup_append, hnone]
    simp

theorem map_replace_new (h : name ∉ entries.map Prod.fst) (value : Node) :
    (entries.map fun entry => if entry.1 = name then (name, value) else entry) = entries := by
  conv_rhs => rw [← List.map_id entries]
  apply List.map_congr_left
  intro entry hentry
  have hne : entry.1 ≠ name := by
    intro heq
    exact h (heq ▸ List.mem_map_of_mem hentry)
  rw [if_neg hne, id]

theorem lookup_setEntry_ne (h : other ≠ name) (entries : Entries) (value : Node) :
    (setEntry entries name value).lookup other = entries.lookup other := by
  have hne : (other == name) = false := beq_false_of_ne h
  rw [setEntry]
  split
  · induction entries with
    | nil => rfl
    | cons entry entries ih =>
      by_cases heq : entry.1 = name
      · rw [List.map_cons, if_pos heq, List.lookup_cons, List.lookup_cons, heq, hne]
        by_cases hmem : name ∈ entries.map Prod.fst
        · exact ih hmem
        · rw [map_replace_new hmem]
      · rw [List.map_cons, if_neg heq, List.lookup_cons, List.lookup_cons]
        by_cases hmem : name ∈ entries.map Prod.fst
        · rw [ih hmem]
        · rw [map_replace_new hmem]
  · rw [List.lookup_append, List.lookup_cons, hne, List.lookup_nil, Option.or_none]

theorem map_fst_setEntry (entries : Entries) (name : String) (value : Node) :
    (setEntry entries name value).map Prod.fst =
      if name ∈ entries.map Prod.fst then entries.map Prod.fst else entries.map Prod.fst ++ [name] := by
  rw [setEntry]
  split
  · rw [List.map_map]
    apply List.map_congr_left
    intro entry _
    rw [Function.comp_apply]
    split
    · next heq => exact heq.symm
    · rfl
  · rw [List.map_append, List.map_singleton]

theorem setEntry_setEntry (entries : Entries) (name : String) (u v : Node) :
    setEntry (setEntry entries name u) name v = setEntry entries name v := by
  have hmem : name ∈ (setEntry entries name u).map Prod.fst := by
    rw [map_fst_setEntry]
    split
    · assumption
    · simp
  rw [setEntry, if_pos hmem, setEntry, setEntry]
  split
  · rw [List.map_map]
    apply List.map_congr_left
    intro entry _
    rw [Function.comp_apply]
    by_cases heq : entry.1 = name
    · rw [if_pos heq, if_pos rfl, if_pos heq]
    · rw [if_neg heq, if_neg heq]
  · next hnew =>
    rw [List.map_append, List.map_singleton, if_pos rfl, map_replace_new hnew]

theorem mem_setEntry {entry : String × Node} (h : entry ∈ setEntry entries name value) :
    entry = (name, value) ∨ entry ∈ entries := by
  rw [setEntry] at h
  split at h
  · obtain ⟨old, hold, rfl⟩ := List.mem_map.mp h
    split
    · exact Or.inl rfl
    · exact Or.inr hold
  · obtain h | h := List.mem_append.mp h
    · exact Or.inr h
    · exact Or.inl (List.mem_singleton.mp h)

theorem entriesDepth_le {d : Nat} : entriesDepth entries ≤ d ↔ ∀ entry ∈ entries, entry.2.depth ≤ d := by
  induction entries with
  | nil => simp [entriesDepth]
  | cons entry entries ih => rw [entriesDepth, max_le_iff, ih, List.forall_mem_cons]

/-- A file put into a directory keeps it proper, and no deeper. -/
theorem proper_put_file (hproper : (Node.dir entries).Proper) (size : Nat) :
    (Node.dir (setEntry entries name (.file size))).Proper ∧
      (Node.dir (setEntry entries name (.file size))).depth ≤ (Node.dir entries).depth := by
  rw [Proper] at hproper
  obtain ⟨hnodup, hall⟩ := hproper
  rw [Proper, Node.depth, Node.depth]
  refine ⟨⟨?_, ?_⟩, Nat.succ_le_succ ?_⟩
  · rw [map_fst_setEntry]
    split
    · exact hnodup
    · next hnew =>
      rw [← List.concat_eq_append]
      exact hnodup.concat hnew
  · apply entriesProper_iff.mpr
    intro entry hentry
    obtain rfl | hentry := mem_setEntry hentry
    · trivial
    · exact entriesProper_iff.mp hall entry hentry
  · apply entriesDepth_le.mpr
    intro entry hentry
    obtain rfl | hentry := mem_setEntry hentry
    · exact Nat.zero_le _
    · exact depth_le hentry

/-- An edit below an entry is one of the directory of the entry. -/
theorem edit_append (tree : Node) (path : TreePath) (name : String) :
    edit f tree (path ++ [name]) = edit (fun entries => entries.map fun entry =>
      if entry.1 = name then (entry.1, edit f entry.2 []) else entry) tree path := by
  induction path generalizing tree with
  | nil => cases tree <;> rfl
  | cons first path ih =>
    cases tree with
    | dir entries =>
      rw [List.cons_append, edit, edit]
      simp only [ih]
    | file size => rfl
    | link target => rfl
    | other => rfl

end Entry

end Node

end HccastWired.Foundation
