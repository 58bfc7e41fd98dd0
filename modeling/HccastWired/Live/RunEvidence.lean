import HccastWired.Foundation.Call
import HccastWired.Foundation.FileTree
import HccastWired.Foundation.PyText

/-!
# Retention of run evidence

`RunEvidenceWriter.finalize` marks an attempt complete by its `RESULT.json` and then removes
older complete attempts, in the order of their names, until the limits hold. A call that
would follow a symbolic link fails here, so what succeeds has followed none.
-/

namespace HccastWired.Live.RunEvidence

open Foundation Node PyText

inductive Fault
  | value
  | runtime
  | system (error : TreeError)
  deriving DecidableEq

abbrev TreeCall := Call Node Fault

def read {α : Type} (f : Node → Except TreeError α) : TreeCall α := do
  let tree ← Call.get
  Call.ofExcept ((f tree).mapError .system)

def change (f : Node → Except TreeError Node) : TreeCall Unit := do
  let tree ← Call.get
  match f tree with
  | .ok next => Call.update fun _ => next
  | .error e => throw (.system e)

/-- A `RunEvidenceWriter`; its `path` is the entry `name` of `root`. -/
structure RunEvidenceWriter where
  root : TreePath
  name : String
  retentionCount : Int
  retentionBytes : Int
  finalized : Bool

def isTokenChar (c : Char) : Bool :=
  c.isAlphanum || c = '_' || c = '-'

/-- `_ATTEMPT_DIRECTORY.fullmatch(name)`. -/
def attemptDirectory (name : String) : Bool :=
  let text := name.toList
  let token := text.drop 17
  (text.take 8).all (fun c => (decimal c).isSome) && text[8]? = some 'T' &&
    ((text.drop 9).take 6).all (fun c => (decimal c).isSome) && text[15]? = some 'Z' &&
    text[16]? = some '-' && 1 ≤ token.length && token.length ≤ 64 && token.all isTokenChar

/-- `_tree_size`. -/
def treeSize : Nat → TreePath → TreeCall Nat
  | 0, _ => throw (.system .depth)
  | fuel + 1, directory => do
      let entries ← read (·.scandir directory)
      entries.foldlM (fun total entry => do
        let path := directory ++ [entry.1]
        match ← read (·.lstat path) with
        | .file size => pure (total + size)
        | .dir _ =>
            let size ← treeSize fuel path
            pure (total + size)
        | _ => pure total) 0

/-- `_remove_tree`. -/
def removeTree : Nat → TreePath → TreeCall Unit
  | 0, _ => throw (.system .depth)
  | fuel + 1, directory => do
      let entries ← read (·.scandir directory)
      entries.forM fun entry => do
        let path := directory ++ [entry.1]
        match ← read (·.lstat path) with
        | .dir _ => removeTree fuel path
        | _ => change (·.unlink path)
      change (·.rmdir directory)

def temporaryName (filename token : String) : String :=
  "." ++ filename ++ "." ++ token ++ ".tmp"

def sortByName (attempts : List (String × Nat)) : List (String × Nat) :=
  attempts.mergeSort fun a b => a.1 ≤ b.1

namespace RunEvidenceWriter

/-- An entry's mode of `RESULT.json`, or nothing where there is no such file. -/
def resultMode (w : RunEvidenceWriter) (entry : String × Node) : TreeCall (Option Node) :=
  match entry.2 with
  | .dir _ =>
      tryCatch (do
        let mode ← read (·.lstat (w.root ++ [entry.1] ++ ["RESULT.json"]))
        pure (some mode)) fun e =>
          match e with
          | .system .notFound => pure none
          | e => throw e
  | _ => pure none

/-- One turn of the loop of `_complete_attempts`. -/
def completeAttempt (w : RunEvidenceWriter) (fuel : Nat) (entry : String × Node) :
    TreeCall (Option (String × Nat)) :=
  if attemptDirectory entry.1 then do
    match ← w.resultMode entry with
    | some (.file _) =>
        let size ← treeSize fuel (w.root ++ [entry.1])
        pure (some (entry.1, size))
    | _ => pure none
  else pure none

/-- `_complete_attempts`. -/
def completeAttempts (w : RunEvidenceWriter) (fuel : Nat) : TreeCall (List (String × Nat)) := do
  let entries ← read (·.scandir w.root)
  let complete ← entries.foldlM (fun complete entry => do
    match ← w.completeAttempt fuel entry with
    | some attempt => pure (complete ++ [attempt])
    | none => pure complete) []
  pure (sortByName complete)

/-- The loop of `_prune_complete_attempts`. -/
def pruneLoop (w : RunEvidenceWriter) (fuel : Nat) :
    Int → Int → List (String × Nat) → TreeCall Unit
  | _, _, [] => pure ()
  | completeCount, totalBytes, (candidate, size) :: rest =>
      if completeCount ≤ w.retentionCount ∧ totalBytes ≤ w.retentionBytes then pure ()
      else if candidate = w.name then w.pruneLoop fuel completeCount totalBytes rest
      else do
        removeTree fuel (w.root ++ [candidate])
        w.pruneLoop fuel (completeCount - 1) (totalBytes - size) rest

/-- `_prune_complete_attempts`. -/
def pruneCompleteAttempts (w : RunEvidenceWriter) (fuel : Nat) : TreeCall Unit := do
  let complete ← w.completeAttempts fuel
  w.pruneLoop fuel complete.length (complete.map Prod.snd).sum complete

/-- `_atomic_json`, of a document of so many bytes. -/
def atomicJson (w : RunEvidenceWriter) (filename : String) (payload : Nat) (token : String) :
    TreeCall Unit := do
  let path := w.root ++ [w.name]
  let temporary := temporaryName filename token
  change (·.create path temporary)
  tryCatch (do
    change fun tree => .ok (put (.file payload) tree (path ++ [temporary]))
    change (·.replace path temporary filename)) fun e => do
      tryCatch (change (·.unlink (path ++ [temporary]))) fun e =>
        match e with
        | .system .notFound => pure ()
        | e => throw e
      throw e

/-- `finalize`, with the directory tree that it leaves. -/
def finalize (w : RunEvidenceWriter) (fuel : Nat) (terminalReason : String) (payload : Nat)
    (token : String) (tree : Node) : Except Fault Unit × RunEvidenceWriter × Node :=
  if terminalReason = "" then (.error .value, w, tree)
  else if w.finalized then (.error .runtime, w, tree)
  else
    let write := w.atomicJson "RESULT.json" payload token
    match (write tree).1 with
    | .error e => (.error e, w, write.final tree)
    | .ok _ =>
        let prune := w.pruneCompleteAttempts fuel
        let written := write.final tree
        ((prune written).1, { w with finalized := true }, prune.final written)

end RunEvidenceWriter

section Walks

variable {tree node : Node} {path : TreePath} {name : String} {inner rest : Entries} {fuel : Nat}
  {crash : Node → Prop} {fail : Fault → Node → Prop}

@[simp] theorem wp_read {α : Type} {f : Node → Except TreeError α} {post : α → Node → Prop} :
    (read f).wp crash post fail tree ↔
      match f tree with
      | .ok a => post a tree
      | .error e => fail (.system e) tree := by
  rw [read, Call.wp_bind, Call.wp_get, Call.wp_ofExcept]
  cases f tree with
  | ok a => rfl
  | error e => rfl

theorem wp_change {f : Node → Except TreeError Node} {post : Unit → Node → Prop} :
    (change f).wp crash post fail tree ↔
      match f tree with
      | .ok next => crash next ∧ post () next
      | .error e => fail (.system e) tree := by
  rw [change, Call.wp_bind, Call.wp_get]
  cases f tree with
  | ok a => exact Call.wp_update
  | error e => exact Call.wp_throw _

theorem lstat_entry (h : tree.lstat path = .ok (.dir inner)) (hlookup : inner.lookup name = some node) :
    tree.lstat (path ++ [name]) = .ok node := by
  rw [lstat_append h, hlookup]

theorem lookup_head (name : String) (node : Node) (rest : Entries) :
    ((name, node) :: rest).lookup name = some node := by
  simp

/-- The size of a directory is that of its files; links are not followed. -/
theorem wp_treeSize (h : tree.lstat path = .ok (.dir inner)) (hproper : (Node.dir inner).Proper)
    (hfuel : (Node.dir inner).depth ≤ fuel) :
    (treeSize fuel path).wp (fun _ => False)
      (fun size t => size = entriesBytes inner ∧ t = tree) (fun _ _ => False) tree := by
  induction fuel generalizing path inner with
  | zero => exact absurd hfuel (by simp [Node.depth])
  | succ fuel ih =>
    rw [treeSize, Call.wp_bind, wp_read, scandir_of_lstat h]
    refine (Call.wp_foldlM (I := fun (rest : Entries) (total : Nat) (t : Node) => t = tree ∧
      total + entriesBytes rest = entriesBytes inner ∧ ∀ entry ∈ rest, entry ∈ inner)
      ?_ inner 0 tree ⟨rfl, Nat.zero_add _, fun _ hmem => hmem⟩).mono ?_ fun _ _ hf => hf
    · rintro ⟨name, node⟩ rest total t ⟨rfl, hsum, hmem⟩
      have hin := hmem _ List.mem_cons_self
      have hlstat := lstat_entry h (lookup_of_mem hproper.1 hin)
      have hrest : ∀ entry ∈ rest, entry ∈ inner := fun entry hr => hmem entry (List.mem_cons_of_mem _ hr)
      rw [Call.wp_bind, wp_read, hlstat]
      rw [entriesBytes] at hsum
      cases node with
      | file size =>
        rw [Node.bytes] at hsum
        exact (Call.wp_pure _).mpr ⟨rfl, by omega, hrest⟩
      | dir below =>
        rw [Node.bytes] at hsum
        have hbelow := entriesProper_iff.mp hproper.2 _ hin
        have hdepth : (Node.dir below).depth ≤ fuel := by
          have hle := depth_le hin
          rw [Node.depth] at hfuel
          exact hle.trans (Nat.le_of_succ_le_succ hfuel)
        apply Call.wp_bind.mpr
        refine (ih hlstat hbelow hdepth).mono ?_ fun _ _ hf => hf
        rintro size t ⟨rfl, rfl⟩
        exact (Call.wp_pure _).mpr ⟨rfl, by omega, hrest⟩
      | link target =>
        rw [Node.bytes] at hsum
        exact (Call.wp_pure _).mpr ⟨rfl, by omega, hrest⟩
      | other =>
        rw [Node.bytes] at hsum
        exact (Call.wp_pure _).mpr ⟨rfl, by omega, hrest⟩
    · rintro total t ⟨rfl, hsum, -⟩
      exact ⟨by rw [← hsum, entriesBytes, Nat.add_zero], rfl⟩

/-- A directory is removed with all that is in it, and nothing else is. -/
theorem wp_removeTree (hpath : path ≠ []) (h : tree.lstat path = .ok (.dir inner))
    (hproper : (Node.dir inner).Proper) (hfuel : (Node.dir inner).depth ≤ fuel) :
    (removeTree fuel path).wp (fun _ => True) (fun _ t => t = tree.without path) (fun _ _ => False)
      tree := by
  induction fuel generalizing path inner tree with
  | zero => exact absurd hfuel (by simp [Node.depth])
  | succ fuel ih =>
    rw [removeTree, Call.wp_bind, wp_read, scandir_of_lstat h]
    apply Call.wp_bind.mpr
    -- what is left of the directory is what the loop has still to remove
    refine (Call.wp_forM (I := fun (rest : Entries) (t : Node) => t.lstat path = .ok (.dir rest) ∧
      t.without path = tree.without path ∧ (rest.map Prod.fst).Nodup ∧ ∀ entry ∈ rest, entry ∈ inner)
      ?_ inner tree ⟨h, rfl, hproper.1, fun _ hmem => hmem⟩).mono ?_ fun _ _ hf => hf
    · rintro ⟨name, node⟩ rest t ⟨hdir, hwithout, hnodup, hmem⟩
      have hlstat := lstat_entry hdir (lookup_head name node rest)
      have hin := hmem _ List.mem_cons_self
      have hnext : ∀ t', t' = t.without (path ++ [name]) →
          t'.lstat path = .ok (.dir rest) ∧ t'.without path = tree.without path ∧
            (rest.map Prod.fst).Nodup ∧ ∀ entry ∈ rest, entry ∈ inner := by
        rintro t' rfl
        refine ⟨?_, ?_, (List.nodup_cons.mp hnodup).2, fun entry hr => hmem entry (List.mem_cons_of_mem _ hr)⟩
        · rw [lstat_without hdir, filter_head hnodup]
        · rw [without_without t hpath, hwithout]
      have hunlink : ∀ node, t.lstat (path ++ [name]) = .ok node → (∀ below, node ≠ .dir below) →
          (change (·.unlink (path ++ [name]))).wp (fun _ => True) (fun _ t' =>
            t'.lstat path = .ok (.dir rest) ∧ t'.without path = tree.without path ∧
              (rest.map Prod.fst).Nodup ∧ ∀ entry ∈ rest, entry ∈ inner) (fun _ _ => False) t := by
        intro node hnode hdirs
        rw [wp_change, unlink, hnode]
        cases node with
        | dir below => exact absurd rfl (hdirs below)
        | file size => exact ⟨trivial, hnext _ rfl⟩
        | link target => exact ⟨trivial, hnext _ rfl⟩
        | other => exact ⟨trivial, hnext _ rfl⟩
      rw [Call.wp_bind, wp_read, hlstat]
      cases node with
      | dir below =>
        have hbelow := entriesProper_iff.mp hproper.2 _ hin
        have hdepth : (Node.dir below).depth ≤ fuel := by
          have hle := depth_le hin
          rw [Node.depth] at hfuel
          exact hle.trans (Nat.le_of_succ_le_succ hfuel)
        exact (ih (by simp) hlstat hbelow hdepth).mono (fun _ t' ht => hnext t' ht) fun _ _ hf => hf
      | file size => exact hunlink _ hlstat (by simp)
      | link target => exact hunlink _ hlstat (by simp)
      | other => exact hunlink _ hlstat (by simp)
    · rintro _ t ⟨hdir, hwithout, -, -⟩
      rw [wp_change, rmdir, hdir]
      exact ⟨trivial, hwithout⟩

end Walks

section Attempts

/-- A complete attempt: a directory of an attempt's name with a regular `RESULT.json`. -/
def isComplete (entry : String × Node) : Bool :=
  attemptDirectory entry.1 &&
    match entry.2 with
    | .dir inner =>
        match inner.lookup "RESULT.json" with
        | some (.file _) => true
        | _ => false
    | _ => false

/-- The complete attempts of a root in the order of their names, with their bytes. -/
def complete (entries : Entries) : List (String × Nat) :=
  sortByName ((entries.filter isComplete).map fun entry => (entry.1, entry.2.bytes))

theorem mem_complete {entries : Entries} {attempt : String × Nat} :
    attempt ∈ complete entries ↔
      ∃ node, (attempt.1, node) ∈ entries ∧ isComplete (attempt.1, node) = true ∧ node.bytes = attempt.2 := by
  rw [complete, sortByName, List.mem_mergeSort, List.mem_map]
  constructor
  · rintro ⟨⟨name, node⟩, hmem, rfl⟩
    exact ⟨node, (List.mem_filter.mp hmem).1, (List.mem_filter.mp hmem).2, rfl⟩
  · rintro ⟨node, hmem, hcomplete, hbytes⟩
    exact ⟨(attempt.1, node), List.mem_filter.mpr ⟨hmem, hcomplete⟩, Prod.ext rfl hbytes⟩

theorem complete_nodup {entries : Entries} (h : (entries.map Prod.fst).Nodup) :
    ((complete entries).map Prod.fst).Nodup := by
  have hperm : (complete entries).Perm _ := List.mergeSort_perm _ _
  apply (hperm.map Prod.fst).nodup_iff.mpr
  rw [List.map_map]
  exact (List.filter_sublist.map Prod.fst).nodup h

theorem complete_sorted {entries : Entries} (h : (entries.map Prod.fst).Nodup) :
    (complete entries).Pairwise fun a b => a.1 < b.1 := by
  have hle : (complete entries).Pairwise fun a b => decide (a.1 ≤ b.1) = true := by
    apply List.pairwise_mergeSort
    · intro a b c hab hbc
      exact decide_eq_true ((of_decide_eq_true hab).trans (of_decide_eq_true hbc))
    · intro a b
      rw [Bool.or_eq_true, decide_eq_true_iff, decide_eq_true_iff]
      exact le_total a.1 b.1
  have hne : (complete entries).Pairwise fun a b => a.1 ≠ b.1 := List.pairwise_map.mp (complete_nodup h)
  exact (hle.and hne).imp fun hab => lt_of_le_of_ne (of_decide_eq_true hab.1) hab.2

variable {w : RunEvidenceWriter} {tree : Node} {entries : Entries} {fuel : Nat} {entry : String × Node}

/-- An entry of the root counts exactly when it is complete. -/
theorem wp_completeAttempt (hroot : tree.lstat w.root = .ok (.dir entries))
    (hproper : (Node.dir entries).Proper) (hfuel : entriesDepth entries ≤ fuel) (hmem : entry ∈ entries) :
    (w.completeAttempt fuel entry).wp (fun _ => False) (fun attempt t =>
      attempt = (if isComplete entry then some (entry.1, entry.2.bytes) else none) ∧ t = tree)
      (fun _ _ => False) tree := by
  obtain ⟨name, node⟩ := entry
  have hlstat := lstat_entry hroot (lookup_of_mem hproper.1 hmem)
  rw [RunEvidenceWriter.completeAttempt]
  by_cases hname : attemptDirectory name = true
  · rw [if_pos hname, Call.wp_bind, RunEvidenceWriter.resultMode]
    cases node with
    | dir inner =>
      have hfile := lstat_append hlstat "RESULT.json"
      rw [Call.wp_tryCatch, Call.wp_bind, wp_read, hfile]
      cases hlookup : inner.lookup "RESULT.json" with
      | none =>
        have hnot : isComplete (name, .dir inner) = false := by simp [isComplete, hlookup]
        simp [hnot]
      | some result =>
        cases result with
        | file size =>
          have hcomplete : isComplete (name, .dir inner) = true := by simp [isComplete, hlookup, hname]
          have hsize := wp_treeSize hlstat (entriesProper_iff.mp hproper.2 _ hmem)
            ((depth_le hmem).trans hfuel)
          simp only [Call.wp_pure, Call.wp_bind, hcomplete, if_true]
          refine hsize.mono ?_ fun _ _ hf => hf
          rintro size t ⟨rfl, rfl⟩
          exact ⟨by rw [Node.bytes], rfl⟩
        | dir below =>
          have hnot : isComplete (name, .dir inner) = false := by simp [isComplete, hlookup]
          simp [hnot]
        | link target =>
          have hnot : isComplete (name, .dir inner) = false := by simp [isComplete, hlookup]
          simp [hnot]
        | other =>
          have hnot : isComplete (name, .dir inner) = false := by simp [isComplete, hlookup]
          simp [hnot]
    | file size => simp [isComplete]
    | link target => simp [isComplete]
    | other => simp [isComplete]
  · have hnot : isComplete (name, node) = false := by simp [isComplete, hname]
    rw [if_neg hname, hnot]
    exact (Call.wp_pure _).mpr ⟨rfl, rfl⟩

theorem wp_completeAttempts (hroot : tree.lstat w.root = .ok (.dir entries))
    (hproper : (Node.dir entries).Proper) (hfuel : entriesDepth entries ≤ fuel) :
    (w.completeAttempts fuel).wp (fun _ => False)
      (fun attempts t => attempts = complete entries ∧ t = tree) (fun _ _ => False) tree := by
  rw [RunEvidenceWriter.completeAttempts, Call.wp_bind, wp_read, scandir_of_lstat hroot]
  apply Call.wp_bind.mpr
  refine (Call.wp_foldlM (I := fun (rest : Entries) (found : List (String × Nat)) (t : Node) =>
    t = tree ∧ (∀ entry ∈ rest, entry ∈ entries) ∧
      found ++ (rest.filter isComplete).map (fun entry => (entry.1, entry.2.bytes)) =
        (entries.filter isComplete).map fun entry => (entry.1, entry.2.bytes))
    ?_ entries [] tree ⟨rfl, fun _ h => h, rfl⟩).mono ?_ fun _ _ hf => hf
  · rintro entry rest found t ⟨rfl, hmem, hfound⟩
    have hrest : ∀ other ∈ rest, other ∈ entries := fun other h => hmem other (List.mem_cons_of_mem _ h)
    apply Call.wp_bind.mpr
    refine (wp_completeAttempt hroot hproper hfuel (hmem entry List.mem_cons_self)).mono ?_
      fun _ _ hf => hf
    rintro attempt t ⟨rfl, rfl⟩
    by_cases hcomplete : isComplete entry = true
    · rw [List.filter_cons_of_pos hcomplete, List.map_cons] at hfound
      rw [if_pos hcomplete]
      refine (Call.wp_pure _).mpr ⟨rfl, hrest, ?_⟩
      rw [List.append_assoc, List.singleton_append, hfound]
    · rw [List.filter_cons_of_neg hcomplete] at hfound
      rw [if_neg hcomplete]
      exact (Call.wp_pure _).mpr ⟨rfl, hrest, hfound⟩
  · rintro found t ⟨rfl, -, hfound⟩
    rw [List.filter_nil, List.map_nil, List.append_nil] at hfound
    exact (Call.wp_pure _).mpr ⟨by rw [hfound, complete], rfl⟩

end Attempts

section Pruning

variable {w : RunEvidenceWriter} {tree : Node} {entries : Entries} {fuel : Nat}

/-- The attempts fit the limits. -/
def RunEvidenceWriter.Within (w : RunEvidenceWriter) (attempts : List (String × Nat)) : Prop :=
  (attempts.length : Int) ≤ w.retentionCount ∧ ((attempts.map Prod.snd).sum : Int) ≤ w.retentionBytes

/-- The attempts other than the writer's own. -/
def RunEvidenceWriter.others (w : RunEvidenceWriter) (attempts : List (String × Nat)) :
    List (String × Nat) :=
  attempts.filter fun attempt => attempt.1 ≠ w.name

/-- The attempts without the first others. -/
def RunEvidenceWriter.kept (w : RunEvidenceWriter) (attempts : List (String × Nat)) (k : Nat) :
    List (String × Nat) :=
  attempts.filter fun attempt => attempt.1 ∉ ((w.others attempts).take k).map Prod.fst

/-- The names are those of the shortest prefix of the others without which the attempts fit
the limits, or of all of them where none suffices. -/
def RunEvidenceWriter.Shortest (w : RunEvidenceWriter) (attempts : List (String × Nat))
    (names : List String) : Prop :=
  ∃ k ≤ (w.others attempts).length, names = ((w.others attempts).take k).map Prod.fst ∧
    (∀ j < k, ¬ w.Within (w.kept attempts j)) ∧
    (k < (w.others attempts).length → w.Within (w.kept attempts k))

/-- What the loop removes. -/
def RunEvidenceWriter.pruned (w : RunEvidenceWriter) : Int → Int → List (String × Nat) → List String
  | _, _, [] => []
  | completeCount, totalBytes, (candidate, size) :: rest =>
      if completeCount ≤ w.retentionCount ∧ totalBytes ≤ w.retentionBytes then []
      else if candidate = w.name then w.pruned completeCount totalBytes rest
      else candidate :: w.pruned (completeCount - 1) (totalBytes - size) rest

/-- The tree without entries of a directory. -/
def withoutAll (directory : TreePath) (names : List String) (tree : Node) : Node :=
  names.foldl (fun tree name => tree.without (directory ++ [name])) tree

theorem lstat_withoutAll {directory : TreePath} (h : tree.lstat directory = .ok (.dir entries))
    (names : List String) :
    (withoutAll directory names tree).lstat directory =
      .ok (.dir (entries.filter fun entry => entry.1 ∉ names)) := by
  induction names generalizing tree entries with
  | nil =>
    rw [withoutAll, List.foldl_nil, h, List.filter_eq_self.mpr]
    simp
  | cons name names ih =>
    have hkept : (tree.without (directory ++ [name])).lstat directory =
        .ok (.dir (entries.filter fun entry => entry.1 ≠ name)) := lstat_without h
    have hfirst := ih hkept
    rw [List.filter_filter] at hfirst
    rw [withoutAll, List.foldl_cons, ← withoutAll, hfirst]
    congr 3
    ext entry
    rw [Bool.and_comm]
    simp [not_or]

/-- The candidates are directories in the root, of different names. -/
def Removable (fuel : Nat) (entries : Entries) (candidates : List (String × Nat)) : Prop :=
  (candidates.map Prod.fst).Nodup ∧ ∀ candidate ∈ candidates, ∃ inner,
    entries.lookup candidate.1 = some (.dir inner) ∧ (Node.dir inner).Proper ∧
      (Node.dir inner).depth ≤ fuel

theorem lookup_filter_ne {name other : String} (h : other ≠ name) (entries : Entries) :
    (entries.filter fun entry => entry.1 ≠ name).lookup other = entries.lookup other := by
  induction entries with
  | nil => rfl
  | cons entry entries ih =>
    by_cases heq : entry.1 = name
    · have hne : (other == entry.1) = false := beq_false_of_ne (heq ▸ h)
      rw [List.filter_cons_of_neg (by simp [heq]), List.lookup_cons, hne]
      exact ih
    · rw [List.filter_cons_of_pos (by simp [heq]), List.lookup_cons, List.lookup_cons, ih]

/-- The loop removes the directories of its candidates, and nothing else. -/
theorem wp_pruneLoop {attempts : List (String × Nat)} {completeCount totalBytes : Int}
    (hroot : tree.lstat w.root = .ok (.dir entries)) (h : Removable fuel entries attempts) :
    (w.pruneLoop fuel completeCount totalBytes attempts).wp (fun _ => True)
      (fun _ t => t = withoutAll w.root (w.pruned completeCount totalBytes attempts) tree)
      (fun _ _ => False) tree := by
  induction attempts generalizing tree entries completeCount totalBytes with
  | nil => exact (Call.wp_pure _).mpr rfl
  | cons attempt attempts ih =>
    obtain ⟨candidate, size⟩ := attempt
    obtain ⟨hnodup, hall⟩ := h
    rw [RunEvidenceWriter.pruneLoop, RunEvidenceWriter.pruned]
    by_cases hwithin : completeCount ≤ w.retentionCount ∧ totalBytes ≤ w.retentionBytes
    · rw [if_pos hwithin, if_pos hwithin]
      exact (Call.wp_pure _).mpr rfl
    · rw [if_neg hwithin, if_neg hwithin]
      have hrest : Removable fuel entries attempts :=
        ⟨(List.nodup_cons.mp hnodup).2, fun other hother => hall other (List.mem_cons_of_mem _ hother)⟩
      by_cases hcurrent : candidate = w.name
      · rw [if_pos hcurrent, if_pos hcurrent]
        exact ih hroot hrest
      · rw [if_neg hcurrent, if_neg hcurrent, Call.wp_bind]
        obtain ⟨inner, hlookup, hproper, hdepth⟩ := hall _ List.mem_cons_self
        have hremove := wp_removeTree (by simp) (lstat_entry hroot hlookup) hproper hdepth
        refine hremove.mono ?_ fun _ _ hf => hf
        rintro _ t rfl
        have hnext : Removable fuel (entries.filter fun entry => entry.1 ≠ candidate) attempts := by
          refine ⟨hrest.1, fun other hother => ?_⟩
          have hne : other.1 ≠ candidate := by
            intro heq
            exact (List.nodup_cons.mp hnodup).1 (List.mem_map.mpr ⟨other, hother, heq⟩)
          rw [lookup_filter_ne hne]
          exact hrest.2 other hother
        exact ih (lstat_without hroot) hnext

/-- The loop stops at the shortest prefix: with the sums over what it has not removed. -/
theorem pruned_take (attempts : List (String × Nat)) (completeCount totalBytes : Int) :
    ∃ k ≤ (w.others attempts).length,
      w.pruned completeCount totalBytes attempts = ((w.others attempts).take k).map Prod.fst ∧
      (∀ j < k, ¬ (completeCount - j ≤ w.retentionCount ∧
        totalBytes - ((((w.others attempts).take j).map Prod.snd).sum : Nat) ≤ w.retentionBytes)) ∧
      (k < (w.others attempts).length → completeCount - k ≤ w.retentionCount ∧
        totalBytes - ((((w.others attempts).take k).map Prod.snd).sum : Nat) ≤ w.retentionBytes) := by
  induction attempts generalizing completeCount totalBytes with
  | nil => exact ⟨0, le_refl _, rfl, fun j hj => absurd hj (Nat.not_lt_zero j), fun h => absurd h (lt_irrefl 0)⟩
  | cons attempt attempts ih =>
    obtain ⟨candidate, size⟩ := attempt
    rw [RunEvidenceWriter.pruned]
    by_cases hwithin : completeCount ≤ w.retentionCount ∧ totalBytes ≤ w.retentionBytes
    · rw [if_pos hwithin]
      exact ⟨0, Nat.zero_le _, rfl, fun j hj => absurd hj (Nat.not_lt_zero j), fun _ => by simpa using hwithin⟩
    · rw [if_neg hwithin]
      by_cases hcurrent : candidate = w.name
      · have hothers : w.others ((candidate, size) :: attempts) = w.others attempts :=
          List.filter_cons_of_neg (by simp [hcurrent])
        rw [if_pos hcurrent, hothers]
        exact ih completeCount totalBytes
      · have hothers : w.others ((candidate, size) :: attempts) = (candidate, size) :: w.others attempts :=
          List.filter_cons_of_pos (by simp [hcurrent])
        obtain ⟨k, hk, hpruned, hbefore, hat⟩ := ih (completeCount - 1) (totalBytes - size)
        rw [if_neg hcurrent, hothers]
        refine ⟨k + 1, Nat.succ_le_succ hk, ?_, ?_, ?_⟩
        · rw [hpruned, List.take_succ_cons, List.map_cons]
        · intro j hj
          cases j with
          | zero => simpa using hwithin
          | succ j =>
            have hnot := hbefore j (Nat.lt_of_succ_lt_succ hj)
            rw [List.take_succ_cons, List.map_cons, List.sum_cons]
            rw [Nat.cast_succ, Nat.cast_add]
            rw [show completeCount - ((j : Int) + 1) = completeCount - 1 - j by ring, ← sub_sub]
            exact hnot
        · intro hlt
          have hfits := hat (Nat.lt_of_succ_lt_succ hlt)
          rw [List.take_succ_cons, List.map_cons, List.sum_cons]
          rw [Nat.cast_succ, Nat.cast_add]
          rw [show completeCount - ((k : Int) + 1) = completeCount - 1 - k by ring, ← sub_sub]
          exact hfits

/-- The limits on what is kept are those on the counts of the loop. -/
theorem within_kept {attempts : List (String × Nat)} (h : (attempts.map Prod.fst).Nodup) {k : Nat}
    (hk : k ≤ (w.others attempts).length) :
    w.Within (w.kept attempts k) ↔ (attempts.length : Int) - k ≤ w.retentionCount ∧
      ((attempts.map Prod.snd).sum : Int) - ((((w.others attempts).take k).map Prod.snd).sum : Nat) ≤
        w.retentionBytes := by
  have hnodup : attempts.Nodup := List.Nodup.of_map Prod.fst h
  have hsub : ((w.others attempts).take k).Sublist attempts :=
    (List.take_sublist _ _).trans List.filter_sublist
  have htaken : (attempts.filter fun attempt => attempt.1 ∈ ((w.others attempts).take k).map Prod.fst).Perm
      ((w.others attempts).take k) := by
    apply (List.perm_ext_iff_of_nodup (hnodup.filter _) (hsub.nodup hnodup)).mpr
    intro attempt
    rw [List.mem_filter, decide_eq_true_iff]
    constructor
    · rintro ⟨hmem, hname⟩
      obtain ⟨other, hother, heq⟩ := List.mem_map.mp hname
      rwa [← List.inj_on_of_nodup_map h (hsub.subset hother) hmem heq]
    · intro hmem
      exact ⟨hsub.subset hmem, List.mem_map_of_mem hmem⟩
  have hsplit := List.filter_append_perm
    (fun attempt : String × Nat => decide (attempt.1 ∈ ((w.others attempts).take k).map Prod.fst)) attempts
  have hkept : (attempts.filter fun attempt =>
      !decide (attempt.1 ∈ ((w.others attempts).take k).map Prod.fst)) = w.kept attempts k := by
    rw [RunEvidenceWriter.kept]
    apply List.filter_congr
    intro attempt _
    rw [decide_not]
  rw [hkept] at hsplit
  have hall := (htaken.symm.append_right (w.kept attempts k)).trans hsplit
  have hlength := hall.length_eq
  have hsum := (hall.map Prod.snd).sum_eq
  rw [List.length_append, List.length_take, min_eq_left hk] at hlength
  rw [List.map_append, List.sum_append] at hsum
  rw [RunEvidenceWriter.Within]
  omega

theorem pruned_shortest {attempts : List (String × Nat)} (h : (attempts.map Prod.fst).Nodup) :
    w.Shortest attempts (w.pruned attempts.length (attempts.map Prod.snd).sum attempts) := by
  obtain ⟨k, hk, hpruned, hbefore, hat⟩ :=
    pruned_take (w := w) attempts attempts.length (attempts.map Prod.snd).sum
  refine ⟨k, hk, hpruned, ?_, ?_⟩
  · intro j hj hwithin
    exact hbefore j hj ((within_kept h (hj.le.trans hk)).mp hwithin)
  · intro hlt
    exact (within_kept h hk).mpr (hat hlt)

theorem removable_complete (hproper : (Node.dir entries).Proper) (hfuel : entriesDepth entries ≤ fuel) :
    Removable fuel entries (complete entries) := by
  refine ⟨complete_nodup hproper.1, ?_⟩
  intro candidate hcandidate
  obtain ⟨node, hmem, hcomplete, -⟩ := mem_complete.mp hcandidate
  rw [isComplete, Bool.and_eq_true] at hcomplete
  cases node with
  | dir inner =>
    exact ⟨inner, lookup_of_mem hproper.1 hmem, entriesProper_iff.mp hproper.2 _ hmem, (depth_le hmem).trans hfuel⟩
  | file size => exact absurd hcomplete.2 Bool.false_ne_true
  | link target => exact absurd hcomplete.2 Bool.false_ne_true
  | other => exact absurd hcomplete.2 Bool.false_ne_true

/-- `_prune_complete_attempts` removes the shortest prefix and nothing else. -/
theorem wp_pruneCompleteAttempts (hroot : tree.lstat w.root = .ok (.dir entries))
    (hproper : (Node.dir entries).Proper) (hfuel : entriesDepth entries ≤ fuel) :
    (w.pruneCompleteAttempts fuel).wp (fun _ => True) (fun _ t => ∃ names,
      w.Shortest (complete entries) names ∧ t = withoutAll w.root names tree) (fun _ _ => False) tree := by
  rw [RunEvidenceWriter.pruneCompleteAttempts, Call.wp_bind]
  refine ((wp_completeAttempts hroot hproper hfuel).weaken fun _ hf => hf.elim).mono ?_ fun _ _ hf => hf
  rintro attempts t ⟨rfl, rfl⟩
  refine (wp_pruneLoop hroot (removable_complete hproper hfuel)).mono ?_ fun _ _ hf => hf
  rintro _ t rfl
  exact ⟨_, pruned_shortest (complete_nodup hproper.1), rfl⟩

end Pruning

section Finalizing

variable {w : RunEvidenceWriter} {tree : Node} {entries own : Entries} {fuel payload : Nat}
  {filename token reason : String}

theorem temporaryName_ne (filename token : String) : temporaryName filename token ≠ filename := by
  intro heq
  have hlength := congrArg String.length heq
  rw [temporaryName] at hlength
  simp only [String.length_append] at hlength
  have hdot : ".".length = 1 := rfl
  omega

/-- The writer can put the file in its directory: the temporary name is new, and the file is
not a directory. -/
def RunEvidenceWriter.Writable (w : RunEvidenceWriter) (filename token : String) (tree : Node) : Prop :=
  ∃ own, tree.lstat (w.root ++ [w.name]) = .ok (.dir own) ∧
    own.lookup (temporaryName filename token) = none ∧ ∀ inner, own.lookup filename ≠ some (.dir inner)

/-- `_atomic_json` replaces the file or changes nothing. -/
theorem wp_atomicJson (w : RunEvidenceWriter) (filename token : String) (payload : Nat)
    (hproper : tree.Proper) :
    (w.atomicJson filename payload token).wp (fun _ => True)
      (fun _ t => w.Writable filename token tree ∧
        t = put (.file payload) tree (w.root ++ [w.name] ++ [filename]))
      (fun _ t => ¬ w.Writable filename token tree ∧ t = tree) tree := by
  rw [RunEvidenceWriter.atomicJson, Call.wp_bind, wp_change]
  cases hscan : tree.scandir (w.root ++ [w.name]) with
  | error e =>
    rw [create, hscan]
    refine ⟨?_, rfl⟩
    rintro ⟨own, hown, -⟩
    rw [scandir_of_lstat hown] at hscan
    cases hscan
  | ok own =>
    have hown := lstat_of_scandir hscan
    have hwritable : w.Writable filename token tree ↔
        own.lookup (temporaryName filename token) = none ∧ ∀ inner, own.lookup filename ≠ some (.dir inner) := by
      constructor
      · rintro ⟨found, hfound, h⟩
        rw [hown] at hfound
        cases hfound
        exact h
      · intro h
        exact ⟨own, hown, h⟩
    rw [create_of_lstat hown]
    cases htemporary : own.lookup (temporaryName filename token) with
    | some node =>
      refine ⟨?_, rfl⟩
      intro h
      have hnone := (hwritable.mp h).1
      rw [htemporary] at hnone
      cases hnone
    | none =>
      refine ⟨trivial, ?_⟩
      rw [Call.wp_tryCatch, Call.wp_bind, wp_change]
      refine ⟨trivial, ?_⟩
      -- the temporary file with its content
      have hput : put (.file payload) (put (.file 0) tree
          (w.root ++ [w.name] ++ [temporaryName filename token]))
          (w.root ++ [w.name] ++ [temporaryName filename token]) =
            edit (fun entries => setEntry entries (temporaryName filename token) (.file payload)) tree
              (w.root ++ [w.name]) := by
        rw [put_append, put_append, edit_edit]
        congr 1
        funext entries
        exact setEntry_setEntry ..
      have hstate := lstat_edit (f := fun entries =>
        setEntry entries (temporaryName filename token) (.file payload)) hown
      -- without it the tree is the old one again
      have hwithout : (edit (fun entries => setEntry entries (temporaryName filename token) (.file payload))
          tree (w.root ++ [w.name])).without (w.root ++ [w.name] ++ [temporaryName filename token]) =
            tree := by
        rw [without_append, edit_edit, edit_congr (g := id) hproper hown, edit_id]
        exact filter_setEntry htemporary _
      have hsource := lookup_setEntry own (temporaryName filename token) (.file payload)
      have hdestination := lookup_setEntry_ne (temporaryName_ne filename token).symm own (.file payload)
      rw [hput, wp_change]
      by_cases hold : ∃ inner, own.lookup filename = some (.dir inner)
      · obtain ⟨inner, hinner⟩ := hold
        have hunlink : (edit (fun entries => setEntry entries (temporaryName filename token) (.file payload))
            tree (w.root ++ [w.name])).unlink (w.root ++ [w.name] ++ [temporaryName filename token]) =
              .ok tree := by
          rw [unlink, lstat_append hstate, hsource]
          exact congrArg Except.ok hwithout
        rw [replace_directory hstate hsource (hdestination.trans hinner)]
        simp only [Call.wp_bind, Call.wp_tryCatch, wp_change, hunlink, Call.wp_throw]
        refine ⟨trivial, ?_, trivial⟩
        intro h
        exact (hwritable.mp h).2 inner hinner
      · have hfile : ∀ inner, own.lookup filename ≠ some (.dir inner) := fun inner h => hold ⟨inner, h⟩
        rw [replace_of_lstat hstate hsource fun inner h => hfile inner (hdestination.symm.trans h), hwithout]
        exact ⟨trivial, hwritable.mpr ⟨htemporary, hfile⟩, rfl⟩

/-- The entries of the root when the attempt has its `RESULT.json`. -/
def RunEvidenceWriter.finishedEntries (w : RunEvidenceWriter) (payload : Nat) (entries : Entries) :
    Entries :=
  entries.map fun entry =>
    if entry.1 = w.name then (entry.1, put (.file payload) entry.2 ["RESULT.json"]) else entry

theorem finishedEntries_mem {entry : String × Node} (h : entry ∈ w.finishedEntries payload entries)
    (hname : entry.1 ≠ w.name) : entry ∈ entries := by
  obtain ⟨old, hold, rfl⟩ := List.mem_map.mp h
  by_cases heq : old.1 = w.name
  · rw [if_pos heq] at hname
    exact absurd heq hname
  · rwa [if_neg heq]

theorem put_file_proper {node : Node} (hproper : node.Proper) (payload : Nat) :
    (put (.file payload) node ["RESULT.json"]).Proper ∧
      (put (.file payload) node ["RESULT.json"]).depth ≤ node.depth := by
  cases node with
  | dir inner => exact proper_put_file hproper payload
  | file size => exact ⟨hproper, le_refl _⟩
  | link target => exact ⟨hproper, le_refl _⟩
  | other => exact ⟨hproper, le_refl _⟩

theorem finishedEntries_proper (w : RunEvidenceWriter) (hproper : (Node.dir entries).Proper)
    (payload : Nat) :
    (Node.dir (w.finishedEntries payload entries)).Proper ∧
      entriesDepth (w.finishedEntries payload entries) ≤ entriesDepth entries := by
  rw [Proper] at hproper
  obtain ⟨hnodup, hall⟩ := hproper
  have hnames : (w.finishedEntries payload entries).map Prod.fst = entries.map Prod.fst := by
    rw [RunEvidenceWriter.finishedEntries, List.map_map]
    apply List.map_congr_left
    intro entry _
    rw [Function.comp_apply]
    split <;> rfl
  have hentry : ∀ entry ∈ w.finishedEntries payload entries,
      entry.2.Proper ∧ entry.2.depth ≤ entriesDepth entries := by
    intro entry hmem
    obtain ⟨old, hold, rfl⟩ := List.mem_map.mp hmem
    have hproper := entriesProper_iff.mp hall old hold
    split
    · obtain ⟨hput, hdepth⟩ := put_file_proper hproper payload
      exact ⟨hput, hdepth.trans (depth_le hold)⟩
    · exact ⟨hproper, depth_le hold⟩
  rw [Proper, hnames]
  exact ⟨⟨hnodup, entriesProper_iff.mpr fun entry h => (hentry entry h).1⟩,
    entriesDepth_le.mpr fun entry h => (hentry entry h).2⟩

theorem lstat_finished (hroot : tree.lstat w.root = .ok (.dir entries)) (payload : Nat) :
    (put (.file payload) tree (w.root ++ [w.name] ++ ["RESULT.json"])).lstat w.root =
      .ok (.dir (w.finishedEntries payload entries)) := by
  rw [put_append, edit_append, lstat_edit hroot, RunEvidenceWriter.finishedEntries]
  congr 3
  funext entry
  rw [← put_append, List.nil_append]

theorem kept_zero (w : RunEvidenceWriter) (attempts : List (String × Nat)) : w.kept attempts 0 = attempts := by
  rw [RunEvidenceWriter.kept, List.take_zero, List.map_nil]
  simp

/-- What a shortest prefix removes is complete and not the writer's own. -/
theorem RunEvidenceWriter.Shortest.removed {names : List String} (h : w.Shortest (complete entries) names) {name : String}
    (hname : name ∈ names) :
    name ≠ w.name ∧ ∃ node, (name, node) ∈ entries ∧ isComplete (name, node) = true := by
  obtain ⟨k, -, rfl, -⟩ := h
  obtain ⟨attempt, hattempt, rfl⟩ := List.mem_map.mp hname
  have hother := List.mem_filter.mp (List.mem_of_mem_take hattempt)
  obtain ⟨node, hmem, hcomplete, -⟩ := mem_complete.mp hother.1
  exact ⟨of_decide_eq_true hother.2, node, hmem, hcomplete⟩

/-- Nothing is removed where the limits hold. -/
theorem RunEvidenceWriter.Shortest.nothing {attempts : List (String × Nat)} {names : List String}
    (h : w.Shortest attempts names) (hwithin : w.Within attempts) : names = [] := by
  obtain ⟨k, -, rfl, hbefore, -⟩ := h
  have hzero : k = 0 := by
    by_contra hne
    exact hbefore 0 (Nat.pos_of_ne_zero hne) ((kept_zero w attempts).symm ▸ hwithin)
  rw [hzero, List.take_zero, List.map_nil]

/-- Finalizing marks the attempt complete and removes exactly the shortest prefix, in the order of
the names, of the other complete attempts without which both limits hold; a call that fails
changes nothing. -/
theorem finalize_retention (w : RunEvidenceWriter) (fuel : Nat) (reason : String) (payload : Nat)
    (token : String) (tree : Node) (entries : Entries) (hproper : tree.Proper) (hfuel : tree.depth ≤ fuel)
    (hroot : tree.lstat w.root = .ok (.dir entries)) :
    let result := w.finalize fuel reason payload token tree
    let finished := put (.file payload) tree (w.root ++ [w.name] ++ ["RESULT.json"])
    let attempts := complete (w.finishedEntries payload entries)
    (result.1 = .ok () ↔ reason ≠ "" ∧ w.finalized = false ∧ w.Writable "RESULT.json" token tree) ∧
    (result.1 ≠ .ok () → result.2 = (w, tree)) ∧
    (result.1 = .ok () → result.2.1 = { w with finalized := true } ∧
      attempts.Pairwise (fun a b => a.1 < b.1) ∧
      ∃ names, w.Shortest attempts names ∧ result.2.2 = withoutAll w.root names finished ∧
        result.2.2.lstat w.root =
          .ok (.dir ((w.finishedEntries payload entries).filter fun entry => entry.1 ∉ names)) ∧
        (∀ name ∈ names, name ≠ w.name ∧ ∃ node, (name, node) ∈ entries ∧ isComplete (name, node) = true) ∧
        (w.Within attempts → names = [])) := by
  intro result finished attempts
  obtain ⟨hdir, hdepth⟩ := lstat_proper hproper hroot
  obtain ⟨hfound, hfoundDepth⟩ := finishedEntries_proper w hdir payload
  have hle : entriesDepth (w.finishedEntries payload entries) ≤ fuel := by
    rw [Node.depth] at hdepth
    omega
  have hfinished := lstat_finished hroot payload
  have hwrite := wp_atomicJson w "RESULT.json" token payload hproper
  by_cases hreason : reason = ""
  · have hresult : result = (.error .value, w, tree) := if_pos hreason
    rw [hresult]
    exact ⟨⟨fun h => (by cases h), fun h => absurd hreason h.1⟩, fun _ => rfl, fun h => by cases h⟩
  by_cases hdone : w.finalized = true
  · have hresult : result = (.error .runtime, w, tree) := (if_neg hreason).trans (if_pos hdone)
    rw [hresult]
    refine ⟨⟨fun h => (by cases h), fun h => ?_⟩, fun _ => rfl, fun h => by cases h⟩
    rw [hdone] at h
    exact absurd h.2.1 (Bool.noConfusion)
  rw [Bool.not_eq_true] at hdone
  cases hatomic : ((w.atomicJson "RESULT.json" payload token) tree).1 with
  | error e =>
    obtain ⟨hunwritable, hsame⟩ := hwrite.failed hatomic
    have hresult : result = (.error e, w, tree) := by
      simp only [result, RunEvidenceWriter.finalize, if_neg hreason, hdone, hatomic, hsame]
      rfl
    rw [hresult]
    exact ⟨⟨fun h => (by cases h), fun h => absurd h.2.2 hunwritable⟩, fun _ => rfl, fun h => by cases h⟩
  | ok _ =>
    obtain ⟨hwritable, hwritten⟩ := hwrite.ok hatomic
    obtain ⟨_, hprune, names, hshortest, htree⟩ :=
      (wp_pruneCompleteAttempts (w := w) hfinished hfound hle).returns
    have hresult : result = (.ok (), { w with finalized := true }, withoutAll w.root names finished) := by
      simp only [result, RunEvidenceWriter.finalize, if_neg hreason, hdone, hatomic, hwritten, hprune, htree]
      rfl
    rw [hresult]
    refine ⟨⟨fun _ => ⟨hreason, hdone, hwritable⟩, fun _ => rfl⟩, fun h => absurd rfl h, fun _ => ?_⟩
    refine ⟨rfl, complete_sorted hfound.1, names, hshortest, rfl, lstat_withoutAll hfinished names, ?_,
      hshortest.nothing⟩
    intro name hname
    obtain ⟨hne, node, hmem, hcomplete⟩ := hshortest.removed hname
    exact ⟨hne, node, finishedEntries_mem hmem hne, hcomplete⟩

/-- An older attempt, a link and a foreign file beside the writer's own directory. -/
def sampleRuns : Entries :=
  [("20260101T000000Z-a", .dir [("RESULT.json", .file 9), ("source.log", .file 30)]),
    ("20260102T000000Z-b", .link "/home"), ("notes", .file 5), ("20260103T000000Z-c", .dir [])]

theorem finalize_retention_sample :
    (RunEvidenceWriter.finalize ⟨["runs"], "20260103T000000Z-c", 1, 100, false⟩ 3 "stop" 20 "00"
      (.dir [("runs", .dir sampleRuns)])).1 = .ok () := by
  apply (finalize_retention ⟨["runs"], "20260103T000000Z-c", 1, 100, false⟩ 3 "stop" 20 "00"
    (.dir [("runs", .dir sampleRuns)]) sampleRuns ?_ ?_ ?_).1.mpr
  · exact ⟨by decide, rfl, [], rfl, rfl, fun inner h => by cases h⟩
  · simp [sampleRuns, Node.Proper, EntriesProper]
  · simp [sampleRuns, Node.depth, entriesDepth]
  · rfl

end Finalizing

end HccastWired.Live.RunEvidence
