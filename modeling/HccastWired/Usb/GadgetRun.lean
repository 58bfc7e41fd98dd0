import HccastWired.Foundation.Finally

/-!
# A run of the USB gadget

`_run_gadget` builds a gadget in ConfigFS, mounts its FunctionFS, binds it to a controller
and takes all of that down again. Every step of the setup can fail or be interrupted;
each answer of the kernel is a parameter.
-/

namespace HccastWired.Usb

open Foundation

/-- The components of an absolute path. -/
abbrev FsPath : Type := List String

/-- Directories, each in a directory. -/
structure Tree where
  has : FsPath → Bool
  closed : ∀ p, has p = true → has p.dropLast = true

namespace Tree

/-- A directory in one that is there. -/
def insert (t : Tree) (p : FsPath) (h : t.has p.dropLast = true) : Tree where
  has q := t.has q || decide (q = p)
  closed := by
    intro q hq
    rcases Bool.or_eq_true_iff.mp hq with hq | hq
    · exact Bool.or_eq_true_iff.mpr (Or.inl (t.closed q hq))
    · obtain rfl := of_decide_eq_true hq
      exact Bool.or_eq_true_iff.mpr (Or.inl h)

/-- The directories one after the other, without those that have no place. -/
def insertAll (t : Tree) : List FsPath → Tree
  | [] => t
  | p :: rest =>
      if h : t.has p.dropLast = true then (t.insert p h).insertAll rest
      else t.insertAll rest

/-- Without a directory and what is in it. -/
def remove (t : Tree) (p : FsPath) : Tree where
  has q := t.has q && !p.isPrefixOf q
  closed := by
    intro q hq
    obtain ⟨hhas, hout⟩ := Bool.and_eq_true_iff.mp hq
    refine Bool.and_eq_true_iff.mpr ⟨t.closed q hhas, ?_⟩
    simp only [Bool.not_eq_true', ← Bool.not_eq_true, List.isPrefixOf_iff_prefix] at hout ⊢
    exact fun hpath => hout (hpath.trans (List.dropLast_prefix q))

def union (t u : Tree) : Tree where
  has q := t.has q || u.has q
  closed := by
    intro q hq
    rcases Bool.or_eq_true_iff.mp hq with hq | hq
    · exact Bool.or_eq_true_iff.mpr (Or.inl (t.closed q hq))
    · exact Bool.or_eq_true_iff.mpr (Or.inr (u.closed q hq))

end Tree

/-- The arguments that name things; `resolved` is what the mountpoint resolves to, and
`plain` says that `/proc/mounts` shows it as it is. -/
structure Gadget where
  name : String
  functionName : String
  mountpoint : FsPath
  resolved : FsPath
  plain : Bool

def configfs : FsPath := ["sys", "kernel", "config"]

namespace Gadget

def configfsRoot : FsPath := ["sys", "kernel", "config", "usb_gadget"]

variable (g : Gadget)

def root : FsPath := configfsRoot ++ [g.name]

def config : FsPath := g.root ++ ["configs"] ++ ["c.1"]

def function : FsPath := g.root ++ ["functions"] ++ ["ffs." ++ g.functionName]

def link : FsPath := g.config ++ ["ffs." ++ g.functionName]

def deviceStrings : FsPath := g.root ++ ["strings"] ++ ["0x409"]

def configStrings : FsPath := g.config ++ ["strings"] ++ ["0x409"]

/-- The directories that the kernel makes with one of the gadget. -/
def groups (p : FsPath) : List FsPath :=
  if p = g.root then [p ++ ["configs"], p ++ ["functions"], p ++ ["strings"]]
  else if p = g.config then [p ++ ["strings"]]
  else []

end Gadget

/-- Something that the run has made. -/
inductive Made
  | dir (p : FsPath)
  | link (p : FsPath)
  | mount (target : FsPath) (fsType : String)
deriving DecidableEq

/-- The file system, the variables of the run and of its gadget, and what it has made;
`refused` are the removals that the kernel has refused, and `early` says that something
was removed while ep0 or an endpoint was open. -/
structure Board where
  index : Nat
  dirs : Tree
  links : FsPath → Bool
  mounts : List (FsPath × String)
  udc : String
  bound : Bool
  cleaning : Bool
  control : Bool
  ep0 : Bool
  transport : Bool
  session : Bool
  endpoints : Bool
  made : List Made
  refused : List Made
  early : Bool

/-- A start of the program. -/
def Board.start (dirs : Tree) (links : FsPath → Bool) (mounts : List (FsPath × String))
    (udc : String) : Board where
  index := 0
  dirs := dirs
  links := links
  mounts := mounts
  udc := udc
  bound := false
  cleaning := false
  control := false
  ep0 := false
  transport := false
  session := false
  endpoints := false
  made := []
  refused := []
  early := false

/-- A new directory, with those that the kernel adds; a new gadget is unbound. -/
def Board.makeDir (g : Gadget) (b : Board) (p : FsPath) (h : b.dirs.has p.dropLast = true) :
    Board :=
  { b with
    dirs := (b.dirs.insert p h).insertAll (g.groups p)
    udc := if p = g.root then "" else b.udc
    made := .dir p :: b.made }

/-- What a read of `/proc/mounts` gives. -/
inductive MountsRead
  | text
  | unreadable
  | undecodable
deriving DecidableEq

/-- How a command ends. -/
inductive CommandEnd
  | succeeded
  | failed
  | notStarted
deriving DecidableEq

/-- The answers of one run, each at the position at which it is asked for. `fails` is for
the steps of the setup; `reveals` are directories that a mount or a module shows. -/
structure KernelAnswers where
  interrupted : Nat → Bool
  fails : Nat → Bool
  chooseUdc : Nat → Except String String
  reveals : Nat → Tree
  openingInterrupted : Nat → Bool
  readMounts : Nat → MountsRead
  refusesUnbind : Nat → Bool
  refusesUnlink : Nat → Bool
  umount : Nat → CommandEnd
  refusesRmdir : Nat → Bool

abbrev GadgetCall (α : Type) : Type := Task Board String α

variable (k : KernelAnswers) (g : Gadget)

/-- The next answer; before the cleanup a signal can come there. -/
def next : GadgetCall Nat := do
  let b ← Call.get
  Call.update fun b => { b with index := b.index + 1 }
  Task.refuse (!b.cleaning && k.interrupted b.index) "KeyboardInterrupt"
  pure b.index

/-- A step that can fail and makes nothing. -/
def attempt : GadgetCall Unit := do
  let i ← next k
  Task.refuse (k.fails i) "failed"

/-- `os.mkdir`. -/
def mkdir (p : FsPath) : GadgetCall Unit := do
  let i ← next k
  let b ← Call.get
  if b.dirs.has p then Task.raise "File exists"
  else if h : b.dirs.has p.dropLast = true then
    if k.fails i then Task.raise "mkdir failed"
    else Call.update fun _ => b.makeDir g p h
  else Task.raise "No such file or directory"

/-- `mkdir(parents=True)` for the ancestors, the topmost first. -/
def mkdirMissing : List FsPath → GadgetCall Unit
  | [] => pure ()
  | p :: rest => do
      let b ← Call.get
      Task.when (!b.dirs.has p) (mkdir k g p)
      mkdirMissing rest

/-- The ancestors of a path, the topmost first. -/
def ancestors (p : FsPath) : List FsPath :=
  p.dropLast.inits

def mkdirParents (p : FsPath) : GadgetCall Unit := do
  mkdirMissing k g (ancestors p)
  mkdir k g p

/-- `_is_mounted`: the first line for the target counts. -/
def isMounted (target : FsPath) (plain : Bool) (fsType : String) : GadgetCall Bool := do
  let i ← next k
  let b ← Call.get
  match k.readMounts i with
  | .unreadable => pure false
  | .undecodable => Task.raise "UnicodeDecodeError"
  | .text =>
      pure (plain && (b.mounts.find? fun entry => entry.1 = target).any fun entry =>
        entry.2 = fsType)

/-- A `mount` command. -/
def mount (target : FsPath) (fsType : String) : GadgetCall Unit := do
  attempt k
  Call.update fun b => { b with
    mounts := b.mounts ++ [(target, fsType)], made := .mount target fsType :: b.made }

/-- What a mount or a module shows. -/
def reveal : GadgetCall Unit := do
  let i ← next k
  Call.update fun b => { b with dirs := b.dirs.union (k.reveals i) }

namespace Gadget

/-! ## Setup -/

def ensureConfigfs : GadgetCall Unit := do
  attempt k
  mkdirMissing k g (ancestors configfs ++ [configfs])
  let mounted ← isMounted k configfs true "configfs"
  Task.when (!mounted) (do
    attempt k
    reveal k
    mount k configfs "configfs"
    reveal k)
  let b ← Call.get
  Task.when (!b.dirs.has configfsRoot) (do
    attempt k
    reveal k)
  let b ← Call.get
  Task.refuse (!b.dirs.has configfsRoot) "USB gadget configfs is unavailable"

/-- So many attributes are written. -/
def writeAttributes : Nat → GadgetCall Unit
  | 0 => pure ()
  | count + 1 => do
      attempt k
      writeAttributes count

def create : GadgetCall Unit := do
  ensureConfigfs k g
  let b ← Call.get
  Task.refuse (b.dirs.has g.root) "gadget already exists"
  mkdir k g g.root
  writeAttributes k 7
  mkdirParents k g g.deviceStrings
  writeAttributes k 3
  mkdirParents k g g.configStrings
  writeAttributes k 3
  mkdirParents k g g.function

def mountFunctionfs : GadgetCall Unit := do
  mkdirMissing k g (ancestors g.mountpoint ++ [g.mountpoint])
  let mounted ← isMounted k g.resolved g.plain "functionfs"
  Task.when (!mounted) (mount k g.resolved "functionfs")

def linkFunction : GadgetCall Unit := do
  let b ← Call.get
  Task.when (!(b.links g.link || b.dirs.has g.link)) (do
    attempt k
    Call.update fun b => { b with
      links := fun p => b.links p || decide (p = g.link), made := .link g.link :: b.made })

def bind : GadgetCall Unit := do
  let b ← Call.get
  Task.when (!b.bound) (do
    let i ← next k
    let udc ← Task.ofAnswer (k.chooseUdc i)
    attempt k
    Call.update fun b => { b with udc := udc }
    let _ ← next k
    Call.update fun b => { b with bound := true })

def unbind : GadgetCall Unit := do
  let b ← Call.get
  Task.when (b.dirs.has g.root) (do
    let i ← next k
    Task.when (!k.refusesUnbind i) (Call.update fun b => { b with udc := "" })
    Call.update fun b => { b with bound := false })

def reenumerateAsAoa : GadgetCall Unit := do
  unbind k g
  attempt k
  let b ← Call.get
  Task.refuse b.bound "unbind gadget before changing USB identity"
  writeAttributes k 4
  bind k

/-! ## Cleanup -/

/-- A removal is asked for; whether a descriptor is open then is kept. -/
def noteRemoval : GadgetCall Unit :=
  Call.update fun b => { b with early := b.early || b.ep0 || b.endpoints }

def refuseRemoval (m : Made) : GadgetCall Unit :=
  Call.update fun b => { b with refused := m :: b.refused }

/-- `path.rmdir()`, whose `OSError` is dropped. The gadget's binding goes with it. -/
def rmdir (p : FsPath) : GadgetCall Unit := do
  let i ← next k
  let b ← Call.get
  Task.when (b.dirs.has p) (do
    noteRemoval
    if k.refusesRmdir i then refuseRemoval (.dir p)
    else
      Call.update fun b => { b with
        dirs := b.dirs.remove p
        links := fun q => b.links q && !p.isPrefixOf q })

def rmdirAll : List FsPath → GadgetCall Unit
  | [] => pure ()
  | p :: rest => do
      rmdir k p
      rmdirAll rest

/-- `_remove_if_exists` of the function link. -/
def removeLink : GadgetCall Unit := do
  let i ← next k
  let b ← Call.get
  if b.links g.link then do
    noteRemoval
    if k.refusesUnlink i then do
      refuseRemoval (.link g.link)
      Task.raise "unlink refused"
    else Call.update fun b => { b with links := fun p => b.links p && !decide (p = g.link) }
  else
    Task.when (b.dirs.has g.link) (do
      noteRemoval
      if k.refusesUnlink i then do
        refuseRemoval (.dir g.link)
        Task.raise "rmdir refused"
      else Call.update fun b => { b with dirs := b.dirs.remove g.link })

end Gadget

/-- The mounts without the last one on the target. -/
def unmountTop (target : FsPath) : List (FsPath × String) → List (FsPath × String)
  | [] => []
  | entry :: rest =>
      if entry.1 = target ∧ rest.all (fun other => other.1 ≠ target) then rest
      else entry :: unmountTop target rest

namespace Gadget

/-- `umount`; a command that fails leaves a warning. -/
def unmount : GadgetCall Unit := do
  let i ← next k
  noteRemoval
  match k.umount i with
  | .succeeded => Call.update fun b => { b with mounts := unmountTop g.resolved b.mounts }
  | .failed => refuseRemoval (.mount g.resolved "functionfs")
  | .notStarted => Task.raise "umount could not be started"

def cleanup : GadgetCall Unit := do
  unbind k g
  removeLink k g
  let mounted ← isMounted k g.resolved g.plain "functionfs"
  Task.when mounted (unmount k g)
  rmdir k g.mountpoint
  rmdirAll k [g.function, g.configStrings, g.config, g.root ++ ["configs"],
    g.root ++ ["functions"], g.deviceStrings, g.root ++ ["strings"], g.root]

/-! ## The run -/

/-- `FunctionFSControl.open`, which closes ep0 where it fails. -/
def openControl : GadgetCall Unit := do
  Call.update fun b => { b with control := true }
  attempt k
  Call.update fun b => { b with ep0 := true }
  let i ← next k
  if k.fails i then do
    Call.update fun b => { b with ep0 := false }
    Task.raise "cannot initialize FunctionFS ep0"

/-- `FunctionFSTransport(...)`. Where opening the second endpoint fails, the first is
closed; an interruption leaves it open, and nothing refers to it. -/
def openTransport : GadgetCall Unit := do
  attempt k
  Call.update fun b => { b with endpoints := true, index := b.index + 1 }
  let b ← Call.get
  Task.refuse (k.openingInterrupted b.index) "KeyboardInterrupt"
  if k.fails b.index then do
    Call.update fun b => { b with endpoints := false }
    Task.raise "cannot open FunctionFS data endpoints"
  else Call.update fun b => { b with transport := true }

/-- The body of the `try`; what follows the handshake makes nothing. -/
def body (negotiate : Bool) : GadgetCall Unit := do
  create k g
  mountFunctionfs k g
  openControl k
  linkFunction k g
  bind k
  Task.when negotiate (do
    attempt k
    reenumerateAsAoa k g)
  attempt k
  openTransport k
  let _ ← next k
  Call.update fun b => { b with session := true }
  attempt k

/-- The closes of the `finally` clause, which raise nothing. -/
def closeAll : GadgetCall Unit :=
  Call.update fun b => { b with
    cleaning := true
    endpoints := b.endpoints && !(b.session || b.transport)
    transport := b.transport && !b.session
    ep0 := b.ep0 && !b.control }

/-- `_run_gadget`. -/
def run (negotiate : Bool) : GadgetCall Unit := do
  let _ ← Task.finallyDo (body k g negotiate) (do
    closeAll
    cleanup k g)
  pure ()

end Gadget

/-! ## Every run ends -/

open Foundation.Task (Ends)

variable {k : KernelAnswers} {g : Gadget}

theorem ends_next : Ends (next k) :=
  Ends.bind Ends.get fun _ => Ends.bind (Ends.update _) fun _ =>
    Ends.bind (Ends.refuse _ _) fun _ => Ends.pure _

theorem ends_attempt : Ends (attempt k) :=
  Ends.bind ends_next fun _ => Ends.refuse _ _

theorem ends_mkdir (p : FsPath) : Ends (mkdir k g p) := by
  apply Ends.bind ends_next
  intro i
  apply Ends.bind Ends.get
  intro b
  apply Ends.ite (Ends.raise _)
  split
  · exact Ends.ite (Ends.raise _) (Ends.update _)
  · exact Ends.raise _

theorem ends_mkdirMissing (paths : List FsPath) : Ends (mkdirMissing k g paths) := by
  induction paths with
  | nil => exact Ends.pure ()
  | cons p rest ih =>
      apply Ends.bind Ends.get
      intro b
      exact Ends.bind (Ends.when (ends_mkdir p)) fun _ => ih

theorem ends_mkdirParents (p : FsPath) : Ends (mkdirParents k g p) :=
  Ends.bind (ends_mkdirMissing _) fun _ => ends_mkdir p

theorem ends_isMounted (target : FsPath) (plain : Bool) (fsType : String) :
    Ends (isMounted k target plain fsType) := by
  apply Ends.bind ends_next
  intro i
  apply Ends.bind Ends.get
  intro b
  split
  · exact Ends.pure false
  · exact Ends.raise _
  · exact Ends.pure _

theorem ends_mount (target : FsPath) (fsType : String) : Ends (mount k target fsType) :=
  Ends.bind ends_attempt fun _ => Ends.update _

theorem ends_reveal : Ends (reveal k) :=
  Ends.bind ends_next fun _ => Ends.update _

namespace Gadget

theorem ends_ensureConfigfs : Ends (ensureConfigfs k g) := by
  apply Ends.bind ends_attempt
  intro _
  apply Ends.bind (ends_mkdirMissing _)
  intro _
  apply Ends.bind (ends_isMounted configfs true "configfs")
  intro mounted
  apply Ends.bind
  · apply Ends.when
    apply Ends.bind ends_attempt
    intro _
    apply Ends.bind ends_reveal
    exact fun _ => Ends.bind (ends_mount _ _) fun _ => ends_reveal
  · intro _
    apply Ends.bind Ends.get
    intro b
    apply Ends.bind
    · exact Ends.when (Ends.bind ends_attempt fun _ => ends_reveal)
    · exact fun _ => Ends.bind Ends.get fun _ => Ends.refuse _ _

theorem ends_writeAttributes (count : Nat) : Ends (writeAttributes k count) := by
  induction count with
  | zero => exact Ends.pure ()
  | succ count ih => exact Ends.bind ends_attempt fun _ => ih

theorem ends_create : Ends (create k g) := by
  apply Ends.bind ends_ensureConfigfs
  intro _
  apply Ends.bind Ends.get
  intro b
  apply Ends.bind (Ends.refuse _ _)
  intro _
  apply Ends.bind (ends_mkdir _)
  intro _
  apply Ends.bind (ends_writeAttributes 7)
  intro _
  apply Ends.bind (ends_mkdirParents _)
  intro _
  apply Ends.bind (ends_writeAttributes 3)
  intro _
  apply Ends.bind (ends_mkdirParents _)
  intro _
  apply Ends.bind (ends_writeAttributes 3)
  exact fun _ => ends_mkdirParents _

theorem ends_mountFunctionfs : Ends (mountFunctionfs k g) :=
  Ends.bind (ends_mkdirMissing _) fun _ =>
    Ends.bind (ends_isMounted _ _ _) fun _ => Ends.when (ends_mount _ _)

theorem ends_linkFunction : Ends (linkFunction k g) :=
  Ends.bind Ends.get fun _ => Ends.when (Ends.bind ends_attempt fun _ => Ends.update _)

theorem ends_bind : Ends (bind k) := by
  apply Ends.bind Ends.get
  intro b
  apply Ends.when
  apply Ends.bind ends_next
  intro i
  apply Ends.bind (Ends.ofAnswer _)
  intro udc
  apply Ends.bind ends_attempt
  intro _
  apply Ends.bind (Ends.update _)
  exact fun _ => Ends.bind ends_next fun _ => Ends.update _

theorem ends_unbind : Ends (unbind k g) := by
  apply Ends.bind Ends.get
  intro b
  apply Ends.when
  apply Ends.bind ends_next
  exact fun _ => Ends.bind (Ends.when (Ends.update _)) fun _ => Ends.update _

theorem ends_reenumerateAsAoa : Ends (reenumerateAsAoa k g) := by
  apply Ends.bind ends_unbind
  intro _
  apply Ends.bind ends_attempt
  intro _
  apply Ends.bind Ends.get
  intro b
  apply Ends.bind (Ends.refuse _ _)
  exact fun _ => Ends.bind (ends_writeAttributes 4) fun _ => ends_bind

theorem ends_rmdir (p : FsPath) : Ends (rmdir k p) := by
  apply Ends.bind ends_next
  intro i
  apply Ends.bind Ends.get
  intro b
  apply Ends.when
  exact Ends.bind (Ends.update _) fun _ => Ends.ite (Ends.update _) (Ends.update _)

theorem ends_rmdirAll (paths : List FsPath) : Ends (rmdirAll k paths) := by
  induction paths with
  | nil => exact Ends.pure ()
  | cons p rest ih => exact Ends.bind (ends_rmdir p) fun _ => ih

theorem ends_removeLink : Ends (removeLink k g) := by
  apply Ends.bind ends_next
  intro i
  apply Ends.bind Ends.get
  intro b
  apply Ends.ite
  · apply Ends.bind (Ends.update _)
    exact fun _ => Ends.ite (Ends.bind (Ends.update _) fun _ => Ends.raise _) (Ends.update _)
  · apply Ends.when
    apply Ends.bind (Ends.update _)
    exact fun _ => Ends.ite (Ends.bind (Ends.update _) fun _ => Ends.raise _) (Ends.update _)

theorem ends_unmount : Ends (unmount k g) := by
  apply Ends.bind ends_next
  intro i
  apply Ends.bind (Ends.update _)
  intro _
  split
  · exact Ends.update _
  · exact Ends.update _
  · exact Ends.raise _

theorem ends_cleanup : Ends (cleanup k g) := by
  apply Ends.bind ends_unbind
  intro _
  apply Ends.bind ends_removeLink
  intro _
  apply Ends.bind (ends_isMounted _ _ _)
  intro mounted
  apply Ends.bind (Ends.when ends_unmount)
  exact fun _ => Ends.bind (ends_rmdir _) fun _ => ends_rmdirAll _

theorem ends_openControl : Ends (openControl k) := by
  apply Ends.bind (Ends.update _)
  intro _
  apply Ends.bind ends_attempt
  intro _
  apply Ends.bind (Ends.update _)
  intro _
  apply Ends.bind ends_next
  exact fun _ => Ends.ite (Ends.bind (Ends.update _) fun _ => Ends.raise _) (Ends.pure ())

theorem ends_openTransport : Ends (openTransport k) := by
  apply Ends.bind ends_attempt
  intro _
  apply Ends.bind (Ends.update _)
  intro _
  apply Ends.bind Ends.get
  intro b
  apply Ends.bind (Ends.refuse _ _)
  exact fun _ => Ends.ite (Ends.bind (Ends.update _) fun _ => Ends.raise _) (Ends.update _)

theorem ends_body (negotiate : Bool) : Ends (body k g negotiate) := by
  apply Ends.bind ends_create
  intro _
  apply Ends.bind ends_mountFunctionfs
  intro _
  apply Ends.bind ends_openControl
  intro _
  apply Ends.bind ends_linkFunction
  intro _
  apply Ends.bind ends_bind
  intro _
  apply Ends.bind
  · exact Ends.when (Ends.bind ends_attempt fun _ => ends_reenumerateAsAoa)
  · intro _
    apply Ends.bind ends_attempt
    intro _
    apply Ends.bind ends_openTransport
    intro _
    apply Ends.bind ends_next
    exact fun _ => Ends.bind (Ends.update _) fun _ => ends_attempt

/-- By its value or by an exception. -/
theorem run_ends (negotiate : Bool) : Ends (run k g negotiate) := by
  apply Ends.bind
  · exact Ends.finallyDo (ends_body negotiate) (Ends.bind (Ends.update _) fun _ => ends_cleanup)
  · exact fun _ => Ends.pure ()

end Gadget

end HccastWired.Usb
