import HccastWired.Foundation.System

/-!
# The children of a media session

`ProcessGroup` creates processes in tasks of their own and reaps them in one cleanup task.
Callers of `spawn` and `close` only wait for these tasks, so cancelling a caller leaves the
task running. An action is what one task does until its next `await`; what `asyncio` and the
operating system answer is part of it.
-/

namespace HccastWired.Desktop.ProcessGroup

open Foundation

inductive Status
  | pending
  | created (time : Nat)
  | failed
  deriving DecidableEq

/-- A task of `create_owned`; its child has its number. -/
structure Creation where
  began : Nat
  status : Status

inductive SpawnCaller
  /-- At `await asyncio.shield(creation)`. -/
  | awaiting
  /-- Cancelled, at `await self.close()`, which is the close of this number. -/
  | closing (close : Nat)
  | returned
  | raised

/-- Why a cleanup raises: a signal was refused, or a child has outlived `SIGKILL`. -/
inductive CleanupError
  | refused
  | unreaped
  deriving DecidableEq

/-- Where a task of `_close` is. -/
inductive Pc
  | start
  | gathering (creations : List Nat)
  | waiting (child : Nat) (rest : List Nat)
  | killed (child : Nat) (rest : List Nat)
  | done (error : Option CleanupError)

structure Cleanup where
  began : Nat
  pc : Pc
  /-- `children`, once it is taken. -/
  taken : Option (List Nat)
  failed : List Nat

def Cleanup.running (c : Cleanup) : Bool :=
  match c.pc with
  | .done _ => false
  | _ => true

inductive CloseState
  | waiting
  | returned
  | raised
  | cancelled
  deriving DecidableEq

/-- A call of `close`, by a caller of its own or in the handler of a `spawn`. -/
structure CloseCall where
  began : Nat
  cleanup : Nat
  handler : Bool
  state : CloseState

inductive Signal
  | term
  | kill
  deriving DecidableEq

/-- What `os.killpg` answers: nothing, `ProcessLookupError`, or another error. -/
inductive Reply
  | sent
  | gone
  | refused
  deriving DecidableEq

/-- The fields of a `ProcessGroup`, the tasks and calls there have been, and the processes. -/
structure World where
  children : List Nat
  creations : List Nat
  closeTask : Option Nat
  tasks : Nat → Option Creation
  spawning : Nat → Option SpawnCaller
  cleanups : Nat → Option Cleanup
  started : Nat
  closes : Nat → Option CloseCall
  exited : Nat → Bool
  reaped : List Nat
  signals : List (Nat × Nat × Signal)
  now : Nat

def initial : World where
  children := []
  creations := []
  closeTask := none
  tasks := fun _ => none
  spawning := fun _ => none
  cleanups := fun _ => none
  started := 0
  closes := fun _ => none
  exited := fun _ => false
  reaped := []
  signals := []
  now := 0

inductive Action
  | spawn (k : Nat)
  | create (k : Nat) (created : Bool)
  | resumeSpawn (k : Nat)
  /-- The close of the handler, if there is one, has the number `c`. -/
  | cancelSpawn (k c : Nat)
  | close (c : Nat)
  | resumeClose (c : Nat)
  | cancelClose (c : Nat)
  | startCleanup (j : Nat) (replies : Nat → Reply)
  | gathered (j : Nat) (replies : Nat → Reply)
  | waited (j : Nat)
  | timeout (j : Nat) (reply : Reply)
  | exit (k : Nat)

namespace World

/-- `self._close_task and not self._close_task.done()`. -/
def cleaning (w : World) : Bool :=
  match w.closeTask with
  | some j => (w.cleanups j).any Cleanup.running
  | none => false

/-- `spawn` up to its `await`. -/
def spawn (w : World) (k : Nat) : Option World :=
  if (w.spawning k).isSome then none
  else if w.cleaning then some { w with spawning := Function.update w.spawning k (some .raised) }
  else some { w with
    tasks := Function.update w.tasks k (some ⟨w.now, .pending⟩)
    creations := w.creations ++ [k]
    spawning := Function.update w.spawning k (some .awaiting) }

/-- `create_subprocess_exec` returns or raises in `create_owned`. -/
def create (w : World) (k : Nat) (created : Bool) : Option World :=
  match w.tasks k with
  | some ⟨began, .pending⟩ =>
      if created then some { w with
        tasks := Function.update w.tasks k (some ⟨began, .created w.now⟩)
        children := w.children ++ [k] }
      else some { w with tasks := Function.update w.tasks k (some ⟨began, .failed⟩) }
  | _ => none

/-- `creation.done()`. -/
def creationDone (w : World) (k : Nat) : Bool :=
  (w.tasks k).any fun creation => creation.status ≠ .pending

/-- The `finally` of `spawn`. -/
def finishSpawn (w : World) (k : Nat) (caller : SpawnCaller) : World :=
  { w with
    creations := if w.creationDone k then w.creations.filter (· ≠ k) else w.creations
    spawning := Function.update w.spawning k (some caller) }

def setClose (w : World) (c : Nat) (call : CloseCall) : World :=
  { w with closes := Function.update w.closes c (some call) }

/-- `close` up to its `await`. -/
def close (w : World) (c : Nat) (handler : Bool) : Option World :=
  if (w.closes c).isSome then none
  else if w.cleaning then w.closeTask.map fun j => w.setClose c ⟨w.now, j, handler, .waiting⟩
  else some { w.setClose c ⟨w.now, w.started, handler, .waiting⟩ with
    cleanups := Function.update w.cleanups w.started (some ⟨w.now, .start, none, []⟩)
    started := w.started + 1
    closeTask := some w.started }

/-- How a call of `close` ends when its cleanup has ended. -/
def closeResult (w : World) (call : CloseCall) : Option CloseState :=
  match w.cleanups call.cleanup with
  | some ⟨_, .done none, _, _⟩ => some .returned
  | some ⟨_, .done (some _), _, _⟩ => some .raised
  | _ => none

def resumeClose (w : World) (c : Nat) (handler : Bool) : Option World := do
  let call ← w.closes c
  if call.state = .waiting ∧ call.handler = handler then
    let state ← w.closeResult call
    some (w.setClose c { call with state := state })
  else none

def cancelClose (w : World) (c : Nat) (handler : Bool) : Option World := do
  let call ← w.closes c
  if call.state = .waiting ∧ call.handler = handler then
    some (w.setClose c { call with state := .cancelled })
  else none

def resumeSpawn (w : World) (k : Nat) : Option World :=
  match w.spawning k with
  | some .awaiting =>
      match w.tasks k with
      | some ⟨_, .created _⟩ => some (w.finishSpawn k .returned)
      | some ⟨_, .failed⟩ => some (w.finishSpawn k .raised)
      | _ => none
  | some (.closing c) => (w.resumeClose c true).map (·.finishSpawn k .raised)
  | _ => none

def cancelSpawn (w : World) (k c : Nat) : Option World :=
  match w.spawning k with
  | some .awaiting =>
      (w.close c true).map fun w => { w with spawning := Function.update w.spawning k (some (.closing c)) }
  | some (.closing c) => (w.cancelClose c true).map (·.finishSpawn k .raised)
  | _ => none

/-- The loop over `children` goes on to the next child, or the task ends. -/
def proceed (failed : List Nat) : List Nat → Pc
  | child :: rest => .waiting child rest
  | [] => if failed = [] then .done none else .done (some .unreaped)

def setCleanup (w : World) (j : Nat) (c : Cleanup) : World :=
  { w with cleanups := Function.update w.cleanups j (some c) }

/-- The children that get `SIGTERM`, up to the first signal that is refused. -/
def terminated (exited : Nat → Bool) (replies : Nat → Reply) : List Nat → List Nat × Bool
  | [] => ([], false)
  | child :: rest =>
      if exited child then terminated exited replies rest
      else if replies child = .refused then ([child], true)
      else (child :: (terminated exited replies rest).1, (terminated exited replies rest).2)

/-- `_close` from `children = tuple(self.children)` to its first wait for a child. -/
def terminate (w : World) (j : Nat) (c : Cleanup) (replies : Nat → Reply) : World :=
  let (signalled, refused) := terminated w.exited replies w.children
  let pc := if refused then .done (some .refused) else proceed [] w.children
  { w.setCleanup j { c with pc := pc, taken := some w.children } with
    signals := w.signals ++ signalled.map (j, ·, Signal.term) }

def startCleanup (w : World) (j : Nat) (replies : Nat → Reply) : Option World := do
  let c ← w.cleanups j
  match c.pc with
  | .start =>
      if w.creations = [] then some (w.terminate j c replies)
      else some (w.setCleanup j { c with pc := .gathering w.creations })
  | _ => none

/-- All the gathered creations have ended. -/
def gathered (w : World) (j : Nat) (replies : Nat → Reply) : Option World := do
  let c ← w.cleanups j
  match c.pc with
  | .gathering creations =>
      if creations.all w.creationDone then
        let w := { w with creations := w.creations.filter (· ∉ creations) }
        some (w.terminate j c replies)
      else none
  | _ => none

/-- `child.wait()` has returned in time. -/
def waited (w : World) (j : Nat) : Option World := do
  let c ← w.cleanups j
  match c.pc with
  | .waiting child rest | .killed child rest =>
      if w.exited child then
        some { w.setCleanup j { c with pc := proceed c.failed rest } with
          children := w.children.erase child
          reaped := w.reaped ++ [child] }
      else none
  | _ => none

/-- `child.wait()` has not returned in time. -/
def timeout (w : World) (j : Nat) (reply : Reply) : Option World := do
  let c ← w.cleanups j
  match c.pc with
  | .waiting child rest =>
      let pc := if reply = .refused then .done (some .refused) else .killed child rest
      some { w.setCleanup j { c with pc := pc } with signals := w.signals ++ [(j, child, .kill)] }
  | .killed child rest =>
      let failed := c.failed ++ [child]
      some (w.setCleanup j { c with pc := proceed failed rest, failed := failed })
  | _ => none

/-- A process ends. -/
def exit (w : World) (k : Nat) : Option World :=
  match w.tasks k with
  | some ⟨_, .created _⟩ => some { w with exited := Function.update w.exited k true }
  | _ => none

def act (w : World) : Action → Option World
  | .spawn k => w.spawn k
  | .create k created => w.create k created
  | .resumeSpawn k => w.resumeSpawn k
  | .cancelSpawn k c => w.cancelSpawn k c
  | .close c => w.close c false
  | .resumeClose c => w.resumeClose c false
  | .cancelClose c => w.cancelClose c false
  | .startCleanup j replies => w.startCleanup j replies
  | .gathered j replies => w.gathered j replies
  | .waited j => w.waited j
  | .timeout j reply => w.timeout j reply
  | .exit k => w.exit k

end World

/-- Every action takes some time. -/
def group : System World Action where
  step w a := (w.act a).map fun w => { w with now := w.now + 1 }

end HccastWired.Desktop.ProcessGroup
