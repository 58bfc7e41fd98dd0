import HccastWired.Foundation.Finally
import HccastWired.Live.Model
import HccastWired.Protocol.DeviceInfo

/-!
# The stopped state is checked

`_checked_reconciliation` cleans the custom gadget up, restores the stock service where
nothing is in its way, and reads afterwards whether all is as it has to be. Whatever its
commands and probes give or raise becomes part of its result.
-/

namespace HccastWired.Live

open Foundation

abbrev FilePath : Type := String

/-- A command, as far as the reconciliation runs it. -/
structure ProcessSpec where
  name : String
  argv : List String
  env : List (String × String)
deriving DecidableEq

structure ReconciliationPlan where
  gadgetCleanup : ProcessSpec
  stockServiceStart : ProcessSpec

/-- `_create_reconciliation_plan`. -/
def ReconciliationPlan.create (hccastExecutable systemctlExecutable : String)
    (rootEnv : List (String × String)) : ReconciliationPlan where
  gadgetCleanup := ⟨"gadget-cleanup", [hccastExecutable, "-vv", "gadget-stop"], rootEnv⟩
  stockServiceStart :=
    ⟨"stock-gadget-start", [systemctlExecutable, "start", "nv-l4t-usb-device-mode.service"],
      rootEnv⟩

structure ReconciliationTargets where
  expectedUdc : String
  hccastRoot : FilePath := "/sys/kernel/config/usb_gadget/hccast"
  functionfsMountpoint : FilePath := "/dev/ffs-hccast"
  l4tUdcPath : FilePath := "/sys/kernel/config/usb_gadget/l4t/UDC"

/-- What the launcher was asked to run or a probe was asked for, and the answer. -/
inductive Inquiry
  | run (spec : ProcessSpec) (answer : Except Raised Int)
  | stockServiceActive (answer : Except Raised Bool)
  | ownersForUdc (udc : String) (answer : Except Raised (Finset String))
  | readText (path : FilePath) (answer : Except Raised String)
  | pathExists (path : FilePath) (answer : Except Raised Bool)
  | isMountpoint (path : FilePath) (answer : Except Raised Bool)

/-- The answers of the launcher and of the probes, each to the inquiry of that number. -/
structure Surroundings where
  run : Nat → Except Raised Int
  stockServiceActive : Nat → Except Raised Bool
  ownersForUdc : Nat → Except Raised (Finset String)
  readText : Nat → Except Raised String
  pathExists : Nat → Except Raised Bool
  isMountpoint : Nat → Except Raised Bool

/-- The lists of the function, and its inquiries, the oldest first. -/
structure Ledger where
  actions : List String
  errors : List CleanupError
  verified : List String
  inquiries : List Inquiry

def Ledger.empty : Ledger := ⟨[], [], [], []⟩

/-- `CleanupError(...)`. -/
def CleanupError.create (action message : String) : Except Raised CleanupError :=
  if haction : action = "" then .error ⟨"cleanup error action must not be empty", by simp⟩
  else if hmessage : message = "" then
    .error ⟨"cleanup error message must not be empty", by simp⟩
  else .ok ⟨action, message, haction, hmessage⟩

/-- `CleanupResult(...)`. -/
def CleanupResult.create (attemptedActions : List String) (errors : List CleanupError)
    (verified : List String) (success : Bool) : Except Raised CleanupResult :=
  if h : success = true → errors = [] then
    .ok ⟨attemptedActions, errors, verified, success, h⟩
  else .error ⟨"successful cleanup cannot contain errors", by simp⟩

abbrev Reconciling (α : Type) : Type := Task Ledger Raised α

/-- `errors.append(CleanupError(...))`. -/
def appendError (action message : String) : Reconciling Unit := do
  let error ← Task.ofAnswer (CleanupError.create action message)
  Call.update fun l => { l with errors := l.errors ++ [error] }

/-- An inquiry is made, and its answer is kept or raised. -/
def inquire {α : Type} (answers : Nat → Except Raised α)
    (inquiry : Except Raised α → Inquiry) : Reconciling α := do
  let l ← Call.get
  Call.update fun l =>
    { l with inquiries := l.inquiries ++ [inquiry (answers l.inquiries.length)] }
  Task.ofAnswer (answers l.inquiries.length)

/-- The local function `command`. -/
def command (s : Surroundings) (spec : ProcessSpec) : Reconciling Bool := do
  Call.update fun l => { l with actions := l.actions ++ [spec.name] }
  match ← Task.settle (inquire s.run (.run spec)) with
  | .error caught => do
      appendError spec.name caught.1
      pure false
  | .ok code =>
      if code ≠ 0 then do
        appendError spec.name ("exit " ++ toString code)
        pure false
      else pure true

/-- The local function `probe`; nothing where it is not readable. -/
def probe {α : Type} (action : String) (operation : Reconciling α) :
    Reconciling (Option α) := do
  match ← Task.settle operation with
  | .ok value => pure (some value)
  | .error caught => do
      appendError action caught.1
      pure none

/-- The loop over the checks: an action, and whether it is satisfied where it is readable. -/
def runChecks : List (String × Option Bool) → Reconciling Unit
  | [] => pure ()
  | (action, satisfied) :: rest => do
      match satisfied with
      | none => pure ()
      | some true => Call.update fun l => { l with verified := l.verified ++ [action] }
      | some false => appendError action "postcondition not satisfied"
      runChecks rest

/-- What is done with the stock service. -/
def restoreStock (s : Surroundings) (plan : ReconciliationPlan)
    (targets : ReconciliationTargets) : Reconciling Unit := do
  let stockActive ← probe "stock-service-active"
    (inquire s.stockServiceActive .stockServiceActive)
  let owners ← probe "udc-owners"
    (inquire s.ownersForUdc (.ownersForUdc targets.expectedUdc))
  match stockActive, owners with
  | some true, some owners => do
      let l4tUdc ← probe "stock-udc" (inquire s.readText (.readText targets.l4tUdcPath))
      match l4tUdc with
      | none => pure ()
      | some text =>
          if Protocol.strip text = targets.expectedUdc ∧ owners = {"l4t"} then
            Call.update fun l => { l with verified := l.verified ++ ["stock-already-correct"] }
          else appendError "stock-restore" "stock-active-wrong-state"
  | some false, some owners =>
      if owners = ∅ then do
        let _ ← command s plan.stockServiceStart
        pure ()
      else appendError "stock-restore" "udc-not-free"
  | _, _ => pure ()

/-- The final reads and the checks of what they gave. -/
def checkPostconditions (s : Surroundings) (targets : ReconciliationTargets) :
    Reconciling Unit := do
  let hccastExists ← probe "hccast-root-absent"
    (inquire s.pathExists (.pathExists targets.hccastRoot))
  let mounted ← probe "functionfs-unmounted"
    (inquire s.isMountpoint (.isMountpoint targets.functionfsMountpoint))
  let finalOwners ← probe "udc-owners"
    (inquire s.ownersForUdc (.ownersForUdc targets.expectedUdc))
  let finalStock ← probe "stock-service-active"
    (inquire s.stockServiceActive .stockServiceActive)
  let finalL4t ← probe "stock-udc" (inquire s.readText (.readText targets.l4tUdcPath))
  runChecks [
    ("hccast-root-absent", hccastExists.map fun there => !there),
    ("functionfs-unmounted", mounted.map fun there => !there),
    ("hccast-udc-released", finalOwners.map fun owners => decide ("hccast" ∉ owners)),
    ("stock-service-active", finalStock),
    ("stock-udc", finalL4t.map fun text => decide (Protocol.strip text = targets.expectedUdc)),
    ("stock-only-owner", finalOwners.map fun owners => decide (owners = {"l4t"}))]

/-- `_checked_reconciliation`. -/
def checkedReconciliation (s : Surroundings) (plan : ReconciliationPlan)
    (targets : ReconciliationTargets) : Reconciling CleanupResult := do
  let _ ← command s plan.gadgetCleanup
  restoreStock s plan targets
  checkPostconditions s targets
  let l ← Call.get
  Task.ofAnswer (CleanupResult.create l.actions l.errors l.verified (decide (l.errors = [])))

/-! ## What is asked -/

/-- The custom gadget is cleaned up before anything else. -/
def CleanupFirst (plan : ReconciliationPlan) (inquiries : List Inquiry) : Prop :=
  ∃ answer rest, inquiries = .run plan.gadgetCleanup answer :: rest

/-- The stock service is started only behind reads that have just found it inactive and the
controller without owners. -/
def StartGuarded (plan : ReconciliationPlan) (targets : ReconciliationTargets)
    (inquiries : List Inquiry) : Prop :=
  ∀ before answer after, inquiries = before ++ .run plan.stockServiceStart answer :: after →
    ∃ earlier, before = earlier ++
      [.stockServiceActive (.ok false), .ownersForUdc targets.expectedUdc (.ok ∅)]

/-- The last inquiries have found everything as it has to be. -/
def PostconditionsRead (targets : ReconciliationTargets) (inquiries : List Inquiry) : Prop :=
  ∃ before text, inquiries = before ++
      [.pathExists targets.hccastRoot (.ok false),
        .isMountpoint targets.functionfsMountpoint (.ok false),
        .ownersForUdc targets.expectedUdc (.ok {"l4t"}), .stockServiceActive (.ok true),
        .readText targets.l4tUdcPath (.ok text)] ∧
    Protocol.strip text = targets.expectedUdc

/-- The names of the postconditions. -/
def postconditions : List String :=
  ["hccast-root-absent", "functionfs-unmounted", "hccast-udc-released", "stock-service-active",
    "stock-udc", "stock-only-owner"]

section Steps

variable {s : Surroundings} {plan : ReconciliationPlan} {targets : ReconciliationTargets}
  {asked : List Inquiry} {E : Prop}

/-- After these inquiries, and with a fact that holds unless there is an error. -/
def Asked (asked : List Inquiry) (E : Prop) (l : Ledger) : Prop :=
  l.inquiries = asked ∧ (l.errors = [] → E)

theorem triple_appendError {action message : String} (haction : action ≠ "")
    (hmessage : message ≠ "") (E' : Prop) :
    Task.Triple (Asked asked E) (appendError action message) (fun _ => Asked asked E')
      fun _ _ => False := by
  rw [appendError, CleanupError.create, dif_neg haction, dif_neg hmessage]
  apply Task.Triple.pureBind
  apply Task.Triple.update
  intro l hl
  refine ⟨hl.1, ?_⟩
  intro hnone
  exact absurd hnone (by simp)

theorem triple_inquire {α : Type} (answers : Nat → Except Raised α)
    (inquiry : Except Raised α → Inquiry) :
    Task.Triple (Asked asked E) (inquire answers inquiry)
      (fun value => Asked (asked ++ [inquiry (.ok value)]) E)
      fun caught => Asked (asked ++ [inquiry (.error caught)]) E := by
  apply Task.Triple.bindGet
  intro l hl
  apply @Task.Triple.bind _ _ _ _ _ _ _
    (fun _ => Asked (asked ++ [inquiry (answers l.inquiries.length)]) E)
  · apply Task.Triple.update
    rintro t ⟨rfl, ht⟩
    refine ⟨?_, ht.2⟩
    change t.inquiries ++ _ = _
    rw [ht.1]
  · intro _
    apply Task.Triple.ofAnswer
    · intro value t hvalue ht
      rwa [hvalue] at ht
    · intro caught t hcaught ht
      rwa [hcaught] at ht

/-- A probe never raises; one that is not readable is an error. -/
theorem triple_probe {α : Type} {action : String} (haction : action ≠ "")
    (answers : Nat → Except Raised α) (inquiry : Except Raised α → Inquiry) :
    Task.Triple (Asked asked E) (probe action (inquire answers inquiry))
      (fun value l => ∃ answer, value = answer.toOption ∧
        Asked (asked ++ [inquiry answer]) (E ∧ ∃ a, answer = .ok a) l)
      fun _ _ => False := by
  apply Task.Triple.bind (Task.Triple.settle (triple_inquire answers inquiry))
  intro outcome
  cases outcome with
  | ok value =>
      apply Task.Triple.pure
      intro l hl
      exact ⟨.ok value, rfl, hl.1, fun hnone => ⟨hl.2 hnone, value, rfl⟩⟩
  | error caught =>
      apply Task.Triple.bind (triple_appendError haction caught.2
        (E ∧ ∃ a, (Except.error caught : Except Raised α) = .ok a))
      intro _
      apply Task.Triple.pure
      intro l hl
      exact ⟨.error caught, rfl, hl⟩

/-- A command never raises. -/
theorem triple_command {spec : ProcessSpec} (hname : spec.name ≠ "") :
    Task.Triple (Asked asked E) (command s spec)
      (fun _ l => ∃ answer, Asked (asked ++ [.run spec answer]) E l) fun _ _ => False := by
  apply @Task.Triple.bind _ _ _ _ _ _ _ (fun _ => Asked asked E)
  · exact Task.Triple.update fun l hl => hl
  · intro _
    apply Task.Triple.bind (Task.Triple.settle (triple_inquire s.run (.run spec)))
    intro outcome
    cases outcome with
    | error caught =>
        apply Task.Triple.bind (triple_appendError hname caught.2 E)
        intro _
        apply Task.Triple.pure
        exact fun l hl => ⟨.error caught, hl⟩
    | ok code =>
        simp only
        split
        · apply Task.Triple.bind (triple_appendError hname (by simp) E)
          intro _
          apply Task.Triple.pure
          exact fun l hl => ⟨.ok code, hl⟩
        · apply Task.Triple.pure
          exact fun l hl => ⟨.ok code, hl⟩

/-- Without an error every check is satisfied and listed. -/
theorem triple_runChecks {checks : List (String × Option Bool)}
    (hnames : ∀ check ∈ checks, check.1 ≠ "") {listed : List String} :
    Task.Triple (fun l => Asked asked E l ∧ ∀ name ∈ listed, name ∈ l.verified)
      (runChecks checks)
      (fun _ l => Asked asked (E ∧ ∀ check ∈ checks, check.2 ≠ some false) l ∧
        (l.errors = [] → ∀ name ∈ listed ++ (checks.filter fun check => check.2 = some true).map
          Prod.fst, name ∈ l.verified))
      fun _ _ => False := by
  induction checks generalizing E listed with
  | nil =>
      apply Task.Triple.pure
      rintro l ⟨⟨hasked, hclean⟩, hlisted⟩
      refine ⟨⟨hasked, fun hnone => ⟨hclean hnone, ?_⟩⟩, ?_⟩
      · exact fun check hcheck => absurd hcheck List.not_mem_nil
      · simpa using fun _ => hlisted
  | cons check rest ih =>
      obtain ⟨action, satisfied⟩ := check
      have hrest : ∀ other ∈ rest, other.1 ≠ "" := fun other hother =>
        hnames other (List.mem_cons_of_mem _ hother)
      have haction : action ≠ "" := hnames _ List.mem_cons_self
      cases satisfied with
      | none =>
          apply Task.Triple.pureBind
          apply (ih hrest).post
          rintro _ l ⟨⟨hasked, hclean⟩, hlisted⟩
          refine ⟨⟨hasked, fun hnone => ⟨(hclean hnone).1, ?_⟩⟩, ?_⟩
          · intro other hother
            obtain rfl | hother := List.mem_cons.mp hother
            · simp
            · exact (hclean hnone).2 other hother
          · rw [List.filter_cons_of_neg (by simp)]
            exact hlisted
      | some value =>
          cases value with
          | true =>
              apply @Task.Triple.bind _ _ _ _ _ _ _
                (fun _ l => Asked asked E l ∧ ∀ name ∈ listed ++ [action], name ∈ l.verified)
              · apply Task.Triple.update
                rintro l ⟨hasked, hlisted⟩
                refine ⟨hasked, ?_⟩
                intro name hname
                obtain h | h := List.mem_append.mp hname
                · exact List.mem_append_left _ (hlisted name h)
                · exact List.mem_append_right _ h
              · intro _
                apply (ih hrest).post
                rintro _ l ⟨⟨hasked, hclean⟩, hlisted⟩
                refine ⟨⟨hasked, fun hnone => ⟨(hclean hnone).1, ?_⟩⟩, ?_⟩
                · intro other hother
                  obtain rfl | hother := List.mem_cons.mp hother
                  · simp
                  · exact (hclean hnone).2 other hother
                · rw [List.filter_cons_of_pos (by simp), List.map_cons]
                  rwa [List.append_assoc, List.singleton_append] at hlisted
          | false =>
              apply @Task.Triple.bind _ _ _ _ _ _ _ (fun _ l => Asked asked False l)
              · exact (triple_appendError haction (by simp) False).pre fun l hl => hl.1
              · intro _
                have hnever : Task.Triple (fun l => Asked asked False l ∧
                    ∀ name ∈ ([] : List String), name ∈ l.verified) (runChecks rest) _ _ :=
                  ih hrest
                apply hnever.conseq
                · exact fun l hl => ⟨hl, fun _ hname => absurd hname List.not_mem_nil⟩
                · rintro _ l ⟨⟨hasked, hclean⟩, -⟩
                  refine ⟨⟨hasked, fun hnone => (hclean hnone).1.elim⟩, ?_⟩
                  exact fun hnone => (hclean hnone).1.elim
                · exact fun _ _ hfalse => hfalse

/-- One more inquiry, which is no start or one that is guarded. -/
theorem StartGuarded.concat {inquiry : Inquiry} (h : StartGuarded plan targets asked)
    (hguard : ∀ answer, inquiry = .run plan.stockServiceStart answer → ∃ earlier,
      asked = earlier ++
        [.stockServiceActive (.ok false), .ownersForUdc targets.expectedUdc (.ok ∅)]) :
    StartGuarded plan targets (asked ++ [inquiry]) := by
  intro before answer after heq
  obtain rfl | ⟨front, last, rfl⟩ := after.eq_nil_or_concat
  · obtain ⟨rfl, hlast⟩ := List.append_inj' heq rfl
    exact hguard answer (List.singleton_inj.mp hlast)
  · rw [List.concat_eq_append, ← List.cons_append, ← List.append_assoc] at heq
    exact h before answer front (List.append_inj' heq rfl).1

/-- The first inquiry is not the start. -/
theorem CleanupFirst.concat {inquiry : Inquiry} (h : CleanupFirst plan asked) :
    CleanupFirst plan (asked ++ [inquiry]) := by
  obtain ⟨answer, rest, rfl⟩ := h
  exact ⟨answer, rest ++ [inquiry], rfl⟩

/-- What holds of the inquiries all along. -/
def Orderly (plan : ReconciliationPlan) (targets : ReconciliationTargets) (l : Ledger) : Prop :=
  CleanupFirst plan l.inquiries ∧ StartGuarded plan targets l.inquiries

theorem triple_restoreStock (hstart : plan.stockServiceStart.name ≠ "") :
    Task.Triple (Orderly plan targets) (restoreStock s plan targets)
      (fun _ => Orderly plan targets) fun _ _ => False := by
  intro l hl
  obtain ⟨hfirst, hguarded⟩ := hl
  -- the inquiries from here on, with what the first two were answered
  have hrun : Task.Triple (Asked l.inquiries True) (restoreStock s plan targets)
      (fun _ => Orderly plan targets) fun _ _ => False := by
    apply Task.Triple.bind (triple_probe (by decide) s.stockServiceActive .stockServiceActive)
    intro stockActive t ht
    obtain ⟨active, hactive, hasked⟩ := ht
    revert t
    change Task.Triple (Asked (l.inquiries ++ [.stockServiceActive active]) _) _ _ _
    apply Task.Triple.bind (triple_probe (by decide) s.ownersForUdc _)
    intro owners t ht
    obtain ⟨found, hfound, hasked⟩ := ht
    revert t
    change Task.Triple (Asked (l.inquiries ++ [.stockServiceActive active] ++
      [.ownersForUdc targets.expectedUdc found]) _) _ _ _
    have hbase : CleanupFirst plan (l.inquiries ++ [.stockServiceActive active] ++
        [.ownersForUdc targets.expectedUdc found]) ∧
        StartGuarded plan targets (l.inquiries ++ [.stockServiceActive active] ++
          [.ownersForUdc targets.expectedUdc found]) :=
      ⟨hfirst.concat.concat, (hguarded.concat fun _ h => by cases h).concat fun _ h => by cases h⟩
    have hsame : ∀ E (t : Ledger), Asked (l.inquiries ++ [.stockServiceActive active] ++
        [.ownersForUdc targets.expectedUdc found]) E t → Orderly plan targets t := by
      intro E t ht
      rw [Orderly, ht.1]
      exact hbase
    cases active with
    | error caught =>
        obtain rfl := hactive
        exact Task.Triple.pure fun t ht => hsame _ t ht
    | ok isActive =>
        obtain rfl := hactive
        cases found with
        | error caught =>
            obtain rfl := hfound
            cases isActive <;> exact Task.Triple.pure fun t ht => hsame _ t ht
        | ok names =>
            obtain rfl := hfound
            cases isActive with
            | true =>
                apply Task.Triple.bind (triple_probe (by decide) s.readText _)
                intro l4tUdc
                have hread : ∀ (E : Prop) answer (t : Ledger),
                    Asked (l.inquiries ++ [.stockServiceActive (.ok true)] ++
                      [.ownersForUdc targets.expectedUdc (.ok names)] ++
                      [.readText targets.l4tUdcPath answer]) E t → Orderly plan targets t := by
                  intro E answer t ht
                  rw [Orderly, ht.1]
                  exact ⟨hbase.1.concat, hbase.2.concat fun _ h => by cases h⟩
                intro t ht
                obtain ⟨answer, htext, ht⟩ := ht
                revert t
                change Task.Triple (Asked _ _) _ _ _
                cases l4tUdc with
                | none => exact Task.Triple.pure fun t ht => hread _ answer t ht
                | some text =>
                    simp only
                    split
                    · exact Task.Triple.update fun t ht => hread _ answer t ht
                    · apply (triple_appendError (by decide) (by decide) True).post
                      exact fun _ t ht => hread _ answer t ht
            | false =>
                simp only [Except.toOption]
                split
                · next hempty =>
                  subst hempty
                  apply Task.Triple.bind (triple_command hstart)
                  intro _
                  apply Task.Triple.pure
                  rintro t ⟨answer, ht⟩
                  rw [Orderly, ht.1]
                  refine ⟨hbase.1.concat, hbase.2.concat fun _ _ => ⟨l.inquiries, ?_⟩⟩
                  rw [List.append_assoc]
                  rfl
                · apply (triple_appendError (by decide) (by decide) True).post
                  exact fun _ t ht => hsame _ t ht
  exact hrun l ⟨rfl, fun _ => trivial⟩

/-- Without an error the last reads have found the stopped state. -/
theorem triple_checkPostconditions :
    Task.Triple (Orderly plan targets) (checkPostconditions s targets)
      (fun _ l => Orderly plan targets l ∧ (l.errors = [] →
        PostconditionsRead targets l.inquiries ∧ ∀ name ∈ postconditions, name ∈ l.verified))
      fun _ _ => False := by
  intro l hl
  have hrun : Task.Triple (Asked l.inquiries True) (checkPostconditions s targets)
      (fun _ l => Orderly plan targets l ∧ (l.errors = [] →
        PostconditionsRead targets l.inquiries ∧ ∀ name ∈ postconditions, name ∈ l.verified))
      fun _ _ => False := by
    apply Task.Triple.bind (triple_probe (by decide) s.pathExists _)
    rintro _ t ⟨there, rfl, ht⟩
    revert t
    change Task.Triple (Asked _ _) _ _ _
    apply Task.Triple.bind (triple_probe (by decide) s.isMountpoint _)
    rintro _ t ⟨mounted, rfl, ht⟩
    revert t
    change Task.Triple (Asked _ _) _ _ _
    apply Task.Triple.bind (triple_probe (by decide) s.ownersForUdc _)
    rintro _ t ⟨owners, rfl, ht⟩
    revert t
    change Task.Triple (Asked _ _) _ _ _
    apply Task.Triple.bind (triple_probe (by decide) s.stockServiceActive _)
    rintro _ t ⟨active, rfl, ht⟩
    revert t
    change Task.Triple (Asked _ _) _ _ _
    apply Task.Triple.bind (triple_probe (by decide) s.readText _)
    rintro _ t ⟨text, rfl, ht⟩
    revert t
    change Task.Triple (Asked _ _) _ _ _
    apply (@triple_runChecks _ _ _ (by simp) []).conseq
    · exact fun t ht => ⟨ht, fun name hname => absurd hname List.not_mem_nil⟩
    · rintro _ t ⟨⟨hasked, hclean⟩, hlisted⟩
      constructor
      · rw [Orderly, hasked]
        refine ⟨hl.1.concat.concat.concat.concat.concat, ?_⟩
        apply StartGuarded.concat _ fun _ h => by cases h
        apply StartGuarded.concat _ fun _ h => by cases h
        apply StartGuarded.concat _ fun _ h => by cases h
        apply StartGuarded.concat _ fun _ h => by cases h
        exact hl.2.concat fun _ h => by cases h
      · intro hnone
        obtain ⟨⟨⟨⟨⟨⟨-, a, rfl⟩, b, rfl⟩, c, rfl⟩, d, rfl⟩, e, rfl⟩, hchecks⟩ := hclean hnone
        simp only [Except.toOption, Option.map_some, List.mem_cons, List.not_mem_nil, or_false,
          forall_eq_or_imp, forall_eq, ne_eq, Option.some.injEq, Bool.not_eq_false',
          decide_eq_false_iff_not, not_not, Bool.not_eq_false] at hchecks
        obtain ⟨ha, hb, hreleased, rfl, he, rfl⟩ := hchecks
        obtain rfl := Bool.eq_false_iff.mpr ha
        obtain rfl := Bool.eq_false_iff.mpr hb
        constructor
        · refine ⟨l.inquiries, e, ?_, he⟩
          rw [hasked]
          simp only [List.append_assoc]
          rfl
        · have hall := hlisted hnone
          simpa [Except.toOption, hreleased, he, postconditions] using hall
    · exact fun _ _ hfalse => hfalse
  exact hrun l ⟨rfl, fun _ => trivial⟩

/-- The first command is the cleanup of the custom gadget. -/
theorem triple_gadgetCleanup (hnames : plan.gadgetCleanup.name ≠ plan.stockServiceStart.name)
    (hname : plan.gadgetCleanup.name ≠ "") :
    Task.Triple (fun l => l = Ledger.empty) (command s plan.gadgetCleanup)
      (fun _ => Orderly plan targets) fun _ _ => False := by
  apply (@triple_command s [] True _ hname).conseq
  · rintro l rfl
    exact ⟨rfl, fun _ => trivial⟩
  · rintro _ l ⟨answer, hasked, -⟩
    rw [Orderly, hasked]
    refine ⟨⟨answer, [], rfl⟩, ?_⟩
    have hnone : StartGuarded plan targets [] := by
      intro before answer after heq
      exact absurd heq.symm (by simp)
    apply hnone.concat
    intro _ hrun
    exact absurd (congrArg ProcessSpec.name (Inquiry.run.inj hrun).1) hnames
  · exact fun _ _ hfalse => hfalse

theorem triple_checkedReconciliation
    (hnames : plan.gadgetCleanup.name ≠ plan.stockServiceStart.name)
    (hname : plan.gadgetCleanup.name ≠ "") (hstart : plan.stockServiceStart.name ≠ "") :
    Task.Triple (fun l => l = Ledger.empty) (checkedReconciliation s plan targets)
      (fun result l => Orderly plan targets l ∧ (result.success = true ↔ result.errors = []) ∧
        (result.success = true → PostconditionsRead targets l.inquiries ∧
          ∀ name ∈ postconditions, name ∈ result.verifiedPostconditions))
      fun _ _ => False := by
  apply Task.Triple.bind (triple_gadgetCleanup hnames hname)
  intro _
  apply Task.Triple.bind (triple_restoreStock hstart)
  intro _
  apply Task.Triple.bind triple_checkPostconditions
  intro _
  apply Task.Triple.bindGet
  intro l hl
  have hcreate : CleanupResult.create l.actions l.errors l.verified (decide (l.errors = [])) =
      .ok ⟨l.actions, l.errors, l.verified, decide (l.errors = []), of_decide_eq_true⟩ :=
    dif_pos of_decide_eq_true
  rw [hcreate]
  apply Task.Triple.pure
  rintro t ⟨rfl, horderly, hverified⟩
  exact ⟨horderly, decide_eq_true_iff, fun hsuccess => hverified (of_decide_eq_true hsuccess)⟩

end Steps

section Ending

open Foundation.Task (Ends)

variable {s : Surroundings} {plan : ReconciliationPlan} {targets : ReconciliationTargets}

theorem ends_appendError (action message : String) : Ends (appendError action message) :=
  Ends.bind (Ends.ofAnswer _) fun _ => Ends.update _

theorem ends_inquire {α : Type} (answers : Nat → Except Raised α)
    (inquiry : Except Raised α → Inquiry) : Ends (inquire answers inquiry) :=
  Ends.bind Ends.get fun _ => Ends.bind (Ends.update _) fun _ => Ends.ofAnswer _

theorem ends_probe {α : Type} (action : String) (answers : Nat → Except Raised α)
    (inquiry : Except Raised α → Inquiry) : Ends (probe action (inquire answers inquiry)) := by
  apply Ends.bind (Ends.settle (ends_inquire answers inquiry))
  intro outcome
  cases outcome with
  | ok value => exact Ends.pure _
  | error caught => exact Ends.bind (ends_appendError _ _) fun _ => Ends.pure _

theorem ends_command (spec : ProcessSpec) : Ends (command s spec) := by
  apply Ends.bind (Ends.update _)
  intro _
  apply Ends.bind (Ends.settle (ends_inquire _ _))
  intro outcome
  cases outcome with
  | error caught => exact Ends.bind (ends_appendError _ _) fun _ => Ends.pure _
  | ok code =>
      exact Ends.ite (Ends.bind (ends_appendError _ _) fun _ => Ends.pure _) (Ends.pure _)

theorem ends_runChecks (checks : List (String × Option Bool)) : Ends (runChecks checks) := by
  induction checks with
  | nil => exact Ends.pure ()
  | cons check rest ih =>
      obtain ⟨action, satisfied⟩ := check
      cases satisfied with
      | none => exact Ends.bind (Ends.pure ()) fun _ => ih
      | some value =>
          cases value with
          | true => exact Ends.bind (Ends.update _) fun _ => ih
          | false => exact Ends.bind (ends_appendError _ _) fun _ => ih

theorem ends_restoreStock : Ends (restoreStock s plan targets) := by
  apply Ends.bind (ends_probe _ _ _)
  intro stockActive
  apply Ends.bind (ends_probe _ _ _)
  intro owners
  split
  · apply Ends.bind (ends_probe _ _ _)
    intro text
    split
    · exact Ends.pure ()
    · exact Ends.ite (Ends.update _) (ends_appendError _ _)
  · exact Ends.ite (Ends.bind (ends_command _) fun _ => Ends.pure ()) (ends_appendError _ _)
  · exact Ends.pure ()

theorem ends_checkPostconditions : Ends (checkPostconditions s targets) := by
  apply Ends.bind (ends_probe _ _ _)
  intro _
  apply Ends.bind (ends_probe _ _ _)
  intro _
  apply Ends.bind (ends_probe _ _ _)
  intro _
  apply Ends.bind (ends_probe _ _ _)
  intro _
  apply Ends.bind (ends_probe _ _ _)
  exact fun _ => ends_runChecks _

theorem ends_checkedReconciliation : Ends (checkedReconciliation s plan targets) := by
  apply Ends.bind (ends_command _)
  intro _
  apply Ends.bind ends_restoreStock
  intro _
  apply Ends.bind ends_checkPostconditions
  exact fun _ => Ends.bind Ends.get fun _ => Ends.ofAnswer _

end Ending

/-- Whatever the commands and probes give or raise, the reconciliation returns a result. It
has begun with the cleanup of the custom gadget, it has started the stock service only
right behind reads that found it inactive and the controller without owners, and it
succeeds exactly without an error; then its last reads have found all six postconditions,
and they are listed. -/
theorem checked_reconciliation_honest (s : Surroundings) (targets : ReconciliationTargets)
    (hccastExecutable systemctlExecutable : String) (rootEnv : List (String × String)) :
    let plan := ReconciliationPlan.create hccastExecutable systemctlExecutable rootEnv
    let inquiries := ((checkedReconciliation s plan targets).final Ledger.empty).inquiries
    ∃ result, (checkedReconciliation s plan targets Ledger.empty).1 = .ok result ∧
      CleanupFirst plan inquiries ∧ StartGuarded plan targets inquiries ∧
      (result.success = true ↔ result.errors = []) ∧
      (result.success = true → PostconditionsRead targets inquiries ∧
        ∀ name ∈ postconditions, name ∈ result.verifiedPostconditions) := by
  intro plan inquiries
  have hrun := (@triple_checkedReconciliation s plan targets
    (by simp [plan, ReconciliationPlan.create]) (by simp [plan, ReconciliationPlan.create])
    (by simp [plan, ReconciliationPlan.create])) Ledger.empty rfl
  cases houtcome : (checkedReconciliation s plan targets Ledger.empty).1 with
  | ok result =>
      obtain ⟨⟨hfirst, hguarded⟩, hresult⟩ := hrun.ok houtcome
      exact ⟨result, rfl, hfirst, hguarded, hresult⟩
  | error halt =>
      cases halt with
      | unfinished => exact absurd houtcome (ends_checkedReconciliation.outcome _)
      | raised caught => exact (hrun.failed houtcome).elim

end HccastWired.Live
