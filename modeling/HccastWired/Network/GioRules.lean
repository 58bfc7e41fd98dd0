import HccastWired.Network.GioBackend

/-!
# Rules for restoration

What each call of the backend keeps, for conditions that do not look at the time.
-/

namespace HccastWired.Network.Gio

open Foundation Task

variable {moves : Nat → Move} {P : State → Prop} {record : Record} {b drain : Budget}
  {path wifi p2p : String} {owned : Option String} {fuel : Nat} {α : Type}
  {answer : Move → Except Failure α}

/-- A condition that does not look at the time. -/
def Timeless (P : State → Prop) : Prop :=
  ∀ s n, P s → P { s with time := n }

theorem Timeless.look (h : Timeless P) {F : Failure → State → Prop} :
    Triple P (look moves) (fun _ => P) F := by
  apply Triple.bindGet
  intro s _
  refine Triple.bind (Q := fun _ => P) (Triple.update fun t ht => h t _ ht.2) fun _ => ?_
  exact Triple.pure fun _ ht => ht

theorem Timeless.check (h : Timeless P) : Triple P (check moves b) (fun _ => P) fun _ => P := by
  refine Triple.bind h.look fun m => ?_
  refine Triple.bind (Q := fun _ => P) (Triple.refuse (fun _ _ ht => ht) fun _ _ ht => ht) fun _ => ?_
  exact Triple.refuse (fun _ _ ht => ht) fun _ _ ht => ht

theorem Timeless.pause (h : Timeless P) : Triple P (pause moves b) (fun _ => P) fun _ => P :=
  Triple.bind h.check fun _ => h.check

theorem Timeless.ask (h : Timeless P) : Triple P (ask moves b answer) (fun _ => P) fun _ => P := by
  refine Triple.bind h.check fun _ => ?_
  refine Triple.bind h.look fun m => ?_
  exact Triple.ofAnswer (fun _ _ _ ht => ht) fun _ _ _ ht => ht

theorem note_triple {e : Event} {Q : Unit → State → Prop} {F : Failure → State → Prop}
    (h : ∀ s, P s → Q () { s with log := e :: s.log }) : Triple P (note e) Q F :=
  Triple.update h

/-- A mutation is in the log from before its answer. -/
theorem Timeless.issue {Q : State → Prop} {mutation : Mutation} (h : Timeless P) (h' : Timeless Q)
    (hissue : ∀ s, P s → Q { s with log := .issued mutation :: s.log }) :
    Triple P (issue moves b mutation answer) (fun _ => Q) fun _ s => P s ∨ Q s := by
  refine Triple.bind (h.check.conseq (fun _ hs => hs) (fun _ _ hs => hs) fun _ _ hs => .inl hs) fun _ => ?_
  refine Triple.bind (Q := fun _ => Q) (note_triple hissue) fun _ => ?_
  refine Triple.bind h'.look fun m => ?_
  exact Triple.ofAnswer (fun _ _ _ ht => ht) fun _ _ _ ht => .inr ht

/-- A mutation that keeps a condition. -/
theorem Timeless.issueKept {mutation : Mutation} (h : Timeless P)
    (hissue : ∀ s, P s → P { s with log := .issued mutation :: s.log }) :
    Triple P (Gio.issue moves b mutation answer) (fun _ => P) fun _ => P :=
  (h.issue h hissue).conseq (fun _ hs => hs) (fun _ _ hs => hs) fun _ _ hs => hs.elim id id

/-- A look at a device. -/
theorem Timeless.device {Q : DeviceProps → State → Prop} (h : Timeless P)
    (hread : ∀ d s, P s → Q d { s with log := .device path d :: s.log }) :
    Triple P (deviceProps moves b path) Q fun _ => P := by
  refine Triple.bind h.ask fun d => ?_
  refine Triple.bind (Q := fun _ => Q d) (note_triple (hread d)) fun _ => ?_
  exact Triple.pure fun _ hs => hs

/-- A look at an active connection. -/
theorem Timeless.connection {Q : ConnectionProps → State → Prop} (h : Timeless P)
    (hread : ∀ c s, P s → Q c { s with log := .connection path c :: s.log }) :
    Triple P (connectionProps moves b path) Q fun _ => P := by
  refine Triple.bind h.ask fun c => ?_
  refine Triple.bind (Q := fun _ => Q c) (note_triple (hread c)) fun _ => ?_
  exact Triple.pure fun _ hs => hs

/-- A look at the default routes. -/
theorem Timeless.routes {Q : List String → State → Prop} (h : Timeless P)
    (hread : ∀ rs s, P s → Q rs { s with log := .routes rs :: s.log }) :
    Triple P (readRoutes moves b) Q fun _ => P := by
  refine Triple.bind h.ask fun rs => ?_
  refine Triple.bind (Q := fun _ => P) (Triple.refuse (fun _ _ ht => ht) fun _ _ ht => ht) fun _ => ?_
  refine Triple.bind (Q := fun _ => Q rs) (note_triple (hread rs)) fun _ => ?_
  exact Triple.pure fun _ hs => hs

/-- A stage ends in every case; its failure is reported. -/
theorem stage_triple {label : String} {action : Op α} {Q : α → State → Prop}
    {F F' : Failure → State → Prop} {R : Option α → State → Prop} (h : Triple P action Q F)
    (hok : ∀ a s, Q a s → R (some a) s)
    (hfail : ∀ e s, F e s → R none { s with errors := s.errors ++ [label] }) :
    Triple P (stage label action) R F' := by
  refine Triple.bind h.settle fun outcome => ?_
  cases outcome with
  | ok a => exact Triple.pure (hok a)
  | error e =>
    refine Triple.bind (Q := fun _ => R none) (Triple.update (hfail e)) fun _ => ?_
    exact Triple.pure fun _ hs => hs

theorem stage_kept {label : String} {action : Op α} {F : Failure → State → Prop}
    (h : Triple P action (fun _ => P) fun _ => P)
    (hreport : ∀ label s, P s → P { s with errors := s.errors ++ [label] }) :
    Triple P (stage label action) (fun _ => P) F :=
  stage_triple h (fun _ _ hs => hs) fun _ => hreport label

/-- A weaker condition on the failure. -/
theorem failing {x : Op α} {Q : α → State → Prop} {F F' : Failure → State → Prop} (h : Triple P x Q F)
    (hF : ∀ e s, F e s → F' e s) : Triple P x Q F' :=
  h.conseq (fun _ hs => hs) (fun _ _ hs => hs) hF

/-- An iteration over a list keeps a condition that each step keeps. -/
theorem forM_triple {ι : Type} {f : ι → Op PUnit} {F : Failure → State → Prop}
    (h : ∀ i, Triple P (f i) (fun _ => P) F) (items : List ι) :
    Triple P (items.forM f) (fun _ => P) F := by
  induction items with
  | nil => exact Triple.pure fun _ hs => hs
  | cons i items ih =>
    rw [List.forM_eq_forM, List.forM_cons]
    exact Triple.bind (h i) fun _ => ih

/-- What was read of devices, connections, routes and links. -/
def Event.isRead : Event → Bool
  | .device _ _ => true
  | .connection _ _ => true
  | .routes _ => true
  | .links _ => true
  | _ => false

/-- A condition that another look keeps. -/
structure Looks (P : State → Prop) : Prop where
  timeless : Timeless P
  read : ∀ e s, e.isRead = true → P s → P { s with log := e :: s.log }

theorem Looks.device (h : Looks P) : Triple P (deviceProps moves b path) (fun _ => P) fun _ => P :=
  h.timeless.device fun _ s hs => h.read _ s rfl hs

theorem Looks.connection (h : Looks P) : Triple P (connectionProps moves b path) (fun _ => P) fun _ => P :=
  h.timeless.connection fun _ s hs => h.read _ s rfl hs

theorem Looks.activeUuid (h : Looks P) : Triple P (activeUuid moves b path) (fun _ => P) fun _ => P := by
  rw [Gio.activeUuid]
  split
  · exact Triple.pure fun _ hs => hs
  · exact Triple.bind h.connection fun _ => Triple.pure fun _ hs => hs

/-- The devices that were found have been looked at. -/
theorem Looks.readDevices (h : Looks P) (paths : List String) :
    Triple P (readDevices moves b paths)
      (fun found s => P s ∧ ∀ q ∈ found, .device q.1 q.2 ∈ s.log) fun _ => P := by
  induction paths generalizing P with
  | nil => exact Triple.pure fun _ hs => ⟨hs, fun q hq => absurd hq List.not_mem_nil⟩
  | cons path paths ih =>
    rw [Gio.readDevices]
    have hread : ∀ d, Looks fun s => P s ∧ .device path d ∈ s.log := fun d =>
      ⟨fun s n hs => ⟨h.timeless s n hs.1, hs.2⟩,
        fun e s he hs => ⟨h.read e s he hs.1, List.mem_cons_of_mem e hs.2⟩⟩
    refine Triple.bind (h.timeless.device (Q := fun d s => P s ∧ .device path d ∈ s.log) fun d s hs =>
      ⟨h.read _ s rfl hs, List.mem_cons_self⟩) fun d => ?_
    refine Triple.bind ((ih (hread d)).conseq (fun _ hs => hs) (fun _ _ hs => hs) fun _ _ hs => hs.1)
      fun rest => ?_
    refine Triple.pure fun s hs => ⟨hs.1.1, ?_⟩
    exact List.forall_mem_cons.mpr ⟨hs.1.2, hs.2⟩

theorem Looks.devices (h : Looks P) :
    Triple P (devices moves b) (fun found s => P s ∧ ∀ q ∈ found, .device q.1 q.2 ∈ s.log) fun _ => P := by
  refine Triple.bind h.timeless.ask fun paths => ?_
  refine Triple.bind (Q := fun _ => P) (Triple.refuse (fun _ _ hs => hs) fun _ _ hs => hs) fun _ => ?_
  exact h.readDevices paths

/-- `wifi_view` adds looks, and its view as the last event. -/
theorem Looks.wifiView (h : Looks P) :
    Triple P (wifiView moves b wifi fuel)
      (fun view s => ∃ t, P t ∧ s = { t with log := .viewed view.1 view.2 :: t.log }) fun _ => P := by
  induction fuel with
  | zero => exact Triple.unfinished
  | succ fuel ih =>
    rw [Gio.wifiView]
    refine Triple.bind h.device fun current => ?_
    refine Triple.bind h.activeUuid.settle fun outcome => ?_
    cases outcome with
    | ok uuid =>
      refine Triple.bind (Q := fun _ s => ∃ t, P t ∧ s = { t with log := .viewed current uuid :: t.log })
        (note_triple fun s hs => ⟨s, hs, rfl⟩) fun _ => ?_
      exact Triple.pure fun _ hs => hs
    | error failure =>
      cases failure with
      | helper error =>
        refine Triple.bind h.device fun updated => ?_
        split
        · exact Triple.bind h.timeless.pause fun _ => ih
        · exact Triple.raise fun _ hs => hs
      | other => exact Triple.raise fun _ hs => hs

section Stages

/-- The last two looks show that the device has the connection, and that it is the recorded one. -/
def Owned (record : Record) (p2p path : String) (log : List Event) : Prop :=
  ∃ d c older, log = .device p2p d :: .connection path c :: older ∧ d.active = path ∧
    truthy record.connectionUuid = true ∧ c.uuid = record.connectionUuid ∧ c.type = some "wifi-p2p"

/-- The last looks show the device disconnected, and the owned group gone. -/
def Gone (p2p : String) (owned : Option String) (log : List Event) : Prop :=
  ∃ newer older d, log = newer ++ .device p2p d :: older ∧ d.state = some 30 ∧ d.active = "/" ∧
    d.ipInterface = some "" ∧ (∀ e ∈ newer, e.isRead = true) ∧
    ∀ group, owned = some group → ∃ names, .links names ∈ newer ∧ group ∉ names

/-- A deactivation is only asked for right after the looks that allow it. -/
theorem Looks.deactivatePath (h : Looks P) (hconnection : truthy record.connectionUuid = true)
    (howned : ∀ s o, (o = none → s.owned = none) → P s → P { s with owned := o })
    (hissue : ∀ s, Owned record p2p path s.log → P s →
      P { s with log := .issued (.deactivate path) :: s.log }) :
    Triple P (deactivatePath moves record b p2p path) (fun _ => P) fun _ => P := by
  have hread : ∀ c, Timeless fun s => P s ∧ ∃ older, s.log = .connection path c :: older :=
    fun c s n hs => ⟨h.timeless s n hs.1, hs.2⟩
  refine Triple.bind (h.timeless.connection (Q := fun c s => P s ∧ ∃ older,
    s.log = .connection path c :: older) fun c s hs => ⟨h.read _ s rfl hs, s.log, rfl⟩) fun c => ?_
  refine Triple.when (fun hc => ?_) fun _ s hs => hs.1
  obtain ⟨huuid, htype⟩ := of_decide_eq_true hc
  refine Triple.bind (((hread c).device (Q := fun d s => P s ∧ ∃ older,
    s.log = .device p2p d :: .connection path c :: older) ?_).conseq (fun _ hs => hs) (fun _ _ hs => hs)
    fun _ s hs => hs.1) fun d => ?_
  · rintro d s ⟨hs, older, hlog⟩
    exact ⟨h.read _ s rfl hs, older, congrArg (List.cons _) hlog⟩
  refine Triple.when (fun hd => ?_) fun _ s hs => hs.1
  have hactive := of_decide_eq_true hd
  refine Triple.bind (Q := fun _ s => P s ∧ ∃ older, s.log = .device p2p d :: .connection path c :: older)
    (Triple.update fun s hs => ⟨howned s _ ?_ hs.1, hs.2⟩) fun _ => ?_
  · split
    · next hnone => exact fun _ => Option.isNone_iff_eq_none.mp hnone.1
    · exact id
  refine (Timeless.issue (Q := P) (fun s n hs => ⟨h.timeless s n hs.1, hs.2⟩) h.timeless ?_).conseq
    (fun _ hs => hs) (fun _ _ hs => hs) fun _ s hs => hs.elim (fun hs => hs.1) id
  rintro s ⟨hs, older, hlog⟩
  exact hissue s ⟨d, c, older, hlog, hactive, hconnection, huuid, htype⟩ hs

theorem Looks.deactivateOwned (h : Looks P)
    (howned : ∀ s o, (o = none → s.owned = none) → P s → P { s with owned := o })
    (hissue : ∀ path s, Owned record p2p path s.log → P s →
      P { s with log := .issued (.deactivate path) :: s.log }) :
    Triple P (deactivateOwned moves record b p2p) (fun _ => P) fun _ => P := by
  refine Triple.when (fun hconnection => ?_) fun _ _ hs => hs
  refine Triple.bind h.timeless.ask fun m => ?_
  exact forM_triple (fun path => h.deactivatePath hconnection howned (hissue path)) _

theorem Looks.drainConnection {active : String} (h : Looks P) :
    Triple P (drainConnection moves record p2p drain active) (fun _ => P) fun _ => P := by
  refine Triple.bind h.connection.settle fun outcome => ?_
  cases outcome with
  | ok c =>
    refine Triple.bind (Q := fun _ => P) (Triple.refuse (fun _ _ hs => hs) fun _ _ hs => hs) fun _ => ?_
    exact Triple.pure fun _ hs => hs
  | error failure =>
    cases failure with
    | helper error =>
      refine Triple.bind h.device fun updated => ?_
      refine Triple.bind (Q := fun _ => P) (Triple.refuse (fun _ _ hs => hs) fun _ _ hs => hs) fun _ => ?_
      exact Triple.pure fun _ hs => hs
    | other => exact Triple.raise fun _ hs => hs

/-- Without a connection the drain reads nothing more of the device. -/
theorem Looks.drainAgain {d : DeviceProps} (h : Looks P) :
    Triple (fun s => P s ∧ ∃ older, s.log = .device p2p d :: older) (drainAgain moves record p2p drain d)
      (fun _ s => P s ∧ (d.active = "/" → ∃ older, s.log = .device p2p d :: older)) fun _ => P := by
  rw [Gio.drainAgain]
  split
  · exact Triple.pure fun s hs => ⟨hs.1, fun _ => hs.2⟩
  · next hactive =>
    exact h.drainConnection.conseq (fun _ hs => hs.1) (fun _ s hs => ⟨hs, fun he => absurd he hactive⟩)
      fun _ _ hs => hs

theorem Looks.groupGone {group : String} {d : DeviceProps} (h : Looks P) :
    Triple (fun s => P s ∧ ∃ older, s.log = .device p2p d :: older) (groupGone moves drain group)
      (fun gone s => P s ∧ (gone = true → ∃ names older, s.log = .links names :: .device p2p d :: older ∧
        group ∉ names)) fun _ => P := by
  have htimeless : Timeless fun s => P s ∧ ∃ older, s.log = .device p2p d :: older :=
    fun s n hs => ⟨h.timeless s n hs.1, hs.2⟩
  refine Triple.bind (htimeless.ask.conseq (fun _ hs => hs) (fun _ _ hs => hs) fun _ _ hs => hs.1)
    fun links => ?_
  split
  · exact Triple.raise fun _ hs => hs.1
  · next names _ =>
    refine Triple.bind (Q := fun _ s => P s ∧ ∃ older, s.log = .links names :: .device p2p d :: older)
      (note_triple ?_) fun _ => ?_
    · rintro s ⟨hs, older, hlog⟩
      exact ⟨h.read _ s rfl hs, older, congrArg (List.cons _) hlog⟩
    · refine Triple.pure ?_
      rintro s ⟨hs, older, hlog⟩
      exact ⟨hs, fun hgone => ⟨names, older, hlog, of_decide_eq_true hgone⟩⟩

theorem Looks.drained {d : DeviceProps} (h : Looks P) :
    Triple (fun s => P s ∧ (d.active = "/" → ∃ older, s.log = .device p2p d :: older))
      (drained moves drain owned d) (fun gone s => P s ∧ (gone = true → Gone p2p owned s.log))
      fun _ => P := by
  unfold Gio.drained
  split
  · next hsettled =>
    obtain ⟨hstate, hactive, hinterface⟩ := hsettled
    cases owned with
    | none =>
      refine Triple.pure ?_
      rintro s ⟨hs, hlog⟩
      obtain ⟨older, hlog⟩ := hlog hactive
      refine ⟨hs, fun _ => ⟨[], older, d, hlog, hstate, hactive, hinterface, ?_, ?_⟩⟩
      · exact fun e he => absurd he List.not_mem_nil
      · exact fun group hgroup => by cases hgroup
    | some group =>
      refine h.groupGone.conseq (fun s hs => ⟨hs.1, hs.2 hactive⟩) ?_ fun _ _ hs => hs
      rintro gone s ⟨hs, hgone⟩
      refine ⟨hs, fun htrue => ?_⟩
      obtain ⟨names, older, hlog, hgroup⟩ := hgone htrue
      refine ⟨[.links names], older, d, hlog, hstate, hactive, hinterface, ?_, ?_⟩
      · intro e he
        cases List.mem_singleton.mp he
        rfl
      · rintro group' heq
        cases heq
        exact ⟨names, List.mem_singleton.mpr rfl, hgroup⟩
  · exact Triple.pure fun s hs => ⟨hs.1, fun hfalse => by cases hfalse⟩

/-- The drain only looks, until it has seen what it waits for. -/
theorem Looks.drainLoop (h : Looks P) :
    Triple P (drainLoop moves record b p2p drain owned fuel) (fun _ s => P s ∧ Gone p2p owned s.log)
      fun _ => P := by
  induction fuel with
  | zero => exact Triple.unfinished
  | succ fuel ih =>
    rw [Gio.drainLoop]
    refine Triple.bind (h.timeless.device (Q := fun d s => P s ∧ ∃ older, s.log = .device p2p d :: older)
      fun d s hs => ⟨h.read _ s rfl hs, s.log, rfl⟩) fun d => ?_
    refine Triple.bind h.drainAgain fun again => ?_
    split
    · exact ih.pre fun s hs => hs.1
    · refine Triple.bind h.drained fun gone => ?_
      split
      · next hgone => exact Triple.pure fun s hs => ⟨hs.1, hs.2 hgone⟩
      · refine Triple.bind (h.timeless.pause.pre fun s hs => hs.1) fun _ => ?_
        exact Triple.bind h.timeless.check fun _ => ih

/-- The group that has to be gone is the recorded one from then on. -/
theorem Looks.drainOwned (h : Looks P)
    (hgroup : ∀ s, P s → P { s with group := s.owned.or s.group }) :
    Triple P (drainOwned moves record b p2p drain fuel)
      (fun _ s => P s ∧ Gone p2p s.owned s.log ∧ s.group = s.owned.or s.group) fun _ => P := by
  apply Triple.bindGet
  intro t _
  refine Triple.bind (Q := fun _ s => s = t ∧ P s) (Triple.refuse (fun _ _ hs => hs.2) fun _ _ hs => hs)
    fun _ => ?_
  refine Triple.bind (Q := fun _ s => P s ∧ s.owned = t.owned ∧ s.group = t.owned.or s.group)
    (Triple.update ?_) fun _ => ?_
  · rintro s ⟨rfl, hs⟩
    refine ⟨hgroup s hs, rfl, ?_⟩
    rw [← Option.or_assoc, Option.or_self]
  · have hlooks : Looks fun s => P s ∧ s.owned = t.owned ∧ s.group = t.owned.or s.group :=
      ⟨fun s n hs => ⟨h.timeless s n hs.1, hs.2⟩, fun e s he hs => ⟨h.read e s he hs.1, hs.2⟩⟩
    refine hlooks.drainLoop.conseq (fun _ hs => hs) ?_ fun _ _ hs => hs.1
    rintro _ s ⟨⟨hs, howned, hsame⟩, hgone⟩
    rw [howned]
    exact ⟨hs, hgone, hsame⟩

/-- A failed drain is reported. -/
theorem Looks.drainStage {F : Failure → State → Prop} (h : Looks P)
    (hgroup : ∀ s, P s → P { s with group := s.owned.or s.group })
    (hreport : ∀ label s, P s → P { s with errors := s.errors ++ [label] }) :
    Triple P (drainStage moves record b p2p fuel)
      (fun _ s => P s ∧ (s.errors = [] → Gone p2p s.owned s.log ∧ s.group = s.owned.or s.group)) F := by
  have hreported : ∀ label, Triple P (report label) (fun _ s => P s ∧ (s.errors = [] →
      Gone p2p s.owned s.log ∧ s.group = s.owned.or s.group)) F := by
    intro label
    refine Triple.update fun s hs => ⟨hreport label s hs, fun hempty => ?_⟩
    exact absurd hempty (List.append_ne_nil_of_right_ne_nil _ (List.cons_ne_nil _ _))
  refine Triple.bind h.timeless.look fun first => ?_
  refine Triple.bind h.timeless.look fun second => ?_
  refine Triple.bind (h.drainOwned hgroup).settle fun outcome => ?_
  cases outcome with
  | ok done => exact Triple.pure fun s hs => ⟨hs.1, fun _ => hs.2⟩
  | error failure =>
    cases failure with
    | helper error =>
      dsimp only
      split
      · exact hreported _
      · exact Triple.bind h.timeless.look fun m => hreported _
    | other => exact hreported _

theorem report_triple {label : String} {F : Failure → State → Prop}
    (hreport : ∀ label s, P s → P { s with errors := s.errors ++ [label] }) :
    Triple P (report label) (fun _ => P) F :=
  Triple.update fun s hs => hreport label s hs

/-- A checkpoint that is still there may be destroyed. -/
theorem Timeless.cancelCheckpoint {F : Failure → State → Prop} (h : Timeless P)
    (hissue : ∀ checkpoint s, P s → P { s with log := .issued (.checkpointDestroy checkpoint) :: s.log })
    (hreport : ∀ label s, P s → P { s with errors := s.errors ++ [label] }) :
    Triple P (cancelSurvivingCheckpoint moves record b) (fun _ => P) F := by
  refine Triple.bind (stage_kept ?_ hreport) fun _ => ?_
  · split
    · exact Triple.pure fun _ hs => hs
    · refine Triple.bind h.ask fun m => ?_
      refine Triple.when (fun _ => ?_) fun _ _ hs => hs
      exact h.issueKept fun s hs => hissue _ s hs
  · exact Triple.pure fun _ hs => hs

theorem Timeless.rollbackCheckpoint {F : Failure → State → Prop} (h : Timeless P)
    (hissue : ∀ checkpoint s, P s → P { s with log := .issued (.checkpointRollback checkpoint) :: s.log })
    (hreport : ∀ label s, P s → P { s with errors := s.errors ++ [label] }) :
    Triple P (rollbackCheckpoint moves record b) (fun _ => P) F := by
  rw [Gio.rollbackCheckpoint]
  split
  · exact Triple.pure fun _ hs => hs
  · refine Triple.bind (stage_triple (R := fun _ => P) (Q := fun _ => P) (F := fun _ => P)
      (Triple.bind h.ask fun m => Triple.pure fun _ hs => hs) (fun _ _ hs => hs)
      fun _ s hs => hreport _ s hs) fun checkpoints => ?_
    refine Triple.when (fun _ => ?_) fun _ _ hs => hs
    refine Triple.bind (stage_kept (h.issueKept fun s hs => hissue _ s hs) hreport) fun result => ?_
    exact Triple.when (fun _ => report_triple hreport) fun _ _ hs => hs

end Stages

end HccastWired.Network.Gio
