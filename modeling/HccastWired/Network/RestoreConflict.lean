import HccastWired.Network.GioRules

/-!
# Restoration never fights the user

Over every run of `restore`: nothing is rolled back, activated or set once another
connection has been seen, each of the two restoring changes is made once at most, and only
the recorded connection of the P2P device is deactivated.
-/

namespace HccastWired.Network.Gio

open Foundation Task

variable {moves : Nat → Move} {record : Record} {b : Budget} {log older : List Event} {e : Event}
  {wifi p2p : String} {fuel : Nat}

section Spec

/-- Another connection than the recorded one has been seen. -/
def Conflict (record : Record) (log : List Event) : Prop :=
  ∃ current uuid, .viewed current uuid ∈ log ∧ conflicts record uuid = true

/-- A path has been read as that of the recorded P2P device. -/
def IsP2p (record : Record) (path : String) (log : List Event) : Prop :=
  ∃ d, .device path d ∈ log ∧ d.deviceType = some 30 ∧ d.interface = some record.snapshot.p2pInterface

/-- The last two looks show that the recorded P2P device has the recorded connection. -/
def OwnsP2p (record : Record) (path : String) (log : List Event) : Prop :=
  ∃ p2p, IsP2p record p2p log ∧ Owned record p2p path log

def Activated (log : List Event) : Prop :=
  ∃ connection device, .issued (.activate connection device) ∈ log

def AutoconnectSet (log : List Event) : Prop :=
  ∃ device value, .issued (.setAutoconnect device value) ∈ log

/-- What has to be in the log before a change. -/
def Permitted (record : Record) (log : List Event) : Mutation → Prop
  | .stopFind _ => True
  | .checkpointDestroy _ => True
  | .deactivate path => OwnsP2p record path log
  | .checkpointRollback _ => ¬ Conflict record log
  | .setAutoconnect _ _ => ¬ Conflict record log ∧ ¬ AutoconnectSet log
  | .activate _ _ => ¬ Conflict record log ∧ ¬ Activated log

/-- Every change of the log was permitted. -/
def Careful (record : Record) (log : List Event) : Prop :=
  ∀ newer older mutation, log = newer ++ .issued mutation :: older → Permitted record older mutation

theorem Careful.cons (h : Careful record log)
    (he : ∀ mutation, e = .issued mutation → Permitted record log mutation) : Careful record (e :: log) := by
  intro newer older mutation heq
  cases newer with
  | nil =>
    obtain ⟨rfl, rfl⟩ := List.cons.inj heq
    exact he mutation rfl
  | cons first newer =>
    obtain ⟨-, htail⟩ := List.cons.inj heq
    exact h newer older mutation htail

end Spec

section Conditions

/-- A condition on the log that another look keeps. -/
def Insensitive (R : List Event → Prop) : Prop :=
  ∀ e log, e.isRead = true → R log → R (e :: log)

theorem careful_insensitive : Insensitive (Careful record) := by
  intro e log he h
  refine h.cons ?_
  rintro mutation rfl
  cases he

/-- No other connection has been seen, and the changes not noted have not been made. -/
structure Clear (record : Record) (requested autoconnectSet : Bool) (log : List Event) : Prop where
  careful : Careful record log
  clear : ¬ Conflict record log
  activated : requested = false → ¬ Activated log
  autoconnect : autoconnectSet = false → ¬ AutoconnectSet log

variable {requested autoconnectSet : Bool}

/-- An event that is no view and none of the two restoring changes. -/
def Event.isQuiet : Event → Bool
  | .viewed _ _ => false
  | .issued (.activate _ _) => false
  | .issued (.setAutoconnect _ _) => false
  | _ => true

theorem Clear.add {requested' autoconnectSet' : Bool} (h : Clear record requested autoconnectSet log)
    (hpermitted : ∀ mutation, e = .issued mutation → Permitted record log mutation)
    (hviewed : ∀ current uuid, e = .viewed current uuid → conflicts record uuid = false)
    (hactivated : requested' = false → requested = false ∧
      ∀ connection device, e ≠ .issued (.activate connection device))
    (hset : autoconnectSet' = false → autoconnectSet = false ∧
      ∀ device value, e ≠ .issued (.setAutoconnect device value)) :
    Clear record requested' autoconnectSet' (e :: log) where
  careful := h.careful.cons hpermitted
  clear := by
    rintro ⟨current, uuid, hmem, hconflict⟩
    obtain heq | hmem := List.mem_cons.mp hmem
    · exact Bool.false_ne_true ((hviewed current uuid heq.symm).symm.trans hconflict)
    · exact h.clear ⟨current, uuid, hmem, hconflict⟩
  activated hrequested := by
    rintro ⟨connection, device, hmem⟩
    obtain heq | hmem := List.mem_cons.mp hmem
    · exact (hactivated hrequested).2 connection device heq.symm
    · exact h.activated (hactivated hrequested).1 ⟨connection, device, hmem⟩
  autoconnect hautoconnect := by
    rintro ⟨device, value, hmem⟩
    obtain heq | hmem := List.mem_cons.mp hmem
    · exact (hset hautoconnect).2 device value heq.symm
    · exact h.autoconnect (hset hautoconnect).1 ⟨device, value, hmem⟩

theorem Clear.cons (h : Clear record requested autoconnectSet log) (he : e.isQuiet = true)
    (hpermitted : ∀ mutation, e = .issued mutation → Permitted record log mutation) :
    Clear record requested autoconnectSet (e :: log) := by
  have hquiet : ∀ {e' : Event}, e'.isQuiet = false → e ≠ e' := by
    rintro e' hfalse rfl
    exact Bool.false_ne_true (hfalse.symm.trans he)
  exact h.add hpermitted (fun _ _ heq => absurd heq (hquiet rfl)) (fun hr => ⟨hr, fun _ _ => hquiet rfl⟩)
    fun hs => ⟨hs, fun _ _ => hquiet rfl⟩

theorem clear_insensitive : Insensitive (Clear record requested autoconnectSet) := by
  intro e log he h
  refine h.cons ?_ ?_
  · cases e with
    | viewed current uuid => cases he
    | issued mutation => cases he
    | _ => rfl
  · rintro mutation rfl
    cases he

/-- A view without a conflict. -/
theorem Clear.viewed {current : DeviceProps} {uuid : Option String}
    (h : Clear record requested autoconnectSet log) (hclear : conflicts record uuid = false) :
    Clear record requested autoconnectSet (.viewed current uuid :: log) := by
  refine h.add (fun mutation he => by cases he) ?_ (fun hr => ⟨hr, fun _ _ he => by cases he⟩)
    fun hs => ⟨hs, fun _ _ he => by cases he⟩
  rintro current' uuid' heq
  cases heq
  exact hclear

/-- The connection is activated. -/
theorem Clear.activate {connection device : String} (h : Clear record false autoconnectSet log) :
    Clear record true autoconnectSet (.issued (.activate connection device) :: log) := by
  refine h.add ?_ (fun _ _ he => by cases he) (fun hr => by cases hr) fun hs => ⟨hs, fun _ _ he => by cases he⟩
  rintro mutation heq
  cases heq
  exact ⟨h.clear, h.activated rfl⟩

/-- The autoconnect flag is set. -/
theorem Clear.setAutoconnect {device : String} {value : Bool} (h : Clear record requested false log) :
    Clear record requested true (.issued (.setAutoconnect device value) :: log) := by
  refine h.add ?_ (fun _ _ he => by cases he) (fun hr => ⟨hr, fun _ _ he => by cases he⟩) fun hs => by cases hs
  rintro mutation heq
  cases heq
  exact ⟨h.clear, h.autoconnect rfl⟩

end Conditions

section Stages

/-- A condition on the log of a state. -/
abbrev Logged (R : List Event → Prop) : State → Prop := fun s => R s.log

theorem logged_timeless (R : List Event → Prop) : Timeless (Logged R) :=
  fun _ _ h => h

variable {R : List Event → Prop}

theorem Insensitive.looks (h : Insensitive R) : Looks (Logged R) :=
  ⟨logged_timeless R, fun e s he hs => h e s.log he hs⟩

/-- What the stages before the first view keep. -/
structure Early (record : Record) (p2p : String) (log : List Event) : Prop where
  clear : Clear record false false log
  device : IsP2p record p2p log

theorem Early.cons (h : Early record p2p log) (he : e.isQuiet = true)
    (hpermitted : ∀ mutation, e = .issued mutation → Permitted record log mutation) :
    Early record p2p (e :: log) where
  clear := h.clear.cons he hpermitted
  device := by
    obtain ⟨d, hmem, hfound⟩ := h.device
    exact ⟨d, List.mem_cons_of_mem e hmem, hfound⟩

theorem early_insensitive : Insensitive (Early record p2p) := by
  intro e log he h
  refine h.cons ?_ ?_
  · cases e with
    | viewed current uuid => cases he
    | issued mutation => cases he
    | _ => rfl
  · rintro mutation rfl
    cases he

/-- The recorded connection of the P2P device is deactivated. -/
theorem Early.deactivate {path : String} (h : Early record p2p log) (howned : Owned record p2p path log) :
    Early record p2p (.issued (.deactivate path) :: log) := by
  refine h.cons rfl ?_
  rintro mutation heq
  cases heq
  exact ⟨p2p, h.device, howned⟩

/-- A rollback while no other connection has been seen. -/
theorem clear_rollback (checkpoint : String) (log : List Event) (h : Clear record false false log) :
    Clear record false false (.issued (.checkpointRollback checkpoint) :: log) := by
  refine h.cons rfl ?_
  rintro mutation heq
  cases heq
  exact h.clear

theorem careful_destroy (checkpoint : String) (log : List Event) (h : Careful record log) :
    Careful record (.issued (.checkpointDestroy checkpoint) :: log) := by
  refine h.cons ?_
  rintro mutation heq
  cases heq
  trivial

theorem cancel_careful {F : Failure → State → Prop} :
    Triple (Logged (Careful record)) (cancelSurvivingCheckpoint moves record b)
      (fun _ => Logged (Careful record)) F :=
  (logged_timeless _).cancelCheckpoint (fun checkpoint s hs => careful_destroy checkpoint s.log hs)
    fun _ _ hs => hs

/-- A view leaves the log clear, or shows another connection. -/
theorem view_triple {requested autoconnectSet : Bool} :
    Triple (Logged (Clear record requested autoconnectSet)) (wifiView moves b wifi fuel)
      (fun view s => Careful record s.log ∧
        (conflicts record view.2 = false → Clear record requested autoconnectSet s.log))
      fun _ => Logged (Clear record requested autoconnectSet) := by
  refine clear_insensitive.looks.wifiView.post ?_
  rintro ⟨current, uuid⟩ s ⟨t, hclear, rfl⟩
  exact ⟨hclear.careful.cons fun mutation he => (by cases he), fun hnone => hclear.viewed hnone⟩

theorem restoreLoop_triple {requested autoconnectSet : Bool} :
    Triple (Logged (Clear record requested autoconnectSet))
      (restoreLoop moves record b wifi requested autoconnectSet fuel) (fun _ => Logged (Careful record))
      fun _ => Logged (Careful record) := by
  have hcareful : ∀ {requested autoconnectSet : Bool} (s : State),
      Logged (Clear record requested autoconnectSet) s → Logged (Careful record) s := fun _ hs => hs.careful
  induction fuel generalizing requested autoconnectSet with
  | zero => exact Triple.unfinished
  | succ fuel ih =>
    rw [restoreLoop]
    refine Triple.bind (failing view_triple fun _ => hcareful) fun view => ?_
    obtain ⟨current, uuid⟩ := view
    refine Triple.bind (Q := fun _ => Logged (Clear record requested autoconnectSet)) ?_ fun _ => ?_
    · refine Triple.when (fun _ => ?_) fun hnone s hs => hs.2 hnone
      refine Triple.bind (Q := fun _ => Logged (Careful record)) (cancel_careful.pre
        fun s hs => hs.1) fun _ => ?_
      exact Triple.raise fun _ hs => hs
    · split
      · split
        · exact Triple.pure fun s hs => hcareful s hs
        · refine Triple.bind (Q := fun _ => Logged (Clear record requested true)) ?_ fun _ => ?_
          · cases autoconnectSet with
            | true => exact Triple.pure fun _ hs => hs
            | false =>
              refine failing (Timeless.issue (logged_timeless _) (logged_timeless _) fun s hs =>
                Clear.setAutoconnect hs) fun _ s hs => ?_
              exact hs.elim (hcareful s) (hcareful s)
          · refine Triple.bind (failing (logged_timeless _).pause fun _ => hcareful) fun _ => ih
      · split
        · next hactivate =>
          obtain ⟨-, -, -, rfl⟩ := hactivate
          refine Triple.bind (failing (logged_timeless _).ask fun _ => hcareful) fun connection => ?_
          refine Triple.bind (failing (Timeless.issue (Q := Logged (Clear record true autoconnectSet))
            (logged_timeless _) (logged_timeless _) fun s hs => Clear.activate hs)
            fun _ s hs => hs.elim (hcareful s) (hcareful s)) fun _ => ?_
          refine Triple.bind (failing (logged_timeless _).pause fun _ => hcareful) fun _ => ih
        · refine Triple.bind (failing (logged_timeless _).pause fun _ => hcareful) fun _ => ih

/-- The verification only looks. -/
theorem verifyLoop_triple {waiting : Bool} :
    Triple (Logged (Careful record)) (verifyLoop moves record b wifi p2p waiting fuel)
      (fun _ => Logged (Careful record)) fun _ => Logged (Careful record) := by
  induction fuel generalizing waiting with
  | zero => exact Triple.unfinished
  | succ fuel ih =>
    rw [verifyLoop]
    refine Triple.bind ((logged_timeless _).device (Q := fun _ => Logged (Careful record)) fun d s hs =>
      careful_insensitive _ _ rfl hs) fun d => ?_
    refine Triple.bind (Q := fun _ => Logged (Careful record)) (Triple.refuse (fun _ _ hs => hs)
      fun _ _ hs => hs) fun _ => ?_
    refine Triple.bind (Q := fun _ => Logged (Careful record)) ?_ fun _ => ?_
    · refine Triple.when (fun _ => ?_) fun _ _ hs => hs
      refine Triple.bind (Q := fun _ => Logged (Careful record)) (careful_insensitive.looks.wifiView.post ?_)
        fun view => ?_
      · rintro view s ⟨t, ht, rfl⟩
        exact Careful.cons ht fun mutation he => by cases he
      · exact Triple.refuse (fun _ _ hs => hs) fun _ _ hs => hs
    · refine Triple.bind ((logged_timeless _).routes (Q := fun _ => Logged (Careful record)) fun rs s hs =>
        careful_insensitive _ _ rfl hs) fun routes => ?_
      split
      · exact Triple.pure fun _ hs => hs
      · apply Triple.bindGet
        intro s _
        refine Triple.bind (Q := fun _ => Logged (Careful record)) (Triple.refuse (fun _ _ hs => hs.2)
          fun _ _ hs => hs.2) fun _ => ?_
        exact Triple.bind (logged_timeless _).pause fun _ => ih

theorem restoreDevices_triple {F : Failure → State → Prop} :
    Triple (Logged (Early record p2p)) (restoreDevices moves record b wifi p2p fuel)
      (fun _ => Logged (Careful record)) F := by
  have hearly : ∀ s, Logged (Early record p2p) s → Logged (Careful record) s := fun _ hs => hs.clear.careful
  refine Triple.bind (stage_kept ((logged_timeless _).issueKept fun s hs => ?_) fun _ _ hs => hs) fun _ => ?_
  · refine Early.cons hs rfl ?_
    rintro mutation heq
    cases heq
    trivial
  refine Triple.bind (stage_kept (early_insensitive.looks.deactivateOwned (fun _ _ _ hs => hs)
    fun path s howned hs => Early.deactivate hs howned) fun _ _ hs => hs) fun _ => ?_
  refine Triple.bind ((early_insensitive.looks.drainStage (fun _ hs => hs) fun _ _ hs => hs).post
    fun _ _ hs => hs.1) fun _ => ?_
  refine Triple.bind (stage_triple (R := fun view s => Careful record s.log ∧ ∀ v, view = some v →
    conflicts record v.2 = false → Clear record false false s.log) (view_triple.pre fun s hs => hs.clear)
    ?_ ?_) fun view => ?_
  · rintro v s ⟨hcareful, hclear⟩
    exact ⟨hcareful, fun w hw => Option.some.inj hw ▸ hclear⟩
  · intro failure s hs
    exact ⟨Clear.careful hs, fun w hw => by cases hw⟩
  · cases view with
    | none => exact Triple.pure fun _ hs => hs.1
    | some v =>
      obtain ⟨current, uuid⟩ := v
      dsimp only
      split
      · refine Triple.bind (Q := fun _ => Logged (Careful record)) (cancel_careful.pre
          fun _ hs => hs.1) fun _ => ?_
        exact report_triple fun _ _ hs => hs
      · next hnone =>
        have hclear := Bool.eq_false_iff.mpr hnone
        refine Triple.bind (((logged_timeless _).rollbackCheckpoint (fun checkpoint s hs =>
          clear_rollback checkpoint s.log hs) fun _ _ hs => hs).pre fun s hs => hs.2 _ rfl hclear) fun _ => ?_
        refine Triple.bind (stage_triple (Q := fun _ => Logged (Careful record))
          (F := fun _ => Logged (Careful record)) (R := fun _ => Logged (Careful record)) ?_
          (fun _ _ hs => hs) fun _ _ hs => hs) fun _ => ?_
        · refine Triple.bind (Q := fun _ => Logged (Clear record false false)) (Triple.refuse
            (fun _ _ hs => Clear.careful hs) fun _ _ hs => hs) fun _ => ?_
          exact restoreLoop_triple
        · exact Triple.bind (stage_kept verifyLoop_triple fun _ _ hs => hs) fun _ => Triple.pure fun _ hs => hs

end Stages

section Runs

theorem select_p2p {found : List (String × DeviceProps)} {s : State}
    (hread : ∀ q ∈ found, .device q.1 q.2 ∈ s.log)
    (hselect : select 30 record.snapshot.p2pInterface found = [p2p]) : IsP2p record p2p s.log := by
  have hmem : p2p ∈ select 30 record.snapshot.p2pInterface found := by
    rw [hselect]
    exact List.mem_singleton.mpr rfl
  rw [select, List.mem_map] at hmem
  obtain ⟨q, hq, rfl⟩ := hmem
  obtain ⟨hfound, hprops⟩ := List.mem_filter.mp hq
  exact ⟨q.2, hread q hfound, of_decide_eq_true hprops⟩

theorem restore_triple {F : Failure → State → Prop} :
    Triple (Logged (Clear record false false)) (restore moves record b fuel)
      (fun _ => Logged (Careful record)) F := by
  apply Triple.bindGet
  intro s _
  refine Triple.bind (Q := fun _ => Logged (Clear record false false)) ?_ fun _ => ?_
  · refine Triple.when (fun _ => ?_) fun _ _ hs => hs.2
    refine Triple.bind ((stage_kept (P := Logged (Clear record false false)) ?_ fun _ _ hs => hs).pre
      fun _ hs => hs.2) fun _ => Triple.pure fun _ hs => hs
    refine Triple.bind (logged_timeless _).ask fun _ => ?_
    exact Triple.update fun _ hs => hs
  · apply Triple.bindGet
    intro t _
    split
    · exact Triple.pure fun _ hs => Clear.careful hs.2
    · refine Triple.bind (stage_triple (R := fun found s => Clear record false false s.log ∧
        ∀ fs, found = some fs → ∀ q ∈ fs, Event.device q.1 q.2 ∈ s.log)
        (Q := fun found s => Clear record false false s.log ∧ ∀ q ∈ found, .device q.1 q.2 ∈ s.log)
        (F := fun _ => Logged (Clear record false false)) ?_ ?_ ?_) fun found => ?_
      · exact clear_insensitive.looks.devices.pre fun _ hs => hs.2
      · rintro found s ⟨hclear, hread⟩
        exact ⟨hclear, fun fs hfs => Option.some.inj hfs ▸ hread⟩
      · intro failure s hs
        exact ⟨hs, fun fs hfs => by cases hfs⟩
      · cases found with
        | none => exact Triple.pure fun _ hs => hs.1.careful
        | some found =>
          dsimp only
          split
          · next hwifi hp2p =>
            refine restoreDevices_triple.pre fun s hs => ⟨hs.1, ?_⟩
            exact select_p2p (hs.2 _ rfl) hp2p
          · exact Triple.update fun _ hs => hs.1.careful

/-- Whatever the surroundings do, a restoration changes the network only as permitted: it
never works against a connection that it has seen the user choose. -/
theorem restore_careful (moves : Nat → Move) (record : Record) (b : Budget) (fuel : Nat) (uncertain : Bool)
    (hended : (restore moves record b fuel (.initial record uncertain)).1 = .ok ()) :
    Careful record ((restore moves record b fuel).final (.initial record uncertain)).log := by
  have hclear : Clear record false false (State.initial record uncertain).log := by
    constructor
    · intro newer older mutation heq
      simp [State.initial] at heq
    · rintro ⟨current, uuid, hmem, -⟩
      exact absurd hmem List.not_mem_nil
    · rintro - ⟨connection, device, hmem⟩
      exact absurd hmem List.not_mem_nil
    · rintro - ⟨device, value, hmem⟩
      exact absurd hmem List.not_mem_nil
  have htriple := @restore_triple moves record b fuel (fun _ _ => False) (State.initial record uncertain) hclear
  exact htriple.ok hended

/-! A restoration whose first view shows the connection `uuid`. -/

def sampleWifi : DeviceProps where
  deviceType := some 2
  interface := some "wlan0"
  state := some 100
  activeConnection := some "/connection"
  ipInterface := some "wlan0"
  autoconnect := some true

def sampleP2p : DeviceProps where
  deviceType := some 30
  interface := some "p2p-dev-wlan0"
  state := some 30
  activeConnection := some "/"
  ipInterface := some ""
  autoconnect := some false

def sampleMoves (uuid : String) (n : Nat) : Move where
  cancelled := false
  clock := 0
  reset := .ok ()
  paths := .ok ["/wifi", "/p2p"]
  device := .ok (if n ∈ [5, 11, 21] then sampleP2p else sampleWifi)
  connection := .ok ⟨some uuid, some "802-11-wireless"⟩
  manager := .ok ⟨some [], some []⟩
  done := .ok ()
  rollback := .ok []
  found := .ok "/settings"
  links := .ok (.list [])
  routes := .ok ["default"]

def sampleUuid : String := "0b5b8f5e-3f0f-4c35-9f6c-1d2b3a4c5d6e"

def sampleRecord : Record where
  state := .connected
  snapshot := ⟨"/wifi", "/p2p", "wlan0", "p2p-dev-wlan0", some sampleUuid, 100, true, ["default"]⟩

theorem ok_of_isOk {x : Except (Halt Failure) Unit} (h : x.isOk = true) : x = .ok () := by
  cases x with
  | ok done => rfl
  | error e => cases h

theorem restore_careful_conflict :
    ((restore (sampleMoves "other") sampleRecord ⟨35, none⟩ 3).final (.initial sampleRecord false)).errors =
        ["wifi-association-conflict"] ∧
      Careful sampleRecord
        ((restore (sampleMoves "other") sampleRecord ⟨35, none⟩ 3).final (.initial sampleRecord false)).log :=
  ⟨by decide +kernel, restore_careful _ _ _ _ _ (ok_of_isOk (by decide +kernel))⟩

end Runs

end HccastWired.Network.Gio
