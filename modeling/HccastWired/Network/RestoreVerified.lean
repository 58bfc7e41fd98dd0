import HccastWired.Network.RestoreConflict

/-!
# A restoration without errors has restored

If `restore` reports no error, then what it has read since its last change shows the
recorded association, the P2P device without a connection and the default routes; and since
its last deactivation it has seen the device disconnected and the recorded group gone.
-/

namespace HccastWired.Network.Gio

open Foundation Task

variable {moves : Nat → Move} {record : Record} {b : Budget} {log : List Event} {e : Event} {s : State}
  {wifi p2p : String} {fuel : Nat}

section Spec

/-- Since the last deactivation the P2P device was seen disconnected, and the group gone. -/
def Drained (record : Record) (s : State) : Prop :=
  ∃ newer older p2p, s.log = newer ++ older ∧ IsP2p record p2p older ∧ Gone p2p s.group older ∧
    ∀ path, .issued (.deactivate path) ∉ newer

/-- The last event but looks is a view of the recorded association. -/
def Associated (record : Record) (log : List Event) : Prop :=
  ∃ current, log.find? (fun e => !e.isRead) = some (.viewed current record.snapshot.wifiUuid) ∧
    current.state = some record.snapshot.wifiState ∧
    current.autoconnect = some record.snapshot.wifiAutoconnect

/-- Since the last change the P2P device was seen without a connection. -/
def Released (record : Record) (log : List Event) : Prop :=
  ∃ newer older p2p d, log = newer ++ .device p2p d :: older ∧ IsP2p record p2p log ∧ d.active = "/" ∧
    ∀ mutation, .issued mutation ∉ newer

/-- The last look shows the recorded default routes. -/
def Routed (record : Record) (log : List Event) : Prop :=
  ∃ routes older, log = .routes routes :: older ∧ ∀ route ∈ record.snapshot.defaultRoutes, route ∈ routes

structure Restored (record : Record) (s : State) : Prop where
  drained : Drained record s
  associated : Associated record s.log
  released : Released record s.log
  routed : Routed record s.log

end Spec

section Conditions

theorem IsP2p.cons (h : IsP2p record p2p log) : IsP2p record p2p (e :: log) := by
  obtain ⟨d, hmem, hd⟩ := h
  exact ⟨d, List.mem_cons_of_mem e hmem, hd⟩

theorem Drained.add (h : Drained record s) (he : ∀ path, e ≠ .issued (.deactivate path)) :
    Drained record { s with log := e :: s.log } := by
  obtain ⟨newer, older, p2p, hlog, hp2p, hgone, hnone⟩ := h
  refine ⟨e :: newer, older, p2p, congrArg (List.cons e) hlog, hp2p, hgone, fun path hmem => ?_⟩
  obtain heq | hmem := List.mem_cons.mp hmem
  · exact he path heq.symm
  · exact hnone path hmem

theorem Associated.cons (h : Associated record log) (he : e.isRead = true) : Associated record (e :: log) := by
  obtain ⟨current, hfind, hcurrent⟩ := h
  refine ⟨current, ?_, hcurrent⟩
  rw [List.find?_cons_of_neg (by simp [he])]
  exact hfind

theorem Released.cons (h : Released record log) (he : ∀ mutation, e ≠ .issued mutation) :
    Released record (e :: log) := by
  obtain ⟨newer, older, p2p, d, hlog, hp2p, hactive, hnone⟩ := h
  refine ⟨e :: newer, older, p2p, d, congrArg (List.cons e) hlog, hp2p.cons, hactive, fun mutation hmem => ?_⟩
  obtain heq | hmem := List.mem_cons.mp hmem
  · exact he mutation heq.symm
  · exact hnone mutation hmem

/-- What holds until the drain: a group is only recorded while it is owned. -/
structure Begun (record : Record) (p2p : String) (s : State) : Prop where
  device : IsP2p record p2p s.log
  group : s.owned = none → s.group = none

theorem Begun.add (h : Begun record p2p s) : Begun record p2p { s with log := e :: s.log } :=
  ⟨h.device.cons, h.group⟩

theorem begun_looks : Looks (Begun record p2p) :=
  ⟨fun _ _ h => ⟨h.device, h.group⟩, fun _ _ _ h => h.add⟩

theorem begun_report (label : String) (s : State) (h : Begun record p2p s) :
    Begun record p2p { s with errors := s.errors ++ [label] } :=
  ⟨h.device, h.group⟩

/-- What holds from the drain on, unless an error was reported. -/
structure Settled (record : Record) (p2p : String) (s : State) : Prop where
  device : IsP2p record p2p s.log
  drained : s.errors = [] → Drained record s

theorem Settled.add (h : Settled record p2p s) (he : ∀ path, e ≠ .issued (.deactivate path)) :
    Settled record p2p { s with log := e :: s.log } :=
  ⟨h.device.cons, fun herrors => (h.drained herrors).add he⟩

theorem settled_looks : Looks (Settled record p2p) :=
  ⟨fun _ _ h => ⟨h.device, h.drained⟩, fun e _ he h => h.add (by
    rintro path rfl
    cases he)⟩

theorem not_reported {label : String} : s.errors ++ [label] ≠ [] :=
  List.append_ne_nil_of_right_ne_nil _ (List.cons_ne_nil _ _)

theorem settled_report (label : String) (s : State) (h : Settled record p2p s) :
    Settled record p2p { s with errors := s.errors ++ [label] } :=
  ⟨h.device, fun herrors => absurd herrors not_reported⟩

/-- A drain without an error leaves the device disconnected and the group gone. -/
theorem Begun.drained (h : Begun record p2p s)
    (hdrain : s.errors = [] → Gone p2p s.owned s.log ∧ s.group = s.owned.or s.group) :
    Settled record p2p s where
  device := h.device
  drained herrors := by
    obtain ⟨hgone, hgroup⟩ := hdrain herrors
    have hsame : s.group = s.owned := by
      cases howned : s.owned with
      | none => exact h.group howned
      | some group =>
        rw [howned] at hgroup
        exact hgroup
    exact ⟨[], s.log, p2p, rfl, h.device, hsame ▸ hgone, fun path hmem => absurd hmem List.not_mem_nil⟩

end Conditions

section Stages

/-- The view is the last event but looks. -/
theorem settled_view :
    Triple (Settled record p2p) (wifiView moves b wifi fuel)
      (fun view s => Settled record p2p s ∧
        s.log.find? (fun e => !e.isRead) = some (.viewed view.1 view.2)) fun _ => Settled record p2p := by
  refine settled_looks.wifiView.post ?_
  rintro view s ⟨t, hs, rfl⟩
  refine ⟨hs.add fun path he => (by cases he), ?_⟩
  rfl

theorem settled_issue {mutation : Mutation} {answer : Move → Except Failure Unit}
    (hm : ∀ path, mutation ≠ .deactivate path) :
    Triple (Settled record p2p) (issue moves b mutation answer) (fun _ => Settled record p2p)
      fun _ => Settled record p2p := by
  refine settled_looks.timeless.issueKept fun s hs => hs.add ?_
  rintro path heq
  exact hm path (Event.issued.inj heq)

/-- `restore_wifi` returns only with the recorded association in view. -/
theorem restoreLoop_associated {requested autoconnectSet : Bool} :
    Triple (Settled record p2p) (restoreLoop moves record b wifi requested autoconnectSet fuel)
      (fun _ s => Settled record p2p s ∧ Associated record s.log) fun _ => Settled record p2p := by
  induction fuel generalizing requested autoconnectSet with
  | zero => exact Triple.unfinished
  | succ fuel ih =>
    rw [restoreLoop]
    refine Triple.bind settled_view fun view => ?_
    obtain ⟨current, uuid⟩ := view
    refine Triple.bind (Q := fun _ s => Settled record p2p s ∧
      s.log.find? (fun e => !e.isRead) = some (.viewed current uuid)) ?_ fun _ => ?_
    · refine Triple.when (fun _ => ?_) fun _ _ hs => hs
      refine Triple.bind (Q := fun _ => Settled record p2p) ?_ fun _ => Triple.raise fun _ hs => hs
      refine (settled_looks.timeless.cancelCheckpoint ?_ settled_report).pre fun _ hs => hs.1
      exact fun checkpoint s hs => hs.add fun path he => by cases he
    · have hagain : ∀ requested autoconnectSet, Triple (Settled record p2p) (do
          pause moves b
          restoreLoop moves record b wifi requested autoconnectSet fuel)
          (fun _ s => Settled record p2p s ∧ Associated record s.log) fun _ => Settled record p2p :=
        fun _ _ => Triple.bind settled_looks.timeless.pause fun _ => ih
      split
      · next hassociated =>
        obtain ⟨hstate, rfl⟩ := hassociated
        split
        · next hautoconnect => exact Triple.pure fun s hs => ⟨hs.1, current, hs.2, hstate, hautoconnect⟩
        · refine Triple.bind (Q := fun _ => Settled record p2p) ?_ fun _ => hagain _ _
          refine Triple.when (fun _ => ?_) fun _ _ hs => hs.1
          exact (settled_issue fun path he => by cases he).pre fun _ hs => hs.1
      · split
        · refine Triple.bind (settled_looks.timeless.ask.pre fun _ hs => hs.1) fun connection => ?_
          exact Triple.bind (settled_issue fun path he => by cases he) fun _ => hagain _ _
        · exact (hagain _ _).pre fun _ hs => hs.1

/-- What the verification starts from, at each turn. -/
structure Verifying (record : Record) (p2p : String) (s : State) : Prop where
  settled : Settled record p2p s
  associated : s.errors = [] → Associated record s.log

theorem verifying_looks : Looks (Verifying record p2p) where
  timeless s n h := ⟨settled_looks.timeless s n h.settled, h.associated⟩
  read e s he h := ⟨settled_looks.read e s he h.settled, fun herrors => (h.associated herrors).cons he⟩

/-- A look at the P2P device without a connection. -/
theorem Verifying.released {d : DeviceProps} (h : Verifying record p2p s) (hactive : d.active = "/") :
    Verifying record p2p { s with log := .device p2p d :: s.log } ∧
      Released record (.device p2p d :: s.log) := by
  have hread := verifying_looks.read (.device p2p d) s rfl h
  exact ⟨hread, [], s.log, p2p, d, rfl, hread.settled.device, hactive,
    fun mutation hmem => absurd hmem List.not_mem_nil⟩

theorem released_looks {P : State → Prop} (h : Looks P) : Looks fun s => P s ∧ Released record s.log where
  timeless s n hs := ⟨h.timeless s n hs.1, hs.2⟩
  read e s he hs := by
    refine ⟨h.read e s he hs.1, hs.2.cons ?_⟩
    rintro mutation rfl
    cases he

/-- The view of the verification; another association than the recorded one ends it. -/
theorem verifying_view :
    Triple (fun s => Verifying record p2p s ∧ Released record s.log)
      (do
        let (current, uuid) ← wifiView moves b wifi fuel
        Task.refuse (current.state ≠ some record.snapshot.wifiState ∨ uuid ≠ record.snapshot.wifiUuid ∨
            current.autoconnect ≠ some record.snapshot.wifiAutoconnect)
          (fail "RestoreConflict" "Wi-Fi changed during route verification"))
      (fun _ s => Verifying record p2p s ∧ Released record s.log) fun _ => Settled record p2p := by
  have hlooks : Looks fun s => Settled record p2p s ∧ Released record s.log := released_looks settled_looks
  refine Triple.bind (Q := fun view s => (Settled record p2p s ∧ Released record s.log) ∧
    s.log.find? (fun e => !e.isRead) = some (.viewed view.1 view.2)) ?_ fun view => ?_
  · refine hlooks.wifiView.conseq (fun s hs => ⟨hs.1.settled, hs.2⟩) ?_ fun _ _ hs => hs.1
    rintro view s ⟨t, ⟨hs, hreleased⟩, rfl⟩
    refine ⟨⟨hs.add fun path he => (by cases he), hreleased.cons fun mutation he => (by cases he)⟩, rfl⟩
  · obtain ⟨current, uuid⟩ := view
    refine Triple.refuse (fun _ s hs => hs.1.1) fun hsame s hs => ?_
    have hsame := of_decide_eq_false hsame
    push Not at hsame
    obtain ⟨hstate, rfl, hautoconnect⟩ := hsame
    exact ⟨⟨hs.1.1, fun _ => ⟨current, hs.2, hstate, hautoconnect⟩⟩, hs.1.2⟩

/-- `verify_p2p` returns only with all of it in view. -/
theorem verifyLoop_verified {waiting : Bool} :
    Triple (Verifying record p2p) (verifyLoop moves record b wifi p2p waiting fuel)
      (fun _ s => Verifying record p2p s ∧ Released record s.log ∧ Routed record s.log)
      fun _ => Settled record p2p := by
  induction fuel generalizing waiting with
  | zero => exact Triple.unfinished
  | succ fuel ih =>
    rw [verifyLoop]
    have hlooks : Looks fun s => Verifying record p2p s ∧ Released record s.log :=
      released_looks verifying_looks
    refine Triple.bind ((verifying_looks.timeless.device (Q := fun d s => Verifying record p2p s ∧
      (d.active = "/" → Released record s.log)) fun d s hs => ?_).conseq (fun _ hs => hs) (fun _ _ hs => hs)
      fun _ s hs => hs.settled) fun d => ?_
    · exact ⟨verifying_looks.read _ s rfl hs, fun hactive => (hs.released hactive).2⟩
    refine Triple.bind (Q := fun _ s => Verifying record p2p s ∧ Released record s.log) ?_ fun _ => ?_
    · refine Triple.refuse (fun _ s hs => hs.1.settled) fun hactive s hs => ⟨hs.1, hs.2 ?_⟩
      exact not_not.mp (of_decide_eq_false hactive)
    refine Triple.bind (Q := fun _ s => Verifying record p2p s ∧ Released record s.log) ?_ fun _ => ?_
    · exact Triple.when (fun _ => verifying_view) fun _ _ hs => hs
    refine Triple.bind ((hlooks.timeless.routes (Q := fun routes s => (Verifying record p2p s ∧
      Released record s.log) ∧ ∃ older, s.log = .routes routes :: older) fun routes s hs => ?_).conseq
      (fun _ hs => hs) (fun _ _ hs => hs) fun _ s hs => hs.1.settled) fun routes => ?_
    · exact ⟨hlooks.read _ s rfl hs, s.log, rfl⟩
    split
    · next hall =>
      refine Triple.pure ?_
      rintro s ⟨⟨hs, hreleased⟩, older, hlog⟩
      refine ⟨hs, hreleased, routes, older, hlog, fun route hroute => ?_⟩
      exact of_decide_eq_true (List.all_eq_true.mp hall route hroute)
    · apply Triple.bindGet
      intro t _
      refine Triple.bind (Q := fun _ => Verifying record p2p) (Triple.refuse
        (fun _ _ hs => hs.2.1.1.settled) fun _ _ hs => hs.2.1.1) fun _ => ?_
      exact Triple.bind (failing verifying_looks.timeless.pause fun _ s hs => hs.settled) fun _ => ih

/-- What the stages end in. -/
abbrev Verified (record : Record) (s : State) : Prop :=
  s.errors = [] → Restored record s

theorem restoreDevices_verified {F : Failure → State → Prop} :
    Triple (Begun record p2p) (restoreDevices moves record b wifi p2p fuel) (fun _ => Verified record) F := by
  refine Triple.bind (stage_kept (begun_looks.timeless.issueKept fun s hs => hs.add) begun_report) fun _ => ?_
  refine Triple.bind (stage_kept (begun_looks.deactivateOwned (fun s o ho hs =>
    ⟨hs.device, fun hnone => hs.group (ho hnone)⟩) fun path s _ hs => hs.add) begun_report) fun _ => ?_
  refine Triple.bind ((begun_looks.drainStage ?_ begun_report).post fun _ s hs => hs.1.drained hs.2)
    fun _ => ?_
  · refine fun s hs => ⟨hs.device, fun hnone => ?_⟩
    change s.owned = none at hnone
    change s.owned.or s.group = none
    rw [hnone, hs.group hnone]
    rfl
  refine Triple.bind (stage_triple (R := fun view s => Settled record p2p s ∧ (view = none → s.errors ≠ []))
    settled_view (fun view s hs => ⟨hs.1, fun hnone => by cases hnone⟩)
    fun _ s hs => ⟨settled_report _ s hs, fun _ => not_reported⟩) fun view => ?_
  cases view with
  | none => exact Triple.pure fun s hs herrors => absurd herrors (hs.2 rfl)
  | some view =>
    obtain ⟨current, uuid⟩ := view
    dsimp only
    split
    · refine Triple.bind (Q := fun _ => Settled record p2p) ?_ fun _ => ?_
      · refine (settled_looks.timeless.cancelCheckpoint ?_ settled_report).pre fun _ hs => hs.1
        exact fun checkpoint s hs => hs.add fun path he => by cases he
      · exact Triple.update fun s _ herrors => absurd herrors not_reported
    · refine Triple.bind (Q := fun _ => Settled record p2p) ?_ fun _ => ?_
      · refine (settled_looks.timeless.rollbackCheckpoint ?_ settled_report).pre fun _ hs => hs.1
        exact fun checkpoint s hs => hs.add fun path he => by cases he
      refine Triple.bind (stage_triple (R := fun _ => Verifying record p2p) (Q := fun _ s =>
        Settled record p2p s ∧ Associated record s.log) (F := fun _ => Settled record p2p) ?_
        (fun _ s hs => ⟨hs.1, fun _ => hs.2⟩) fun _ s hs => ⟨settled_report _ s hs,
          fun herrors => absurd herrors not_reported⟩) fun _ => ?_
      · refine Triple.bind (Q := fun _ => Settled record p2p) (Triple.refuse (fun _ _ hs => hs)
          fun _ _ hs => hs) fun _ => restoreLoop_associated
      refine Triple.bind (stage_triple (R := fun _ => Verified record) verifyLoop_verified ?_ ?_)
        fun _ => Triple.pure fun _ hs => hs
      · rintro _ s ⟨hs, hreleased, hrouted⟩ herrors
        exact ⟨hs.settled.drained herrors, hs.associated herrors, hreleased, hrouted⟩
      · exact fun _ s _ herrors => absurd herrors not_reported

end Stages

section Runs

/-- A group is only recorded while it is owned. -/
abbrev Recorded (s : State) : Prop :=
  s.owned = none → s.group = none

theorem recorded_looks : Looks Recorded :=
  ⟨fun _ _ h => h, fun _ _ _ h => h⟩

theorem restore_verifies {F : Failure → State → Prop} :
    Triple Recorded (restore moves record b fuel) (fun _ => Verified record) F := by
  apply Triple.bindGet
  intro s _
  refine Triple.bind (Q := fun _ t => Recorded t ∧ (t.uncertain = true → t.errors ≠ [])) ?_ fun _ => ?_
  · refine Triple.when (fun _ => ?_) fun hcertain t ht => ⟨ht.2, fun hbad => ?_⟩
    · refine Triple.bind (stage_triple (Q := fun _ t => Recorded t ∧ t.uncertain = false)
        (F := fun _ => Recorded) (R := fun _ t => Recorded t ∧ (t.uncertain = true → t.errors ≠ [])) ?_
        (fun _ t ht => ⟨ht.1, fun hbad => ?_⟩) fun _ t ht => ⟨ht, fun _ => not_reported⟩) fun _ =>
        Triple.pure fun _ ht => ht
      · refine Triple.bind ((recorded_looks.timeless.ask).pre fun _ ht => ht.2) fun _ => ?_
        exact Triple.update fun t ht => ⟨ht, rfl⟩
      · rw [ht.2] at hbad
        cases hbad
    · rw [ht.1, hcertain] at hbad
      cases hbad
  · apply Triple.bindGet
    intro t _
    split
    · next hbad =>
      refine Triple.pure ?_
      rintro _ ⟨rfl, -, hreported⟩ herrors
      exact absurd herrors (hreported hbad)
    · refine Triple.bind (stage_triple (R := fun found u => Recorded u ∧ (found = none → u.errors ≠ []) ∧
        ∀ fs, found = some fs → ∀ q ∈ fs, Event.device q.1 q.2 ∈ u.log)
        (recorded_looks.devices.pre fun _ hu => hu.2.1) ?_ ?_) fun found => ?_
      · rintro found u ⟨hrecorded, hread⟩
        exact ⟨hrecorded, fun hnone => (by cases hnone), fun fs hfs => Option.some.inj hfs ▸ hread⟩
      · exact fun failure u hu => ⟨hu, fun _ => not_reported, fun fs hfs => by cases hfs⟩
      · cases found with
        | none => exact Triple.pure fun u hu herrors => absurd herrors (hu.2.1 rfl)
        | some found =>
          dsimp only
          split
          · next hwifi hp2p =>
            refine restoreDevices_verified.pre fun u hu => ⟨?_, hu.1⟩
            exact select_p2p (hu.2.2 _ rfl) hp2p
          · exact Triple.update fun u _ herrors => absurd herrors not_reported

/-- Whatever the surroundings do, a restoration that reports no error has seen the network
as it was recorded, after the last of its changes. -/
theorem restore_verified (moves : Nat → Move) (record : Record) (b : Budget) (fuel : Nat) (uncertain : Bool)
    (hended : (restore moves record b fuel (.initial record uncertain)).1 = .ok ())
    (herrors : ((restore moves record b fuel).final (.initial record uncertain)).errors = []) :
    Restored record ((restore moves record b fuel).final (.initial record uncertain)) := by
  have htriple := @restore_verifies moves record b fuel (fun _ _ => False) (State.initial record uncertain) id
  exact htriple.ok hended herrors

theorem restore_verified_association :
    Restored sampleRecord
      ((restore (sampleMoves sampleUuid) sampleRecord ⟨35, none⟩ 4).final (.initial sampleRecord false)) :=
  restore_verified _ _ _ _ _ (ok_of_isOk (by decide +kernel)) (by decide +kernel)

end Runs

end HccastWired.Network.Gio
