import HccastWired.Foundation.Total
import HccastWired.Network.RestoreVerified

/-!
# The restoration ends at its deadline

Each turn of a loop of `restore` asks for the time, and the budget ends it once the
deadline has passed. So a clock that goes on and never back ends every restoration.
-/

namespace HccastWired.Network.Gio

open Foundation Task

variable {moves : Nat → Move} {record : Record} {b drain : Budget} {n last : Nat} {path wifi p2p : String}
  {owned : Option String} {fuel : Nat} {α : Type} {answer : Move → Except Failure α}

/-- At this moment or later. -/
abbrev From (n : Nat) : State → Prop := fun s => n ≤ s.time

/-- A task that ends, and does not turn the time back. -/
def Keeps (x : Op α) : Prop :=
  ∀ n, Total (From n) x (fun _ => From n) fun _ => From n

/-- The deadline has passed from this moment on. -/
def Passed (moves : Nat → Move) (b : Budget) (last : Nat) : Prop :=
  ∀ i, last ≤ i → b.deadline ≤ (moves i).clock

section Steps

theorem Keeps.pure (a : α) : Keeps (pure a : Op α) :=
  fun _ => Total.pure fun _ hs => hs

theorem Keeps.raise (e : Failure) : Keeps (raise e : Op α) :=
  fun _ => Total.raise fun _ hs => hs

theorem Keeps.bind {β : Type} {x : Op α} {f : α → Op β} (hx : Keeps x) (hf : ∀ a, Keeps (f a)) :
    Keeps (x >>= f) :=
  fun n => Total.bind (hx n) fun a => hf a n

theorem Keeps.when {condition : Bool} {x : Op Unit} (h : condition = true → Keeps x) :
    Keeps (when condition x) :=
  fun n => Total.when (fun hc => h hc n) fun _ _ hs => hs

theorem Keeps.refuse (condition : Bool) (e : Failure) : Keeps (refuse condition e) :=
  Keeps.when fun _ => Keeps.raise e

theorem Keeps.update {g : State → State} (h : ∀ s, (g s).time = s.time) : Keeps (Call.update g : Op Unit) :=
  fun _ => Total.update fun s hs => le_of_le_of_eq hs (h s).symm

theorem Keeps.note (e : Event) : Keeps (note e) :=
  Keeps.update fun _ => rfl

theorem Keeps.report (label : String) : Keeps (report label) :=
  Keeps.update fun _ => rfl

/-- The time of a look, and the next one. -/
theorem look_at {F : Failure → State → Prop} :
    Total (fun s => s.time = n) (look moves) (fun m s => m = moves n ∧ s.time = n + 1) F := by
  apply Total.bindGet
  rintro s rfl
  refine Total.bind (Q := fun _ t => t.time = s.time + 1) (Total.update ?_) fun _ => ?_
  · rintro t ⟨rfl, -⟩
    rfl
  · exact Total.pure fun t ht => ⟨rfl, ht⟩

/-- A task is looked at from each time on its own. -/
theorem Total.fromTime {x : Op α} {Q : α → State → Prop} {F : Failure → State → Prop}
    (h : ∀ i, n ≤ i → Total (fun s => s.time = i) x Q F) : Total (From n) x Q F :=
  fun s hs => h s.time hs s rfl

theorem look_total {F : Failure → State → Prop} :
    Total (From n) (look moves) (fun m s => n + 1 ≤ s.time ∧ ∃ i, n ≤ i ∧ m = moves i) F := by
  refine Total.fromTime fun i hi => look_at.post ?_
  rintro m s ⟨rfl, htime⟩
  exact ⟨htime ▸ Nat.succ_le_succ hi, i, hi, rfl⟩

theorem Keeps.look : Keeps (look moves) :=
  fun _ => look_total.post fun _ _ hs => Nat.le_of_succ_le hs.1

/-- A check takes time, and none passes after the deadline. -/
theorem Passed.check (h : Passed moves b last) :
    Total (From n) (check moves b) (fun _ s => n < last ∧ n + 1 ≤ s.time) fun _ => From n := by
  refine Total.bind look_total fun m => ?_
  refine Total.bind (Q := fun _ s => n + 1 ≤ s.time ∧ ∃ i, n ≤ i ∧ m = moves i) (Total.refuse
    (fun s hs => Nat.le_of_succ_le hs.1) fun _ _ hs => hs) fun _ => ?_
  refine Total.refuse (fun s hs => Nat.le_of_succ_le hs.1) ?_
  rintro hc s ⟨hs, i, hi, rfl⟩
  have hlast : i < last := not_le.mp fun hle => of_decide_eq_false hc (h i hle)
  exact ⟨Nat.lt_of_le_of_lt hi hlast, hs⟩

theorem Keeps.check : Keeps (check moves b) :=
  Keeps.bind Keeps.look fun _ => Keeps.bind (Keeps.refuse _ _) fun _ => Keeps.refuse _ _

theorem Keeps.pause : Keeps (pause moves b) :=
  Keeps.bind Keeps.check fun _ => Keeps.check

theorem Keeps.ofAnswer (value : Except Failure α) : Keeps (ofAnswer value : Op α) :=
  fun _ => Total.ofAnswer (fun _ _ hs => hs) fun _ _ hs => hs

theorem Keeps.ask : Keeps (ask moves b answer) :=
  Keeps.bind Keeps.check fun _ => Keeps.bind Keeps.look fun _ => Keeps.ofAnswer _

theorem Keeps.issue {mutation : Mutation} : Keeps (issue moves b mutation answer) :=
  Keeps.bind Keeps.check fun _ => Keeps.bind (Keeps.note _) fun _ =>
    Keeps.bind Keeps.look fun _ => Keeps.ofAnswer _

theorem Keeps.deviceProps : Keeps (deviceProps moves b path) :=
  Keeps.bind Keeps.ask fun _ => Keeps.bind (Keeps.note _) fun _ => Keeps.pure _

theorem Keeps.connectionProps : Keeps (connectionProps moves b path) :=
  Keeps.bind Keeps.ask fun _ => Keeps.bind (Keeps.note _) fun _ => Keeps.pure _

theorem Keeps.readRoutes : Keeps (readRoutes moves b) :=
  Keeps.bind Keeps.ask fun _ => Keeps.bind (Keeps.refuse _ _) fun _ =>
    Keeps.bind (Keeps.note _) fun _ => Keeps.pure _

/-- So does a look at a device. -/
theorem Passed.deviceProps (h : Passed moves b last) :
    Total (From n) (deviceProps moves b path) (fun _ s => n < last ∧ n + 1 ≤ s.time) fun _ => From n := by
  have hkeep : ∀ {β : Type} {x : Op β}, Keeps x → Total (fun s => n < last ∧ n + 1 ≤ s.time) x
      (fun _ s => n < last ∧ n + 1 ≤ s.time) fun _ => From n := fun hx => Total.given fun hlast =>
    (hx (n + 1)).conseq (fun _ hs => hs) (fun _ _ hs => ⟨hlast, hs⟩) fun _ _ hs => Nat.le_of_succ_le hs
  refine Total.bind (Q := fun _ s => n < last ∧ n + 1 ≤ s.time) (Total.bind h.check fun _ => ?_) fun d => ?_
  · exact hkeep (Keeps.bind Keeps.look fun _ => Keeps.ofAnswer _)
  · exact hkeep (Keeps.bind (Keeps.note _) fun _ => Keeps.pure _)

end Steps

section Loops

/-- What is known of a later time. -/
theorem later {x : Op α} (h : Total (From (n + 1)) x (fun _ => From (n + 1)) fun _ => From (n + 1)) :
    Total (From (n + 1)) x (fun _ => From n) fun _ => From n :=
  h.conseq (fun _ hs => hs) (fun _ _ hs => Nat.le_of_succ_le hs) fun _ _ hs => Nat.le_of_succ_le hs

theorem stage_total {label : String} {action : Op α} {F : Failure → State → Prop}
    (h : Total (From n) action (fun _ => From n) fun _ => From n) :
    Total (From n) (stage label action) (fun _ => From n) F := by
  refine Total.bind h.settle fun outcome => ?_
  cases outcome with
  | ok a => exact Total.pure fun _ hs => hs
  | error e =>
    refine Total.bind (Q := fun _ => From n) (Total.update fun _ hs => hs) fun _ => ?_
    exact Total.pure fun _ hs => hs

theorem Keeps.stage {label : String} {action : Op α} (h : Keeps action) : Keeps (stage label action) :=
  fun n => stage_total (h n)

theorem Keeps.activeUuid : Keeps (activeUuid moves b path) := by
  rw [Gio.activeUuid]
  split
  · exact Keeps.pure _
  · exact Keeps.bind Keeps.connectionProps fun _ => Keeps.pure _

/-- A view takes time too, and ends while there is fuel if the deadline passes before. -/
theorem Passed.wifiView (h : Passed moves b last) (hfuel : 0 < fuel) (hlast : last < n + fuel) :
    Total (From n) (wifiView moves b wifi fuel) (fun _ s => n < last ∧ n + 1 ≤ s.time) fun _ => From n := by
  induction fuel generalizing n with
  | zero => exact absurd hfuel (Nat.lt_irrefl 0)
  | succ fuel ih =>
    rw [Gio.wifiView]
    refine Total.bind h.deviceProps fun current => Total.given fun hbefore => ?_
    refine Total.conseq (P := From (n + 1)) (Q := fun _ => From (n + 1)) (F := fun _ => From (n + 1)) ?_
      (fun _ hs => hs) (fun _ _ hs => ⟨hbefore, hs⟩) fun _ _ hs => Nat.le_of_succ_le hs
    refine Total.bind (Keeps.activeUuid (n + 1)).settle fun outcome => ?_
    cases outcome with
    | ok uuid => exact (Keeps.bind (Keeps.note _) fun _ => Keeps.pure _) (n + 1)
    | error failure =>
      cases failure with
      | helper error =>
        refine Total.bind (Keeps.deviceProps (n + 1)) fun updated => ?_
        split
        · refine Total.bind (Keeps.pause (n + 1)) fun _ => ?_
          exact (ih (by omega) (by omega)).post fun _ _ hs => Nat.le_of_succ_le hs.2
        · exact Total.raise fun _ hs => hs
      | other => exact Total.raise fun _ hs => hs

theorem Keeps.drainConnection {active : String} : Keeps (drainConnection moves record p2p drain active) := by
  intro n
  refine Total.bind (Keeps.connectionProps n).settle fun outcome => ?_
  cases outcome with
  | ok c => exact (Keeps.bind (Keeps.refuse _ _) fun _ => Keeps.pure _) n
  | error failure =>
    cases failure with
    | helper error =>
      exact (Keeps.bind Keeps.deviceProps fun _ => Keeps.bind (Keeps.refuse _ _) fun _ => Keeps.pure _) n
    | other => exact Keeps.raise _ n

theorem Keeps.drainAgain {d : DeviceProps} : Keeps (drainAgain moves record p2p drain d) := by
  rw [Gio.drainAgain]
  split
  · exact Keeps.pure _
  · exact Keeps.drainConnection

theorem Keeps.groupGone {group : String} : Keeps (groupGone moves drain group) := by
  refine Keeps.bind Keeps.ask fun links => ?_
  split
  · exact Keeps.raise _
  · exact Keeps.bind (Keeps.note _) fun _ => Keeps.pure _

theorem Keeps.drained {d : DeviceProps} : Keeps (drained moves drain owned d) := by
  unfold Gio.drained
  split
  · split
    · exact Keeps.pure _
    · exact Keeps.groupGone
  · exact Keeps.pure _

/-- The drain ends with its own deadline. -/
theorem Passed.drainLoop (h : Passed moves drain last) (hfuel : 0 < fuel) (hlast : last < n + fuel) :
    Total (From n) (drainLoop moves record b p2p drain owned fuel) (fun _ => From n) fun _ => From n := by
  induction fuel generalizing n with
  | zero => exact absurd hfuel (Nat.lt_irrefl 0)
  | succ fuel ih =>
    rw [Gio.drainLoop]
    refine Total.bind h.deviceProps fun d => Total.given fun hbefore => ?_
    have hrest : Total (From (n + 1)) (Gio.drainLoop moves record b p2p drain owned fuel)
        (fun _ => From (n + 1)) fun _ => From (n + 1) := ih (by omega) (by omega)
    apply later
    refine Total.bind (Keeps.drainAgain (n + 1)) fun again => ?_
    split
    · exact hrest
    · refine Total.bind (Keeps.drained (n + 1)) fun gone => ?_
      split
      · exact Total.pure fun _ hs => hs
      · refine Total.bind (Keeps.pause (n + 1)) fun _ => ?_
        exact Total.bind (Keeps.check (n + 1)) fun _ => hrest

theorem cancelCheckpoint_total {F : Failure → State → Prop} :
    Total (From n) (cancelSurvivingCheckpoint moves record b) (fun _ => From n) F := by
  refine Total.bind (stage_total ?_) fun _ => Total.pure fun _ hs => hs
  split
  · exact Keeps.pure _ n
  · exact (Keeps.bind Keeps.ask fun m => Keeps.when fun _ => Keeps.issue) n

theorem rollbackCheckpoint_total {F : Failure → State → Prop} :
    Total (From n) (rollbackCheckpoint moves record b) (fun _ => From n) F := by
  rw [rollbackCheckpoint]
  split
  · exact Total.pure fun _ hs => hs
  · refine Total.bind (stage_total ((Keeps.bind Keeps.ask fun m => Keeps.pure _) n)) fun checkpoints => ?_
    refine Total.when (fun _ => ?_) fun _ _ hs => hs
    refine Total.bind (stage_total (Keeps.issue n)) fun result => ?_
    exact Total.when (fun _ => Total.update fun _ hs => hs) fun _ _ hs => hs

theorem Keeps.deactivatePath : Keeps (deactivatePath moves record b p2p path) := by
  refine Keeps.bind Keeps.connectionProps fun c => Keeps.when fun _ => ?_
  refine Keeps.bind Keeps.deviceProps fun d => Keeps.when fun _ => ?_
  exact Keeps.bind (Keeps.update fun _ => rfl) fun _ => Keeps.issue

theorem Keeps.deactivateOwned : Keeps (deactivateOwned moves record b p2p) := by
  refine Keeps.when fun _ => Keeps.bind Keeps.ask fun m n => ?_
  exact Total.forM (fun path => Keeps.deactivatePath n) _

/-- Each turn of `restore_wifi` starts with a view. -/
theorem Passed.restoreLoop {requested autoconnectSet : Bool} (h : Passed moves b last) (hfuel : 1 < fuel)
    (hlast : last + 1 < n + fuel) :
    Total (From n) (restoreLoop moves record b wifi requested autoconnectSet fuel) (fun _ => From n)
      fun _ => From n := by
  induction fuel generalizing n requested autoconnectSet with
  | zero => exact absurd hfuel (Nat.not_lt_zero 1)
  | succ fuel ih =>
    rw [Gio.restoreLoop]
    refine Total.bind (h.wifiView (by omega) (by omega)) fun view => Total.given fun hbefore => ?_
    obtain ⟨current, uuid⟩ := view
    have hagain : ∀ requested autoconnectSet, Total (From (n + 1)) (do
        Gio.pause moves b
        Gio.restoreLoop moves record b wifi requested autoconnectSet fuel)
        (fun _ => From (n + 1)) fun _ => From (n + 1) := fun _ _ =>
      Total.bind (Keeps.pause (n + 1)) fun _ => ih (by omega) (by omega)
    apply later
    refine Total.bind (Keeps.when (fun _ => Keeps.bind (fun _ => cancelCheckpoint_total) fun _ => Keeps.raise _) (n + 1))
      fun _ => ?_
    split
    · split
      · exact Total.pure fun _ hs => hs
      · exact Total.bind (Keeps.when (fun _ => Keeps.issue) (n + 1)) fun _ => hagain _ _
    · split
      · refine Total.bind (Keeps.ask (n + 1)) fun connection => ?_
        exact Total.bind (Keeps.issue (n + 1)) fun _ => hagain _ _
      · exact hagain _ _

/-- Each turn of `verify_p2p` starts with a look at the P2P device. -/
theorem Passed.verifyLoop {waiting : Bool} (h : Passed moves b last) (hfuel : 1 < fuel)
    (hlast : last + 1 < n + fuel) :
    Total (From n) (verifyLoop moves record b wifi p2p waiting fuel) (fun _ => From n) fun _ => From n := by
  induction fuel generalizing n waiting with
  | zero => exact absurd hfuel (Nat.not_lt_zero 1)
  | succ fuel ih =>
    rw [Gio.verifyLoop]
    refine Total.bind h.deviceProps fun d => Total.given fun hbefore => ?_
    have hview : Total (From (n + 1)) (Gio.wifiView moves b wifi fuel) (fun _ => From (n + 1))
        fun _ => From (n + 1) :=
      (h.wifiView (by omega) (by omega)).post fun _ _ hs => Nat.le_of_succ_le hs.2
    apply later
    refine Total.bind (Keeps.refuse _ _ (n + 1)) fun _ => ?_
    refine Total.bind (Q := fun _ => From (n + 1)) ?_ fun _ => ?_
    · exact Total.when (fun _ => Total.bind hview fun view => Keeps.refuse _ _ (n + 1)) fun _ _ hs => hs
    refine Total.bind (Keeps.readRoutes (n + 1)) fun routes => ?_
    split
    · exact Total.pure fun _ hs => hs
    · apply Total.bindGet
      intro t _
      refine Total.bind ((Keeps.refuse _ _ (n + 1)).pre fun _ hs => hs.2) fun _ => ?_
      exact Total.bind (Keeps.pause (n + 1)) fun _ => ih (by omega) (by omega)

end Loops

section Runs

/-- The drain's deadline passes too: at once if the budget's has, and else before `late`. -/
theorem drain_passed {i late : Nat} (hmono : Monotone fun n => (moves n).clock) (h : Passed moves b last)
    (hlate : (moves last).clock + 5 ≤ (moves late).clock) :
    Passed moves ⟨(moves (i + 1)).clock + min 5 (max 0 (b.deadline - (moves i).clock) / 4), none⟩
      (if i < last then late else i + 1) := by
  intro j hj
  dsimp only
  split at hj
  · next hi =>
    have hnext : (moves (i + 1)).clock ≤ (moves last).clock := hmono hi
    have hreserve : min 5 (max 0 (b.deadline - (moves i).clock) / 4) ≤ (5 : Time) := min_le_left _ _
    have hafter : (moves late).clock ≤ (moves j).clock := hmono hj
    linarith
  · next hi =>
    have hover : b.deadline - (moves i).clock ≤ 0 := sub_nonpos.mpr (h i (not_lt.mp hi))
    rw [max_eq_left hover, zero_div, min_eq_right (by norm_num), add_zero]
    exact hmono hj

theorem Passed.drainOwned (h : Passed moves drain last) (hfuel : 0 < fuel) (hlast : last < n + fuel) :
    Total (From n) (drainOwned moves record b p2p drain fuel) (fun _ => From n) fun _ => From n := by
  apply Total.bindGet
  intro t _
  refine Total.bind ((Keeps.refuse _ _ n).pre fun _ hs => hs.2) fun _ => ?_
  exact Total.bind (Total.update fun _ hs => hs) fun _ => h.drainLoop hfuel hlast

theorem drainStage_total {late : Nat} {F : Failure → State → Prop}
    (hmono : Monotone fun n => (moves n).clock) (h : Passed moves b last)
    (hlate : (moves last).clock + 5 ≤ (moves late).clock) (hfuel : late < fuel) :
    Total (From n) (drainStage moves record b p2p fuel) (fun _ => From n) F := by
  refine Total.fromTime fun i hi => ?_
  refine Total.bind look_at fun first => Total.given ?_
  rintro rfl
  refine Total.bind look_at fun second => Total.given ?_
  rintro rfl
  have hdrain : Total (From (i + 2)) (drainOwned moves record b p2p
      ⟨(moves (i + 1)).clock + min 5 (max 0 (b.deadline - (moves i).clock) / 4), none⟩ fuel)
      (fun _ => From (i + 2)) fun _ => From (i + 2) :=
    (drain_passed hmono h hlate).drainOwned (by omega) (by split <;> omega)
  have hback : ∀ s, From (i + 2) s → From n s := fun _ hs => by
    change i + 2 ≤ _ at hs
    change n ≤ _
    omega
  refine Total.bind (hdrain.settle.pre fun s hs => le_of_eq hs.symm) fun outcome => ?_
  cases outcome with
  | ok done => exact Total.pure hback
  | error failure =>
    cases failure with
    | helper error =>
      dsimp only
      split
      · exact Total.update hback
      · refine Total.bind (look_total (n := n).conseq hback (fun _ _ hs => hs) fun _ _ hs => hs) fun m => ?_
        exact Total.update fun s hs => Nat.le_of_succ_le hs.1
    | other => exact Total.update hback

theorem restoreDevices_total {late : Nat} {F : Failure → State → Prop}
    (hmono : Monotone fun n => (moves n).clock) (h : Passed moves b last)
    (hlate : (moves last).clock + 5 ≤ (moves late).clock) (hfuel : late < fuel) (hlast : last + 1 < fuel) :
    Total (From 0) (restoreDevices moves record b wifi p2p fuel) (fun _ => From 0) F := by
  refine Total.bind (stage_total (Keeps.issue 0)) fun _ => ?_
  refine Total.bind (stage_total (Keeps.deactivateOwned 0)) fun _ => ?_
  refine Total.bind (drainStage_total hmono h hlate hfuel) fun _ => ?_
  have hview : Total (From 0) (wifiView moves b wifi fuel) (fun _ => From 0) fun _ => From 0 :=
    (h.wifiView (by omega) (by omega)).post fun _ s _ => Nat.zero_le s.time
  refine Total.bind (stage_total hview) fun view => ?_
  cases view with
  | none => exact Total.pure fun _ hs => hs
  | some view =>
    obtain ⟨current, uuid⟩ := view
    dsimp only
    split
    · exact Total.bind cancelCheckpoint_total fun _ => Total.update fun _ hs => hs
    · refine Total.bind rollbackCheckpoint_total fun _ => ?_
      have hrestore : Total (From 0) (restoreWifi moves record b wifi fuel) (fun _ => From 0)
          fun _ => From 0 :=
        Total.bind (Keeps.refuse _ _ 0) fun _ => h.restoreLoop (by omega) (by omega)
      refine Total.bind (stage_total hrestore) fun _ => ?_
      refine Total.bind (stage_total (h.verifyLoop (by omega) (by omega))) fun _ => ?_
      exact Total.pure fun _ hs => hs

theorem Keeps.readDevices (paths : List String) : Keeps (readDevices moves b paths) := by
  induction paths with
  | nil => exact Keeps.pure _
  | cons path paths ih =>
    rw [Gio.readDevices]
    exact Keeps.bind Keeps.deviceProps fun d => Keeps.bind ih fun rest => Keeps.pure _

theorem Keeps.devices : Keeps (devices moves b) :=
  Keeps.bind Keeps.ask fun paths => Keeps.bind (Keeps.refuse _ _) fun _ => Keeps.readDevices paths

theorem Keeps.resetBus : Keeps (resetBus moves b) :=
  Keeps.bind Keeps.ask fun _ => Keeps.update fun _ => rfl

theorem restore_total {late : Nat} {F : Failure → State → Prop}
    (hmono : Monotone fun n => (moves n).clock) (h : Passed moves b last)
    (hlate : (moves last).clock + 5 ≤ (moves late).clock) (hfuel : late < fuel) (hlast : last + 1 < fuel) :
    Total (From 0) (restore moves record b fuel) (fun _ => From 0) F := by
  apply Total.bindGet
  intro s _
  refine Total.bind (Q := fun _ => From 0) ?_ fun _ => ?_
  · refine Total.when (fun _ => ?_) fun _ _ hs => hs.2
    refine Total.bind ((stage_total (Keeps.resetBus 0)).pre fun _ hs => hs.2) fun _ => ?_
    exact Total.pure fun _ hs => hs
  · apply Total.bindGet
    intro t _
    split
    · exact Total.pure fun _ hs => hs.2
    · refine Total.bind ((stage_total (Keeps.devices 0)).pre fun _ hs => hs.2) fun found => ?_
      cases found with
      | none => exact Total.pure fun _ hs => hs
      | some found =>
        dsimp only
        split
        · exact restoreDevices_total hmono h hlate hfuel hlast
        · exact Total.update fun _ hs => hs

/-- Whatever the bus answers, a restoration returns, if the clock never goes back and goes on. -/
theorem restore_ends (moves : Nat → Move) (record : Record) (b : Budget) (uncertain : Bool)
    (hmono : Monotone fun n => (moves n).clock) (hon : ∀ t, ∃ n, t ≤ (moves n).clock) :
    ∃ enough, ∀ fuel, enough ≤ fuel →
      (restore moves record b fuel (.initial record uncertain)).1 = .ok () := by
  obtain ⟨last, hlast⟩ := hon b.deadline
  obtain ⟨late, hlate⟩ := hon ((moves last).clock + 5)
  refine ⟨max (late + 1) (last + 2), fun fuel hfuel => ?_⟩
  have hpassed : Passed moves b last := fun i hi => hlast.trans (hmono hi)
  have htotal := @restore_total moves record b last fuel late (fun _ _ => False) hmono hpassed hlate
    (by omega) (by omega)
  obtain ⟨done, hdone, -⟩ := htotal.returns (Nat.zero_le _)
  exact hdone

theorem restore_ends_ticking :
    ∃ enough, ∀ fuel, enough ≤ fuel →
      (restore (fun n => { sampleMoves "other" n with clock := n }) sampleRecord ⟨35, none⟩ fuel
        (.initial sampleRecord false)).1 = .ok () :=
  restore_ends _ _ _ _ (fun _ _ h => Nat.cast_le.mpr h) fun t => exists_nat_ge t

end Runs

end HccastWired.Network.Gio
