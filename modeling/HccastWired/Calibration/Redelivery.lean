import HccastWired.Calibration.LossCompleteness

/-!
# Repeated delivery

A sample is recognised by its time and its normalized row. The rows of each kind are kept
in ascending order of their times and are never removed, so that a sample that has been
accepted is found again however long the history is, and the checks before that comparison
give what they gave the first time.
-/

namespace HccastWired.Calibration

open Foundation

/-- Rows in ascending order of their times. -/
def Ascending {α : Type} (time : α → Int) (rows : List α) : Prop :=
  rows.Pairwise fun old new => time old < time new

section Rows

variable {α : Type} {time : α → Int} {rows : List α} {row : α}

/-- A stored row is the one that a search for its time finds. -/
theorem Ascending.find_eq_some (h : Ascending time rows) (hrow : row ∈ rows) :
    rows.find? (fun old => decide (time old = time row)) = some row := by
  induction rows with
  | nil => exact absurd hrow List.not_mem_nil
  | cons first rows ih =>
    obtain ⟨hfirst, hrest⟩ := List.pairwise_cons.mp h
    obtain rfl | hmem := List.mem_cons.mp hrow
    · exact List.find?_cons_of_pos (decide_eq_true rfl)
    · have hne : time first ≠ time row := (hfirst row hmem).ne
      rw [List.find?_cons_of_neg (by simpa using hne)]
      exact ih hrest hmem

/-- A row of a new time that is not before the last one goes to the end. -/
theorem Ascending.concat (h : Ascending time rows)
    (hnew : rows.find? (fun old => decide (time old = time row)) = none)
    (hlast : ¬ (rows.getLast?.map time).any (fun t => decide (time row < t)) = true) :
    Ascending time (rows ++ [row]) := by
  rw [Ascending, List.pairwise_append]
  refine ⟨h, List.pairwise_singleton _ _, ?_⟩
  intro old hold new hnew'
  rw [List.mem_singleton.mp hnew']
  have hne : time old ≠ time row := by
    have hfind := List.find?_eq_none.mp hnew old hold
    simpa using hfind
  obtain ⟨before, last, rfl⟩ :=
    (List.eq_nil_or_concat' rows).resolve_left (List.ne_nil_of_mem hold)
  rw [List.getLast?_concat, Option.map_some, Option.any_some, decide_eq_true_iff, not_lt] at hlast
  have hle : time old ≤ time last := by
    obtain hmem | hmem := List.mem_append.mp hold
    · exact ((List.pairwise_append.mp h).2.2 old hmem last (List.mem_singleton_self _)).le
    · rw [List.mem_singleton.mp hmem]
  exact lt_of_le_of_ne (hle.trans hlast) hne

end Rows

namespace Accumulator

/-- The same rows, and the same stream to compare samples with. -/
structure SameRows (a b : Accumulator) : Prop where
  limits : b.limits = a.limits
  streamId : b.streamId = a.streamId
  streamingUs : b.streamingUs = a.streamingUs
  nativeRows : b.nativeRows = a.nativeRows
  healthRows : b.healthRows = a.healthRows

/-- The rows are kept, and each new one is the latest of its kind. -/
structure Grows (a b : Accumulator) : Prop where
  limits : b.limits = a.limits
  streamId : b.streamId = a.streamId
  streamingUs : b.streamingUs = a.streamingUs
  nativeRows : ∀ row ∈ a.nativeRows, row ∈ b.nativeRows
  healthRows : ∀ row ∈ a.healthRows, row ∈ b.healthRows
  nativeAscending : Ascending NativeRow.monotonicUs a.nativeRows →
    Ascending NativeRow.monotonicUs b.nativeRows
  healthAscending : Ascending HealthRow.monotonicUs a.healthRows →
    Ascending HealthRow.monotonicUs b.healthRows

section Steps

variable {a b c : Accumulator} {reason : String} {atUs : Int} {row : NativeRow} {sample streamId : PyValue}

theorem SameRows.trans (h : SameRows a b) (h' : SameRows b c) : SameRows a c where
  limits := h'.limits.trans h.limits
  streamId := h'.streamId.trans h.streamId
  streamingUs := h'.streamingUs.trans h.streamingUs
  nativeRows := h'.nativeRows.trans h.nativeRows
  healthRows := h'.healthRows.trans h.healthRows

theorem SameRows.grows (h : SameRows a b) : Grows a b where
  limits := h.limits
  streamId := h.streamId
  streamingUs := h.streamingUs
  nativeRows row hrow := by rwa [h.nativeRows]
  healthRows row hrow := by rwa [h.healthRows]
  nativeAscending hrows := by rwa [h.nativeRows]
  healthAscending hrows := by rwa [h.healthRows]

theorem Grows.trans (h : Grows a b) (h' : Grows b c) : Grows a c where
  limits := h'.limits.trans h.limits
  streamId := h'.streamId.trans h.streamId
  streamingUs := h'.streamingUs.trans h.streamingUs
  nativeRows row hrow := h'.nativeRows row (h.nativeRows row hrow)
  healthRows row hrow := h'.healthRows row (h.healthRows row hrow)
  nativeAscending hrows := h'.nativeAscending (h.nativeAscending hrows)
  healthAscending hrows := h'.healthAscending (h.healthAscending hrows)

theorem sameRows_refl (a : Accumulator) : SameRows a a := ⟨rfl, rfl, rfl, rfl, rfl⟩

theorem sameRows_stop (a : Accumulator) (reason : String) (atUs : Int) : SameRows a (a.stop reason atUs) :=
  ⟨rfl, rfl, rfl, rfl, rfl⟩

theorem sameRows_reject (a : Accumulator) (reason : String) (atUs : Int) :
    SameRows a (a.reject reason atUs) :=
  ⟨rfl, rfl, rfl, rfl, rfl⟩

theorem sameRows_stopAll (a : Accumulator) (reasons : List (Bool × String)) (atUs : Int) :
    SameRows a (a.stopAll reasons atUs) := by
  induction reasons generalizing a with
  | nil => exact sameRows_refl a
  | cons reason reasons ih =>
    apply SameRows.trans _ (ih _)
    dsimp only
    split
    · exact sameRows_stop a _ _
    · exact sameRows_refl a

theorem sameRows_rejectAll (a : Accumulator) (reasons : List (Bool × String)) (atUs : Int) :
    SameRows a (a.rejectAll reasons atUs) := by
  induction reasons generalizing a with
  | nil => exact sameRows_refl a
  | cons reason reasons ih =>
    apply SameRows.trans _ (ih _)
    dsimp only
    split
    · exact sameRows_reject a _ _
    · exact sameRows_refl a

theorem sameRows_acceptCohort (a : Accumulator) (row : NativeRow) : SameRows a (a.acceptCohort row).1 := by
  unfold acceptCohort
  dsimp only
  split
  · exact ⟨rfl, rfl, rfl, rfl, rfl⟩
  · split
    · exact sameRows_reject a _ _
    · exact sameRows_refl a
  · next cohort _ _ =>
    have hseen : SameRows a { a with
        cohortSeen := true, cohortFirstUs := some (a.cohortFirstUs.getD row.monotonicUs) } :=
      ⟨rfl, rfl, rfl, rfl, rfl⟩
    split
    · exact hseen.trans (sameRows_rejectAll _ _ _)
    · obtain ⟨hlimits, hstream, hstreaming, hnative, hhealth⟩ :=
        hseen.trans (sameRows_rejectAll _ (cohortChecks a row cohort) row.monotonicUs)
      exact ⟨hlimits, hstream, hstreaming, hnative, hhealth⟩

theorem sameRows_checkRows (a : Accumulator) (kind : String) (last : Option Int) (atUs : Int) :
    SameRows a (a.checkRows kind last atUs).1 := by
  unfold checkRows
  dsimp only
  split
  · exact sameRows_refl a
  · split
    · exact sameRows_stop a _ _
    · exact sameRows_refl a

theorem sameRows_overdue (a : Accumulator) (atUs : Int) : SameRows a (a.overdue atUs) := by
  unfold overdue
  split
  · exact sameRows_stop a _ _
  · exact sameRows_refl a

theorem sameRows_checkDeadline (a : Accumulator) (atValue : PyValue) :
    SameRows a (a.checkDeadline atValue).1 := by
  unfold checkDeadline
  split
  · exact sameRows_refl a
  · split
    · exact sameRows_refl a
    · next atUs _ =>
      have hhealth := (sameRows_overdue a atUs).trans (sameRows_checkRows (a.overdue atUs) "health"
        (a.healthRows.getLast?.map HealthRow.monotonicUs) atUs)
      have hnative := hhealth.trans (sameRows_checkRows _ "native"
        (a.lastNative.map NativeRow.monotonicUs) atUs)
      dsimp only
      split
      · exact sameRows_refl a
      · split
        · exact sameRows_refl a
        · split
          · exact hhealth
          · split
            · exact hnative
            · obtain ⟨hlimits, hstream, hstreaming, hrows, hhealthRows⟩ := hnative
              exact ⟨hlimits, hstream, hstreaming, hrows, hhealthRows⟩

theorem sameRows_finish (a : Accumulator) (atValue : PyValue) (recordable : Bool) :
    SameRows a (a.finish atValue recordable).1 := by
  have hcheck := sameRows_checkDeadline a atValue
  unfold finish
  split
  · next checked e heq =>
    rw [heq] at hcheck
    exact hcheck
  · next checked _ heq =>
    rw [heq] at hcheck
    split
    · obtain ⟨hlimits, hstream, hstreaming, hrows, hhealthRows⟩ := hcheck
      exact ⟨hlimits, hstream, hstreaming, hrows, hhealthRows⟩
    · exact hcheck

/-- What the decision about a row leaves, and when it is to be kept. -/
theorem remember_spec (a : Accumulator) (duplicate : Option Bool) (last : Option Int) (kind : String)
    (atUs : Int) : SameRows a (a.remember duplicate last kind atUs).1 ∧
      ((a.remember duplicate last kind atUs).2 = true →
        duplicate = none ∧ ¬ last.any (fun t => decide (atUs < t)) = true) := by
  unfold remember
  split
  · exact ⟨sameRows_refl a, fun h => absurd h Bool.false_ne_true⟩
  · exact ⟨sameRows_stop a _ _, fun h => absurd h Bool.false_ne_true⟩
  · split
    · exact ⟨sameRows_stop a _ _, fun h => absurd h Bool.false_ne_true⟩
    · next hlast =>
      split
      · exact ⟨sameRows_stop a _ _, fun h => absurd h Bool.false_ne_true⟩
      · dsimp only
        have hchecked : ∀ p : Prop, [Decidable p] →
            SameRows a (if p then a.stop (kind ++ "_gap") atUs else a) := by
          intro p _
          split
          · exact sameRows_stop a _ _
          · exact sameRows_refl a
        split
        · exact ⟨(hchecked _).trans (sameRows_stop _ _ _), fun h => absurd h Bool.false_ne_true⟩
        · exact ⟨hchecked _, fun _ => ⟨rfl, hlast⟩⟩

theorem grows_rememberNative (a : Accumulator) (row : NativeRow) : Grows a (a.rememberNative row).1 := by
  obtain ⟨hsame, hkept⟩ := remember_spec a (a.nativeDuplicate row) (a.lastNative.map NativeRow.monotonicUs)
    "native" row.monotonicUs
  unfold rememberNative
  dsimp only
  split
  · next h =>
    obtain ⟨hnew, hlast⟩ := hkept h
    refine ⟨hsame.limits, hsame.streamId, hsame.streamingUs, ?_, ?_, ?_, ?_⟩
    · exact fun _ hrow => List.mem_append_left _ hrow
    · exact hsame.grows.healthRows
    · exact fun hrows => hrows.concat (Option.map_eq_none_iff.mp hnew) hlast
    · exact hsame.grows.healthAscending
  · exact hsame.grows

theorem grows_rememberHealth (a : Accumulator) (row : HealthRow) : Grows a (a.rememberHealth row).1 := by
  obtain ⟨hsame, hkept⟩ := remember_spec a
    ((a.healthRows.find? fun old => decide (old.monotonicUs = row.monotonicUs)).map
      fun old => decide (old = row))
    (a.healthRows.getLast?.map HealthRow.monotonicUs) "health" row.monotonicUs
  unfold rememberHealth
  dsimp only
  split
  · next h =>
    obtain ⟨hnew, hlast⟩ := hkept h
    refine ⟨hsame.limits, hsame.streamId, hsame.streamingUs, ?_, ?_, ?_, ?_⟩
    · exact hsame.grows.nativeRows
    · exact fun _ hrow => List.mem_append_left _ hrow
    · exact hsame.grows.nativeAscending
    · exact fun hrows => hrows.concat (Option.map_eq_none_iff.mp hnew) hlast
  · exact hsame.grows

theorem grows_addHealth (a : Accumulator) (sample : PyValue) : Grows a (a.addHealth sample).1 := by
  unfold addHealth
  split
  · exact (sameRows_refl a).grows
  cases sample with
  | dict fields =>
    dsimp only
    split
    · exact (sameRows_refl a).grows
    next atUs _ =>
      have hremembered := grows_rememberHealth a (health a.limits (.dict fields) atUs)
      split
      · obtain ⟨hlimits, hstream, hstreaming, hnative, hhealth⟩ :=
          sameRows_stopAll (a.rememberHealth (health a.limits (.dict fields) atUs)).1
            (a.healthStops (health a.limits (.dict fields) atUs)) atUs
        exact hremembered.trans
          (SameRows.grows ⟨hlimits, hstream, hstreaming, hnative, hhealth⟩)
      · exact hremembered
  | _ => exact (sameRows_refl a).grows

theorem grows_takeFinal (a : Accumulator) (row : NativeRow) : Grows a (a.takeFinal row).1 := by
  have hended : Grows a { a with finalSeen := true } := SameRows.grows ⟨rfl, rfl, rfl, rfl, rfl⟩
  have hremembered := hended.trans (grows_rememberNative { a with finalSeen := true } row)
  unfold takeFinal
  dsimp only
  split
  · split
    · exact hremembered.trans (sameRows_acceptCohort _ row).grows
    · exact hremembered
  · exact hended

theorem grows_takeRow (a : Accumulator) (row : NativeRow) : Grows a (a.takeRow row).1 := by
  have hremembered := grows_rememberNative a row
  unfold takeRow
  dsimp only
  split
  · obtain ⟨hlimits, hstream, hstreaming, hnative, hhealth⟩ :=
      sameRows_stopAll (a.rememberNative row).1 (a.rowStops row) row.monotonicUs
    have hstarted : Grows (a.rememberNative row).1
        { stopAll (a.rememberNative row).1 (a.rowStops row) row.monotonicUs with
          startUs := a.startAt row } :=
      SameRows.grows ⟨hlimits, hstream, hstreaming, hnative, hhealth⟩
    exact (hremembered.trans hstarted).trans (sameRows_acceptCohort _ row).grows
  · exact hremembered

theorem grows_takeNative (a : Accumulator) (streamId sample : PyValue) (atUs : Int) :
    Grows a (a.takeNative streamId sample atUs).1 := by
  unfold takeNative
  split
  · exact SameRows.grows ⟨rfl, rfl, rfl, rfl, rfl⟩
  split
  · exact (sameRows_stop a _ _).grows
  split
  · exact (sameRows_stop a _ _).grows
  split
  · exact SameRows.grows ⟨rfl, rfl, rfl, rfl, rfl⟩
  dsimp only
  split
  · exact grows_takeFinal a _
  · exact grows_takeRow a _

/-- Whatever is called, and whether or not it raises, the rows stay and stay in order. -/
theorem grows_call (a : Accumulator) (call : MeasurementCall) : Grows a (a.call call) := by
  cases call with
  | native streamId sample =>
    obtain ⟨e, h⟩ | ⟨atUs, -, h⟩ := addNative_cases a streamId sample
    · rw [Accumulator.call, h]
      exact (sameRows_refl a).grows
    · rw [Accumulator.call, h]
      exact grows_takeNative a streamId sample atUs
  | health sample => exact grows_addHealth a sample
  | deadline atValue => exact (sameRows_checkDeadline a atValue).grows
  | finish atValue recordable => exact (sameRows_finish a atValue recordable).grows

theorem grows_run (a : Accumulator) (calls : List MeasurementCall) : Grows a (a.run calls) := by
  induction calls generalizing a with
  | nil => exact (sameRows_refl a).grows
  | cons call calls ih => exact (grows_call a call).trans (ih _)

end Steps

section Repeats

variable {a b : Accumulator} {sample streamId : PyValue} {atUs : Int}

/-- A kept row is the one that a search for its time finds from then on. -/
theorem rememberNative_kept {row : NativeRow} (h : (a.rememberNative row).2 = true) :
    row ∈ (a.rememberNative row).1.nativeRows := by
  unfold rememberNative at h ⊢
  dsimp only at h ⊢
  split
  · exact List.mem_append_right _ (List.mem_singleton_self _)
  · next hskipped =>
    rw [if_neg hskipped] at h
    exact absurd h Bool.false_ne_true

theorem rememberHealth_kept {row : HealthRow} (h : (a.rememberHealth row).2 = true) :
    row ∈ (a.rememberHealth row).1.healthRows := by
  unfold rememberHealth at h ⊢
  dsimp only at h ⊢
  split
  · exact List.mem_append_right _ (List.mem_singleton_self _)
  · next hskipped =>
    rw [if_neg hskipped] at h
    exact absurd h Bool.false_ne_true

/-- A row that is stored is not kept again, and nothing is noted. -/
theorem rememberNative_stored {row : NativeRow} (horder : Ascending NativeRow.monotonicUs a.nativeRows)
    (hrow : row ∈ a.nativeRows) : a.rememberNative row = (a, false) := by
  have hduplicate : a.nativeDuplicate row = some true := by
    rw [nativeDuplicate, horder.find_eq_some hrow, Option.map_some, decide_eq_true rfl]
  rw [rememberNative, hduplicate]
  rfl

theorem rememberHealth_stored {row : HealthRow} (horder : Ascending HealthRow.monotonicUs a.healthRows)
    (hrow : row ∈ a.healthRows) : a.rememberHealth row = (a, false) := by
  rw [rememberHealth, horder.find_eq_some hrow, Option.map_some, decide_eq_true rfl]
  rfl

/-- What the acceptance of a health sample says about it, and that its row is stored. -/
theorem addHealth_accepted (h : (a.addHealth sample).2 = .ok true) :
    ∃ atUs, Timestamped sample atUs ∧
      health a.limits sample atUs ∈ (a.addHealth sample).1.healthRows := by
  unfold addHealth at h ⊢
  split at h
  · cases h
  next hopen =>
    rw [if_neg hopen]
    cases sample with
    | dict fields =>
      dsimp only at h ⊢
      split at h
      · cases h
      next atUs htime =>
        split at h
        · next hkept =>
          rw [if_pos hkept]
          refine ⟨atUs, ⟨⟨fields, rfl⟩, htime⟩, ?_⟩
          rw [(sameRows_stopAll _ _ _).healthRows]
          exact rememberHealth_kept hkept
        · cases h
    | _ => cases h

/-- A sample with a time is compared with the stored rows first. -/
theorem addHealth_stored (h : Timestamped sample atUs) (horder : Ascending HealthRow.monotonicUs a.healthRows)
    (hrow : health a.limits sample atUs ∈ a.healthRows) : (a.addHealth sample).1 = a := by
  obtain ⟨⟨fields, rfl⟩, htime⟩ := h
  unfold addHealth
  split
  · rfl
  · dsimp only
    rw [htime]
    dsimp only
    rw [rememberHealth_stored horder hrow]
    rfl

/-- The checks of a native sample that come before the comparison with the stored rows. -/
structure Passes (a : Accumulator) (streamId sample : PyValue) (atUs : Int) : Prop where
  timestamped : Timestamped sample atUs
  streamId : streamId = .str a.streamId
  wellFormed : wellFormed sample = true
  streaming : a.streamingUs ≤ atUs
  notFinal : valueIsTrue (sample.get "final") = false

theorem takeFinal_answer (a : Accumulator) (row : NativeRow) : (a.takeFinal row).2 ≠ .ok true := by
  unfold takeFinal answered
  dsimp only
  split
  · split
    · dsimp only
      split
      · exact fun h => by cases h
      · exact fun h => by cases h
    · exact fun h => by cases h
  · exact fun h => by cases h

theorem takeRow_kept {row : NativeRow} (h : (a.takeRow row).2 = .ok true) :
    row ∈ (a.takeRow row).1.nativeRows := by
  unfold takeRow answered at h ⊢
  dsimp only at h ⊢
  split at h
  · next hkept =>
    rw [if_pos hkept]
    dsimp only
    rw [(sameRows_acceptCohort _ row).nativeRows]
    dsimp only
    rw [(sameRows_stopAll _ _ _).nativeRows]
    exact rememberNative_kept hkept
  · cases h

theorem addNative_accepted (h : (a.addNative streamId sample).2 = .ok true) :
    ∃ atUs, Passes a streamId sample atUs ∧
      native sample atUs ∈ (a.addNative streamId sample).1.nativeRows := by
  obtain ⟨e, herror⟩ | ⟨atUs, htime, htake⟩ := addNative_cases a streamId sample
  · rw [herror] at h
    cases h
  rw [htake] at h ⊢
  unfold takeNative at h ⊢
  split at h
  · cases h
  next hstream =>
    rw [if_neg hstream]
    split at h
    · cases h
    next hwell =>
      rw [if_neg hwell]
      split at h
      · cases h
      next hstreaming =>
        rw [if_neg hstreaming]
        split at h
        · cases h
        next hteardown =>
          rw [if_neg hteardown]
          dsimp only at h ⊢
          split at h
          · exact absurd h (takeFinal_answer a _)
          next hfinal =>
            rw [if_neg hfinal]
            exact ⟨atUs, ⟨htime, not_not.mp hstream, by simpa using hwell, not_lt.mp hstreaming,
              Bool.not_eq_true _ ▸ hfinal⟩, takeRow_kept h⟩

theorem addNative_stored (h : Passes a streamId sample atUs) (hopen : a.finalSeen = false)
    (horder : Ascending NativeRow.monotonicUs a.nativeRows) (hrow : native sample atUs ∈ a.nativeRows) :
    (a.addNative streamId sample).1 = a := by
  cases hfinished : a.finished with
  | true =>
    obtain ⟨⟨fields, rfl⟩, -⟩ := h.timestamped
    rw [addNative, if_pos hfinished]
  | false =>
    have hfinal : ¬ (native sample atUs).final = true := by
      intro hfinal
      exact absurd (hfinal.symm.trans h.notFinal) Bool.true_eq_false_eq_False.elim
    rw [addNative_timestamped hfinished h.timestamped, takeNative, if_neg (not_not.mpr h.streamId),
      if_neg (by simp [h.wellFormed]), if_neg (not_lt.mpr h.streaming), if_neg (by simp [hopen])]
    dsimp only
    rw [if_neg hfinal, takeRow, rememberNative_stored horder hrow]
    rfl

/-- The call delivers a sample that is answered with `True`. -/
def Accepts (a : Accumulator) : MeasurementCall → Prop
  | .native streamId sample => (a.addNative streamId sample).2 = .ok true
  | .health sample => (a.addHealth sample).2 = .ok true
  | .deadline _ => False
  | .finish _ _ => False

/-- The call delivers a sample that is stored. -/
def Stored (a : Accumulator) : MeasurementCall → Prop
  | .native streamId sample => ∃ atUs, Passes a streamId sample atUs ∧ native sample atUs ∈ a.nativeRows
  | .health sample => ∃ atUs, Timestamped sample atUs ∧ health a.limits sample atUs ∈ a.healthRows
  | .deadline _ => False
  | .finish _ _ => False

theorem Grows.stored {c : MeasurementCall} (h : Grows a b) (hstored : Stored a c) : Stored b c := by
  cases c with
  | native streamId sample =>
    obtain ⟨atUs, hpasses, hrow⟩ := hstored
    refine ⟨atUs, ⟨hpasses.timestamped, ?_, hpasses.wellFormed, ?_, hpasses.notFinal⟩, h.nativeRows _ hrow⟩
    · rw [h.streamId]
      exact hpasses.streamId
    · rw [h.streamingUs]
      exact hpasses.streaming
  | health sample =>
    obtain ⟨atUs, htime, hrow⟩ := hstored
    refine ⟨atUs, htime, ?_⟩
    rw [h.limits]
    exact h.healthRows _ hrow
  | deadline atValue => exact hstored
  | finish atValue recordable => exact hstored

theorem Accepts.stored {c : MeasurementCall} (h : a.Accepts c) : Stored (a.call c) c := by
  have hgrows := grows_call a c
  cases c with
  | native streamId sample =>
    obtain ⟨atUs, hpasses, hrow⟩ := addNative_accepted h
    refine ⟨atUs, ⟨hpasses.timestamped, ?_, hpasses.wellFormed, ?_, hpasses.notFinal⟩, hrow⟩
    · rw [hgrows.streamId]
      exact hpasses.streamId
    · rw [hgrows.streamingUs]
      exact hpasses.streaming
  | health sample =>
    obtain ⟨atUs, htime, hrow⟩ := addHealth_accepted h
    refine ⟨atUs, htime, ?_⟩
    rw [hgrows.limits]
    exact hrow
  | deadline atValue => exact h
  | finish atValue recordable => exact h

/-- Delivering a stored sample again changes nothing at all. -/
theorem call_stored {c : MeasurementCall} (hnative : Ascending NativeRow.monotonicUs a.nativeRows)
    (hhealth : Ascending HealthRow.monotonicUs a.healthRows) (hopen : a.finalSeen = false)
    (h : Stored a c) : a.call c = a := by
  cases c with
  | native streamId sample =>
    obtain ⟨atUs, hpasses, hrow⟩ := h
    exact addNative_stored hpasses hopen hnative hrow
  | health sample =>
    obtain ⟨atUs, htime, hrow⟩ := h
    exact addHealth_stored htime hhealth hrow
  | deadline atValue => exact absurd h id
  | finish atValue recordable => exact absurd h id

/-- The accumulator before its constructor adds the baseline. -/
def origin (limits : Limits) (identity : String) (streamingUs : Int) (maxSamples : Nat)
    (baseline : PyValue) : Accumulator :=
  fresh limits identity streamingUs maxSamples
    ((integer (baseline.get "throttled_bits") 0xFFFFFFFF).map UInt32.ofInt)

theorem create_ok {limits : Limits} {identity : String} {streamingUs : Int} {maxSamples : Nat}
    {baseline : PyValue} {start : Accumulator}
    (h : create limits identity streamingUs maxSamples baseline = .ok start) :
    start = (origin limits identity streamingUs maxSamples baseline).call (.health baseline) := by
  unfold create at h
  split at h
  · split at h
    · exact (Except.ok.inj h).symm
    · cases h
  · cases h
  · cases h

end Repeats

/-- However long ago a sample was accepted, delivering it again changes nothing, now or later. -/
theorem repeated_delivery_harmless {limits : Limits} {identity : String} {streamingUs : Int}
    {maxSamples : Nat} {baseline : PyValue} {start : Accumulator}
    (hstart : create limits identity streamingUs maxSamples baseline = .ok start)
    {calls before after : List MeasurementCall} {c : MeasurementCall}
    (hsplit : .health baseline :: calls = before ++ c :: after)
    (haccepted : ((origin limits identity streamingUs maxSamples baseline).run before).Accepts c)
    (hopen : (start.run calls).finalSeen = false) :
    (start.run calls).call c = start.run calls ∧
      ∀ later, start.run (calls ++ c :: later) = start.run (calls ++ later) ∧
        ∀ atValue recordable, (start.run (calls ++ c :: later)).finish atValue recordable =
          (start.run (calls ++ later)).finish atValue recordable := by
  have hrun : start.run calls =
      (origin limits identity streamingUs maxSamples baseline).run (before ++ c :: after) := by
    rw [← hsplit, create_ok hstart]
    rfl
  have hafter : start.run calls =
      (((origin limits identity streamingUs maxSamples baseline).run before).call c).run after := by
    rw [hrun, run_append]
    rfl
  have hgrows := grows_run (origin limits identity streamingUs maxSamples baseline) (before ++ c :: after)
  have hsame : (start.run calls).call c = start.run calls := by
    apply call_stored _ _ hopen
    · rw [hafter]
      exact (grows_run _ after).stored haccepted.stored
    · rw [hrun]
      exact hgrows.nativeAscending List.Pairwise.nil
    · rw [hrun]
      exact hgrows.healthAscending List.Pairwise.nil
  have hlater : ∀ later, start.run (calls ++ c :: later) = start.run (calls ++ later) := by
    intro later
    rw [run_append, run_append]
    change ((start.run calls).call c).run later = _
    rw [hsame]
  refine ⟨hsame, ?_⟩
  intro later
  refine ⟨hlater later, ?_⟩
  intro atValue recordable
  rw [hlater later]

def sampleLimits : Limits := ⟨10, 0, 0, 80, fun atUs => atUs + 10⟩

def sampleHealth (atUs : Int) : PyValue :=
  .dict [("monotonic_us", .int atUs), ("temperature_c", .int 40), ("cpu_percent", .int 10),
    ("throttled_bits", .int 0)]

def sampleNative (atUs : Int) : PyValue :=
  .dict [("metrics_version", .int 1), ("event", .str "pipeline-telemetry"), ("final", .bool false),
    ("monotonic_us", .int atUs), ("raw_frames_pushed", .int atUs)]

/-- The first native sample comes again behind two other samples. -/
theorem repeated_delivery_harmless_native : ∃ start,
    create sampleLimits "a" 10 100 (sampleHealth 10) = .ok start ∧
      (start.run [.native (.str "a") (sampleNative 12), .health (sampleHealth 13),
          .native (.str "a") (sampleNative 14)]).call (.native (.str "a") (sampleNative 12)) =
        start.run [.native (.str "a") (sampleNative 12), .health (sampleHealth 13),
          .native (.str "a") (sampleNative 14)] := by
  have hstart : create sampleLimits "a" 10 100 (sampleHealth 10) =
      .ok ((origin sampleLimits "a" 10 100 (sampleHealth 10)).call (.health (sampleHealth 10))) := rfl
  have hsplit : [.health (sampleHealth 10), .native (.str "a") (sampleNative 12),
      .health (sampleHealth 13), .native (.str "a") (sampleNative 14)] =
        [.health (sampleHealth 10)] ++ MeasurementCall.native (.str "a") (sampleNative 12) ::
          [.health (sampleHealth 13), .native (.str "a") (sampleNative 14)] := rfl
  have haccepted : (((origin sampleLimits "a" 10 100 (sampleHealth 10)).run
      [.health (sampleHealth 10)]).addNative (.str "a") (sampleNative 12)).2 = .ok true := by
    decide +kernel
  exact ⟨_, hstart, (repeated_delivery_harmless hstart hsplit haccepted (by decide +kernel)).1⟩

end Accumulator

end HccastWired.Calibration
