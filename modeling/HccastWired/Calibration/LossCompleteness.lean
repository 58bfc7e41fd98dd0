import HccastWired.Calibration.Measurement
import HccastWired.Foundation.Grouping

/-!
# Loss evidence cannot be repaired

A violation of the native stream latches the fault of the cohort evidence, and
nothing clears the latch. Without a fault the cohorts form a chain in which each
one extends the one before.
-/

namespace HccastWired.Calibration

open Foundation Telemetry Accumulator

/-- The later cohort keeps what the earlier one had fixed and counts no less. -/
structure Precedes (d c : Cohort) : Prop where
  warmup : c.requestedWarmupUs = d.requestedWarmupUs
  duration : c.requestedDurationUs = d.requestedDurationUs
  streaming : ∀ t, d.streamingUs = some t → c.streamingUs = some t
  epoch : ∀ t, d.epoch = some t → c.epoch = some t
  started : ∀ t, d.startedUs = some t → c.startedUs = some t
  ended : ∀ t, d.endedUs = some t → c.endedUs = some t
  closed : ∀ t, d.closedUs = some t → c.closedUs = some t
  first : ∀ n, d.sourceSeqFirst = some n → c.sourceSeqFirst = some n
  last : ∀ n, d.sourceSeqEndExclusive = some n → c.sourceSeqEndExclusive = some n
  accepted : d.acceptedSourceFrames ≤ c.acceptedSourceFrames
  rejected : d.rejectedSourceFrames ≤ c.rejectedSourceFrames
  emitted : d.emittedWireFrames ≤ c.emittedWireFrames
  rateDropped : d.rateSourceFramesDropped ≤ c.rateSourceFramesDropped
  duplicated : d.rateFramesDuplicated ≤ c.rateFramesDuplicated
  dropped : ∀ b, d.boundaryFramesDropped b ≤ c.boundaryFramesDropped b
  entered : d.timing.entered ≤ c.timing.entered
  exited : d.timing.exited ≤ c.timing.exited
  matched : d.timing.matched ≤ c.timing.matched
  invalid : d.timing.invalid ≤ c.timing.invalid
  unmatched : d.timing.unmatched ≤ c.timing.unmatched
  evicted : d.timing.trackingEvicted ≤ c.timing.trackingEvicted
  breaks : d.timing.discontinuities ≤ c.timing.discontinuities
  maxUs : ∀ t, d.timing.maxUs = some t → ∃ u, c.timing.maxUs = some u ∧ t ≤ u

theorem Precedes.refl (c : Cohort) : Precedes c c := by
  constructor <;> intros <;> first | rfl | assumption | exact ⟨_, by assumption, le_rfl⟩

theorem Precedes.trans {b c d : Cohort} (h : Precedes b c) (h' : Precedes c d) : Precedes b d where
  warmup := h'.warmup.trans h.warmup
  duration := h'.duration.trans h.duration
  streaming := fun t ht => h'.streaming t (h.streaming t ht)
  epoch := fun t ht => h'.epoch t (h.epoch t ht)
  started := fun t ht => h'.started t (h.started t ht)
  ended := fun t ht => h'.ended t (h.ended t ht)
  closed := fun t ht => h'.closed t (h.closed t ht)
  first := fun n hn => h'.first n (h.first n hn)
  last := fun n hn => h'.last n (h.last n hn)
  accepted := h.accepted.trans h'.accepted
  rejected := h.rejected.trans h'.rejected
  emitted := h.emitted.trans h'.emitted
  rateDropped := h.rateDropped.trans h'.rateDropped
  duplicated := h.duplicated.trans h'.duplicated
  dropped := fun b => (h.dropped b).trans (h'.dropped b)
  entered := h.entered.trans h'.entered
  exited := h.exited.trans h'.exited
  matched := h.matched.trans h'.matched
  invalid := h.invalid.trans h'.invalid
  unmatched := h.unmatched.trans h'.unmatched
  evicted := h.evicted.trans h'.evicted
  breaks := h.breaks.trans h'.breaks
  maxUs := by
    intro t ht
    obtain ⟨u, hu, hle⟩ := h.maxUs t ht
    obtain ⟨v, hv, hle'⟩ := h'.maxUs u hu
    exact ⟨v, hv, hle.trans hle'⟩

/-! ## The checks of the history -/

/-- A field that is fixed once it is known. -/
theorem fixed_of_unchanged {old new : Option Int} (h : old.isSome = false ∨ new = old) :
    ∀ t, old = some t → new = some t := by
  rintro t rfl
  rcases h with h | h
  · cases h
  · exact h

/-- A cohort that passes the comparison with its predecessor extends it. -/
theorem precedes_of_checks {previous c : Cohort} {latestUs : Int} (hprevious : Consistent previous)
    (hc : Consistent c) (h : ∀ check ∈ historyChecks c previous latestUs, check.1 = false) :
    Precedes previous c := by
  simp only [historyChecks, List.forall_mem_cons, List.not_mem_nil, false_imp_iff,
    implies_true, and_true] at h
  obtain ⟨-, hidentity, -, hcount, hdrop, htiming, -⟩ := h
  simp only [identityChanged, fixedFields, List.zip_cons_cons, List.zip_nil_right, List.any_cons,
    List.any_nil, Bool.or_false, Bool.or_eq_false_iff, Bool.and_eq_false_iff,
    decide_eq_false_iff_not, not_not] at hidentity
  simp only [countReset, cohortCounts, List.zip_cons_cons, List.zip_nil_right, List.any_cons,
    List.any_nil, Bool.or_false, Bool.or_eq_false_iff, decide_eq_false_iff_not, not_lt] at hcount
  simp only [dropReset, List.any_eq_false, decide_eq_true_eq, not_lt] at hdrop
  simp only [timingReset, timingCounts, List.zip_cons_cons, List.zip_nil_right, List.any_cons,
    List.any_nil, Bool.or_false, Bool.or_eq_false_iff, decide_eq_false_iff_not, not_lt] at htiming
  obtain ⟨hwarmup, hduration, hstreaming, hepoch, hstarted, hended, hclosed, hfirst, hlast⟩ :=
    hidentity
  obtain ⟨haccepted, hrejected, hemitted, hrate, hduplicated⟩ := hcount
  obtain ⟨hentered, hexited, hmatched, hinvalid, hunmatched, hevicted, hbreaks, hmax⟩ := htiming
  constructor
  · exact Option.some.inj (fixed_of_unchanged hwarmup _ rfl)
  · exact Option.some.inj (fixed_of_unchanged hduration _ rfl)
  · exact fixed_of_unchanged hstreaming
  · exact fixed_of_unchanged hepoch
  · exact fixed_of_unchanged hstarted
  · exact fixed_of_unchanged hended
  · exact fixed_of_unchanged hclosed
  · exact fixed_of_unchanged hfirst
  · exact fixed_of_unchanged hlast
  · exact haccepted
  · exact hrejected
  · exact hemitted
  · exact hrate
  · exact hduplicated
  · exact fun b => hdrop b (Boundary.mem_all b)
  · exact hentered
  · exact hexited
  · exact hmatched
  · exact hinvalid
  · exact hunmatched
  · exact hevicted
  · exact hbreaks
  · intro t ht
    -- the later table has matched at least as many pairs, so it has a maximum
    have hsome : c.timing.matched ≠ 0 := by
      have hold := hprevious.maxUs.mp (by rw [ht]; rfl)
      have hnonneg := hprevious.matched
      omega
    obtain ⟨u, hu⟩ := Option.isSome_iff_exists.mp (hc.maxUs.mpr hsome)
    rw [ht, hu] at hmax
    exact ⟨u, hu, not_lt.mp (of_decide_eq_false hmax)⟩

/-! ## The fault is latched -/

/-- What a call that takes no cohort leaves alone. -/
structure Leaves (a b : Accumulator) : Prop where
  limits : b.limits = a.limits
  streamId : b.streamId = a.streamId
  streamingUs : b.streamingUs = a.streamingUs
  nativeRows : b.nativeRows = a.nativeRows
  latest : b.cohortLatest = a.cohortLatest
  latestUs : b.cohortLatestUs = a.cohortLatestUs
  firstUs : b.cohortFirstUs = a.cohortFirstUs
  seen : b.cohortSeen = a.cohortSeen
  bad : a.cohortBad = true → b.cohortBad = true
  finished : a.finished = true → b.finished = true

theorem Leaves.refl (a : Accumulator) : Leaves a a :=
  ⟨rfl, rfl, rfl, rfl, rfl, rfl, rfl, rfl, id, id⟩

theorem Leaves.trans {a b c : Accumulator} (h : Leaves a b) (h' : Leaves b c) : Leaves a c where
  limits := h'.limits.trans h.limits
  streamId := h'.streamId.trans h.streamId
  streamingUs := h'.streamingUs.trans h.streamingUs
  nativeRows := h'.nativeRows.trans h.nativeRows
  latest := h'.latest.trans h.latest
  latestUs := h'.latestUs.trans h.latestUs
  firstUs := h'.firstUs.trans h.firstUs
  seen := h'.seen.trans h.seen
  bad := fun hbad => h'.bad (h.bad hbad)
  finished := fun hfinished => h'.finished (h.finished hfinished)

section Steps

variable {a : Accumulator} {reason kind : String} {atUs : Int}

theorem leaves_stop (a : Accumulator) (reason : String) (atUs : Int) :
    Leaves a (a.stop reason atUs) :=
  ⟨rfl, rfl, rfl, rfl, rfl, rfl, rfl, rfl, fun h => by simp [stop, h], id⟩

theorem stop_bad (a : Accumulator) (atUs : Int) (h : faults reason = true) :
    (a.stop reason atUs).cohortBad = true := by
  simp [stop, h]

theorem leaves_stopAll (reasons : List (Bool × String)) (atUs : Int) :
    Leaves a (a.stopAll reasons atUs) := by
  induction reasons generalizing a with
  | nil => exact Leaves.refl a
  | cons check rest ih =>
      unfold stopAll
      rw [List.foldl_cons]
      cases hcheck : check.1 with
      | true => exact (leaves_stop _ _ _).trans ih
      | false => exact ih

/-- A stop that is a fault and was taken. -/
theorem stopAll_bad (a : Accumulator) (atUs : Int) {reasons : List (Bool × String)}
    (hmem : (true, reason) ∈ reasons) (h : faults reason = true) : (a.stopAll reasons atUs).cohortBad = true := by
  induction reasons generalizing a with
  | nil => cases hmem
  | cons check rest ih =>
      rcases List.mem_cons.mp hmem with rfl | hmem
      · exact (leaves_stopAll rest atUs).bad (stop_bad a atUs h)
      · cases hcheck : check.1 with
        | true =>
            have hstep : a.stopAll (check :: rest) atUs =
                (a.stop check.2 atUs).stopAll rest atUs := by
              simp [stopAll, hcheck]
            rw [hstep]
            exact ih _ hmem
        | false =>
            have hstep : a.stopAll (check :: rest) atUs = a.stopAll rest atUs := by
              simp [stopAll, hcheck]
            rw [hstep]
            exact ih _ hmem

theorem leaves_reject : Leaves a (a.reject reason atUs) :=
  ⟨rfl, rfl, rfl, rfl, rfl, rfl, rfl, rfl, fun _ => rfl, id⟩

theorem leaves_rejectAll (reasons : List (Bool × String)) (atUs : Int) :
    Leaves a (a.rejectAll reasons atUs) := by
  induction reasons generalizing a with
  | nil => exact Leaves.refl a
  | cons check rest ih =>
      unfold rejectAll
      rw [List.foldl_cons]
      cases hcheck : check.1 with
      | true => exact leaves_reject.trans ih
      | false => exact ih

/-- Without a fault after it, no check of a list rejected. -/
theorem rejectAll_good {reasons : List (Bool × String)}
    (h : (a.rejectAll reasons atUs).cohortBad = false) :
    a.cohortBad = false ∧ ∀ check ∈ reasons, check.1 = false := by
  induction reasons generalizing a with
  | nil => exact ⟨h, by simp⟩
  | cons check rest ih =>
      cases hcheck : check.1 with
      | true =>
          have hstep : a.rejectAll (check :: rest) atUs =
              (a.reject check.2 atUs).rejectAll rest atUs := by
            simp [rejectAll, hcheck]
          rw [hstep] at h
          have hbad := (ih h).1
          cases hbad
      | false =>
          have hstep : a.rejectAll (check :: rest) atUs = a.rejectAll rest atUs := by
            simp [rejectAll, hcheck]
          rw [hstep] at h
          obtain ⟨hgood, hrest⟩ := ih h
          refine ⟨hgood, ?_⟩
          intro x hx
          rcases List.mem_cons.mp hx with rfl | hx
          · exact hcheck
          · exact hrest x hx

theorem leaves_remember (a : Accumulator) (duplicate : Option Bool) (last : Option Int)
    (kind : String) (atUs : Int) : Leaves a (a.remember duplicate last kind atUs).1 := by
  unfold remember
  split
  · exact Leaves.refl a
  · exact leaves_stop _ _ _
  split
  · exact leaves_stop _ _ _
  split
  · exact leaves_stop _ _ _
  dsimp only
  have hgap : ∀ late : Bool, Leaves a (if late then a.stop (kind ++ "_gap") atUs else a) := by
    intro late
    cases late with
    | true => exact leaves_stop _ _ _
    | false => exact Leaves.refl a
  split
  · exact (hgap _).trans (leaves_stop _ _ _)
  · exact hgap _

theorem leaves_rememberHealth (row : HealthRow) : Leaves a (a.rememberHealth row).1 := by
  unfold rememberHealth
  have h := leaves_remember a
    ((a.healthRows.find? fun old => decide (old.monotonicUs = row.monotonicUs)).map
      fun old => decide (old = row)) (a.healthRows.getLast?.map HealthRow.monotonicUs)
    "health" row.monotonicUs
  dsimp only
  split
  · exact ⟨h.limits, h.streamId, h.streamingUs, h.nativeRows, h.latest, h.latestUs, h.firstUs,
      h.seen, h.bad, h.finished⟩
  · exact h

theorem leaves_addHealth (sample : PyValue) : Leaves a (a.addHealth sample).1 := by
  unfold addHealth
  split
  · exact Leaves.refl a
  cases sample with
  | dict fields =>
      dsimp only
      split
      · exact Leaves.refl a
      next atUs _ =>
        have h := leaves_rememberHealth (a := a) (health a.limits (.dict fields) atUs)
        split
        · have h' := h.trans
            (leaves_stopAll (a.healthStops (health a.limits (.dict fields) atUs)) atUs)
          exact ⟨h'.limits, h'.streamId, h'.streamingUs, h'.nativeRows, h'.latest, h'.latestUs,
            h'.firstUs, h'.seen, h'.bad, h'.finished⟩
        · exact h
  | _ => exact Leaves.refl a

theorem leaves_checkRows (a : Accumulator) (kind : String) (last : Option Int) (atUs : Int) :
    Leaves a (a.checkRows kind last atUs).1 := by
  unfold checkRows
  dsimp only
  split
  · exact Leaves.refl a
  split
  · exact leaves_stop _ _ _
  · exact Leaves.refl a

theorem leaves_checkDeadline (value : PyValue) : Leaves a (a.checkDeadline value).1 := by
  unfold checkDeadline
  split
  · exact Leaves.refl a
  split
  · exact Leaves.refl a
  next atUs _ =>
    split
    · exact Leaves.refl a
    split
    · exact Leaves.refl a
    have hlate : Leaves a (a.overdue atUs) := by
      unfold overdue
      split
      · exact leaves_stop _ _ _
      · exact Leaves.refl a
    have hhealth := hlate.trans (leaves_checkRows (a.overdue atUs) "health"
      (a.healthRows.getLast?.map HealthRow.monotonicUs) atUs)
    dsimp only
    split
    · exact hhealth
    have hnative := hhealth.trans (leaves_checkRows
      ((a.overdue atUs).checkRows "health" (a.healthRows.getLast?.map HealthRow.monotonicUs)
        atUs).1 "native" (a.lastNative.map NativeRow.monotonicUs) atUs)
    split
    · exact hnative
    · exact ⟨hnative.limits, hnative.streamId, hnative.streamingUs, hnative.nativeRows,
        hnative.latest, hnative.latestUs, hnative.firstUs, hnative.seen, hnative.bad,
        hnative.finished⟩

theorem leaves_finish (value : PyValue) (recordable : Bool) :
    Leaves a (a.finish value recordable).1 := by
  have h := leaves_checkDeadline (a := a) value
  unfold finish
  cases hcheck : a.checkDeadline value with
  | mk checked answer =>
      rw [hcheck] at h
      cases answer with
      | error e => exact h
      | ok stopped =>
          cases recordable with
          | true => exact ⟨h.limits, h.streamId, h.streamingUs, h.nativeRows, h.latest, h.latestUs,
              h.firstUs, h.seen, h.bad, fun _ => rfl⟩
          | false => exact h

end Steps

/-! ## One native sample -/

section Native

variable {a : Accumulator} {row : NativeRow}

/-- What a row that was remembered without a fault looked like. -/
structure Remembered (a : Accumulator) (row : NativeRow) (kept : Bool) : Prop where
  duplicate : a.nativeDuplicate row = some true → kept = false
  conflict : a.nativeDuplicate row ≠ some false
  ordered : a.nativeDuplicate row = none → ∀ last, a.lastNative = some last →
    last.monotonicUs ≤ row.monotonicUs ∧
      ((row.monotonicUs - last.monotonicUs : Int) : Rat) ≤ a.limits.healthGapUs
  room : a.nativeDuplicate row = none →
    a.nativeRows.length + a.healthRows.length < a.maxSamples
  inTime : a.nativeDuplicate row = none → row.monotonicUs - a.streamingUs ≤ maxRunUs →
    kept = true

/-- The rows are extended by a row that is kept; the rest is as a stop leaves it. -/
theorem rememberNative_leaves (a : Accumulator) (row : NativeRow) : ∃ b, Leaves a b ∧
    (a.rememberNative row).1 = { b with
      nativeRows := if (a.rememberNative row).2 then a.nativeRows ++ [row] else a.nativeRows } := by
  have h := leaves_remember a (a.nativeDuplicate row) (a.lastNative.map NativeRow.monotonicUs)
    "native" row.monotonicUs
  unfold rememberNative
  dsimp only
  split
  · exact ⟨_, h, rfl⟩
  · refine ⟨_, h, ?_⟩
    simp only [Bool.false_eq_true, ↓reduceIte, ← h.nativeRows]

/-- The fault that a row leaves when it is not remembered. -/
theorem remember_good {duplicate : Option Bool} {last : Option Int} {atUs : Int}
    (h : (a.remember duplicate last "native" atUs).1.cohortBad = false) :
    duplicate ≠ some false ∧
      (duplicate = some true → (a.remember duplicate last "native" atUs).2 = false) ∧
      (duplicate = none →
        (∀ t, last = some t → t ≤ atUs ∧ ((atUs - t : Int) : Rat) ≤ a.limits.healthGapUs) ∧
        a.nativeRows.length + a.healthRows.length < a.maxSamples ∧
        (atUs - a.streamingUs ≤ maxRunUs → (a.remember duplicate last "native" atUs).2 = true)) := by
  have hfaults : ∀ reason, reason ∈ ["native_conflicting_duplicate", "native_backwards",
      "sample_limit", "native_gap"] → faults reason = true := by
    decide
  unfold remember at h ⊢
  match duplicate with
  | some true => exact ⟨by decide, fun _ => rfl, by simp⟩
  | some false =>
      have hbad := stop_bad a atUs
        (hfaults ("native" ++ "_conflicting_duplicate") (by decide))
      rw [hbad] at h
      cases h
  | none =>
      refine ⟨by simp, by simp, fun _ => ?_⟩
      dsimp only at h ⊢
      split at h
      · have hbad := stop_bad a atUs
          (hfaults ("native" ++ "_backwards") (by decide))
        rw [hbad] at h
        cases h
      next hordered =>
      split at h
      · have hbad := stop_bad a atUs (hfaults "sample_limit" (by decide))
        rw [hbad] at h
        cases h
      next hroom =>
      have hgap : ¬ (last.any fun t =>
          decide (a.limits.healthGapUs < ((atUs - t : Int) : Rat))) = true := by
        intro hgap
        simp only [hgap, ↓reduceIte] at h
        have hbad := stop_bad a atUs (hfaults ("native" ++ "_gap") (by decide))
        split at h
        · have hstill := (leaves_stop (a.stop ("native" ++ "_gap") atUs) "run_deadline" atUs).bad hbad
          rw [hstill] at h
          cases h
        · rw [hbad] at h
          cases h
      refine ⟨?_, by omega, ?_⟩
      · rintro t rfl
        simp only [Option.any_some, decide_eq_true_eq, not_lt] at hordered hgap
        exact ⟨hordered, hgap⟩
      · intro hin
        rw [if_neg hordered, if_neg hroom, if_neg (not_lt.mpr hin)]

theorem rememberNative_good (h : (a.rememberNative row).1.cohortBad = false) :
    Remembered a row (a.rememberNative row).2 := by
  have hsecond : (a.rememberNative row).2 = (a.remember (a.nativeDuplicate row)
      (a.lastNative.map NativeRow.monotonicUs) "native" row.monotonicUs).2 := by
    unfold rememberNative
    dsimp only
    split
    next hkept => exact hkept.symm
    next hkept => simpa using hkept
  have hgood : (a.remember (a.nativeDuplicate row) (a.lastNative.map NativeRow.monotonicUs)
      "native" row.monotonicUs).1.cohortBad = false := by
    unfold rememberNative at h
    dsimp only at h
    split at h
    · exact h
    · exact h
  obtain ⟨hconflict, hduplicate, hnew⟩ := remember_good hgood
  rw [hsecond]
  refine ⟨hduplicate, hconflict, ?_, ?_, ?_⟩
  · intro hnone last hlast
    exact (hnew hnone).1 last.monotonicUs (by rw [hlast]; rfl)
  · exact fun hnone => (hnew hnone).2.1
  · exact fun hnone => (hnew hnone).2.2

/-- What the checks of a cohort depend on. -/
structure SameEvidence (a b : Accumulator) : Prop where
  limits : b.limits = a.limits
  streamingUs : b.streamingUs = a.streamingUs
  latest : b.cohortLatest = a.cohortLatest
  latestUs : b.cohortLatestUs = a.cohortLatestUs
  firstUs : b.cohortFirstUs = a.cohortFirstUs
  seen : b.cohortSeen = a.cohortSeen

theorem cohortChecks_congr {b : Accumulator} {c : Cohort} (h : SameEvidence a b) :
    cohortChecks b row c = cohortChecks a row c := by
  simp only [cohortChecks, openingChecks, timeBounds, streamingMismatch, startInvalid, h.limits,
    h.streamingUs, h.latest, h.latestUs, h.firstUs]

/-- A row that left no fault passed every check of its cohort. -/
structure Accepted (a : Accumulator) (row : NativeRow) (b : Accumulator) : Prop where
  error : row.cohortError = none
  missing : row.cohort = none → a.cohortSeen = false
  ordered : ∀ c, row.cohort = some c → unorderable row c = false
  checks : ∀ c, row.cohort = some c → ∀ check ∈ cohortChecks a row c, check.1 = false
  latest : b.cohortLatest = row.cohort.or a.cohortLatest

theorem Accepted.congr {a' b : Accumulator} (hsame : SameEvidence a a')
    (h : Accepted a' row b) : Accepted a row b := by
  refine ⟨h.error, ?_, h.ordered, ?_, ?_⟩
  · intro hnone
    rw [← hsame.seen]
    exact h.missing hnone
  · intro c hc
    rw [← cohortChecks_congr hsame]
    exact h.checks c hc
  · rw [← hsame.latest]
    exact h.latest

theorem acceptCohort_good (h : (a.acceptCohort row).1.cohortBad = false) :
    a.cohortBad = false ∧ Accepted a row (a.acceptCohort row).1 := by
  unfold acceptCohort at h ⊢
  dsimp only at h ⊢
  cases herror : row.cohortError with
  | some reason =>
      rw [herror] at h
      cases h
  | none =>
      rw [herror] at h
      cases hcohort : row.cohort with
      | none =>
          rw [hcohort] at h
          dsimp only at h ⊢
          cases hseen : a.cohortSeen with
          | true =>
              rw [hseen] at h
              cases h
          | false =>
              rw [hseen] at h
              refine ⟨h, herror, fun _ => hseen, ?_, ?_, ?_⟩
              · intro c hc
                rw [hcohort] at hc
                cases hc
              · intro c hc
                rw [hcohort] at hc
                cases hc
              · rw [hcohort]
                rfl
      | some c =>
          rw [hcohort] at h
          dsimp only at h ⊢
          split at h
          next hraised =>
            -- the half-given end was rejected before the comparison raised
            obtain ⟨-, hchecks⟩ := rejectAll_good h
            have hhalf : endHalf c = false :=
              hchecks (endHalf c, "cohort_window_invalid") (by simp [openingChecks])
            simp only [unorderable, Bool.and_eq_true, Option.isNone_iff_eq_none] at hraised
            cases hended : c.endedUs with
            | none =>
                rw [hended] at hraised
                cases hraised.1
            | some ended =>
                simp [endHalf, hended, hraised.2] at hhalf
          next hordered =>
            rw [if_neg hordered]
            obtain ⟨hgood, hchecks⟩ := rejectAll_good h
            refine ⟨hgood, herror, ?_, ?_, ?_, ?_⟩
            · intro hnone
              rw [hcohort] at hnone
              cases hnone
            · intro d hd
              rw [hcohort] at hd
              cases hd
              exact Bool.eq_false_iff.mpr hordered
            · intro d hd
              rw [hcohort] at hd
              cases hd
              exact hchecks
            · rw [hcohort]
              rfl

theorem acceptCohort_nativeRows : (a.acceptCohort row).1.nativeRows = a.nativeRows := by
  unfold acceptCohort
  dsimp only
  split
  · rfl
  · split
    · rfl
    · rfl
  · split
    · exact (leaves_rejectAll _ _).nativeRows
    · exact (leaves_rejectAll _ _).nativeRows

/-- What became of a row that left no fault. -/
structure Taken (a : Accumulator) (row : NativeRow) (b : Accumulator) : Prop where
  good : a.cohortBad = false
  remembered : Remembered a row (a.rememberNative row).2
  accepted : (a.rememberNative row).2 = true →
    Accepted a row b ∧ b.nativeRows = a.nativeRows ++ [row]
  skipped : (a.rememberNative row).2 = false →
    b.nativeRows = a.nativeRows ∧ b.cohortLatest = a.cohortLatest

/-- A good end has a good beginning. -/
theorem Leaves.good {b : Accumulator} (h : Leaves a b) (hgood : b.cohortBad = false) :
    a.cohortBad = false := by
  cases hbad : a.cohortBad with
  | false => rfl
  | true =>
      rw [h.bad hbad] at hgood
      cases hgood

theorem rowStops_faults (a : Accumulator) (row : NativeRow) :
    ∀ check ∈ a.rowStops row, faults check.2 = true := by
  intro check hcheck
  unfold rowStops at hcheck
  have hall : ∀ reason ∈ ["native_counter_reset", "timing_counter_reset", "native_gap",
      "native_probe_lost"], faults reason = true := by
    decide
  apply hall
  rcases List.mem_append.mp hcheck with hcheck | hcheck
  · split at hcheck
    · simp only [List.mem_cons, List.not_mem_nil, or_false] at hcheck
      rcases hcheck with rfl | rfl <;> simp
    · rw [List.mem_singleton] at hcheck
      rw [hcheck]
      simp
  · rw [List.mem_singleton] at hcheck
    rw [hcheck]
    simp

/-- A row that is kept, stopped for and looked at without a fault. -/
theorem taken_of_kept {b : Accumulator} (hkept : (a.rememberNative row).2 = true)
    (hrows : b.nativeRows = a.nativeRows ++ [row]) (hsame : SameEvidence a b)
    (hleaves : b.cohortBad = false → (a.rememberNative row).1.cohortBad = false)
    (h : (b.acceptCohort row).1.cohortBad = false) : Taken a row (b.acceptCohort row).1 := by
  obtain ⟨hgood, haccepted⟩ := acceptCohort_good h
  have hremembered := hleaves hgood
  obtain ⟨b₀, hb₀, heq⟩ := rememberNative_leaves a row
  refine ⟨hb₀.good ?_, rememberNative_good hremembered, fun _ => ⟨haccepted.congr hsame, ?_⟩, ?_⟩
  · rw [heq] at hremembered
    exact hremembered
  · rw [acceptCohort_nativeRows]
    exact hrows
  · intro hskipped
    rw [hkept] at hskipped
    cases hskipped

theorem taken_of_skipped (hskipped : (a.rememberNative row).2 = false)
    (h : (a.rememberNative row).1.cohortBad = false) : Taken a row (a.rememberNative row).1 := by
  obtain ⟨b₀, hb₀, heq⟩ := rememberNative_leaves a row
  refine ⟨hb₀.good ?_, rememberNative_good h, ?_, fun _ => ?_⟩
  · rw [heq] at h
    exact h
  · intro hkept
    rw [hkept] at hskipped
    cases hskipped
  · rw [heq, hskipped]
    exact ⟨rfl, hb₀.latest⟩

theorem takeRow_good (h : (a.takeRow row).1.cohortBad = false) :
    Taken a row (a.takeRow row).1 ∧
      ((a.rememberNative row).2 = true → ∀ check ∈ a.rowStops row, check.1 = false) := by
  unfold takeRow at h ⊢
  dsimp only at h ⊢
  split at h
  next hkept =>
    rw [if_pos hkept]
    obtain ⟨b₀, hb₀, heq⟩ := rememberNative_leaves a row
    have hstopped := leaves_stopAll (a := (a.rememberNative row).1) (a.rowStops row)
      row.monotonicUs
    have hsame : SameEvidence a (stopAll (a.rememberNative row).1 (a.rowStops row)
        row.monotonicUs) := by
      refine ⟨hstopped.limits.trans ?_, hstopped.streamingUs.trans ?_, hstopped.latest.trans ?_,
        hstopped.latestUs.trans ?_, hstopped.firstUs.trans ?_, hstopped.seen.trans ?_⟩
      · rw [heq]; exact hb₀.limits
      · rw [heq]; exact hb₀.streamingUs
      · rw [heq]; exact hb₀.latest
      · rw [heq]; exact hb₀.latestUs
      · rw [heq]; exact hb₀.firstUs
      · rw [heq]; exact hb₀.seen
    have hrows : (stopAll (a.rememberNative row).1 (a.rowStops row) row.monotonicUs).nativeRows =
        a.nativeRows ++ [row] := by
      rw [hstopped.nativeRows, heq, hkept]
      rfl
    have htaken := taken_of_kept
      (b := { stopAll (a.rememberNative row).1 (a.rowStops row) row.monotonicUs with
        startUs := a.startAt row })
      hkept hrows ⟨hsame.limits, hsame.streamingUs, hsame.latest, hsame.latestUs, hsame.firstUs,
        hsame.seen⟩ (fun hgood => hstopped.good hgood) h
    refine ⟨htaken, ?_⟩
    intro _ check hcheck
    cases hfired : check.1 with
    | false => rfl
    | true =>
        have hmem : (true, check.2) ∈ a.rowStops row := by
          rw [← hfired]
          exact hcheck
        have hbad := stopAll_bad (a.rememberNative row).1 row.monotonicUs hmem
          (rowStops_faults a row check hcheck)
        have hgood := (acceptCohort_good h).1
        rw [show cohortBad _ = _ from hbad] at hgood
        cases hgood
  next hskipped =>
    rw [if_neg hskipped]
    have hfalse := Bool.eq_false_iff.mpr hskipped
    refine ⟨taken_of_skipped hfalse h, ?_⟩
    intro hkept
    exact absurd hkept hskipped

end Native

/-- A row of the running stream is looked at, a final one only for its cohort. -/
def considered (a : Accumulator) (row : NativeRow) : Bool :=
  !row.final || a.cohortSeen || row.cohort.isSome || row.cohortError.isSome

section Native

variable {a : Accumulator} {row : NativeRow}

/-- The final mark does not change what is remembered. -/
theorem rememberNative_final :
    ({ a with finalSeen := true }.rememberNative row).2 = (a.rememberNative row).2 := by
  have hremember : ∀ duplicate last,
      ({ a with finalSeen := true }.remember duplicate last "native" row.monotonicUs).2 =
        (a.remember duplicate last "native" row.monotonicUs).2 := by
    intro duplicate last
    unfold remember
    match duplicate with
    | some true => rfl
    | some false => rfl
    | none =>
        dsimp only
        split
        · rfl
        split
        · rfl
        split <;> rfl
  have hsecond : ∀ a : Accumulator, (a.rememberNative row).2 =
      (a.remember (a.nativeDuplicate row) (a.lastNative.map NativeRow.monotonicUs) "native"
        row.monotonicUs).2 := by
    intro a
    unfold rememberNative
    dsimp only
    split
    next hkept => exact hkept.symm
    next hkept => simpa using hkept
  rw [hsecond, hsecond]
  exact hremember _ _

theorem Taken.of_final {b : Accumulator} (h : Taken { a with finalSeen := true } row b) :
    Taken a row b := by
  have hremembered := h.remembered
  have haccepted := h.accepted
  have hskipped := h.skipped
  rw [rememberNative_final] at hremembered haccepted hskipped
  refine ⟨h.good, ?_, ?_, hskipped⟩
  · exact ⟨hremembered.duplicate, hremembered.conflict, hremembered.ordered, hremembered.room,
      hremembered.inTime⟩
  · intro hkept
    obtain ⟨hcohort, hrows⟩ := haccepted hkept
    have hsame : SameEvidence a { a with finalSeen := true } := ⟨rfl, rfl, rfl, rfl, rfl, rfl⟩
    exact ⟨Accepted.congr hsame hcohort, hrows⟩

theorem takeFinal_good (hconsidered : considered a row = true) (hfinal : row.final = true)
    (h : (a.takeFinal row).1.cohortBad = false) : Taken a row (a.takeFinal row).1 := by
  have hlooked : (a.cohortSeen || row.cohort.isSome || row.cohortError.isSome) = true := by
    simpa [considered, hfinal] using hconsidered
  unfold takeFinal at h ⊢
  dsimp only at h ⊢
  rw [if_pos hlooked] at h ⊢
  apply Taken.of_final
  split at h
  next hkept =>
    rw [if_pos hkept]
    obtain ⟨b₀, hb₀, heq⟩ := rememberNative_leaves { a with finalSeen := true } row
    apply taken_of_kept hkept
    · rw [heq, hkept]
      rfl
    · rw [heq]
      exact ⟨hb₀.limits, hb₀.streamingUs, hb₀.latest, hb₀.latestUs, hb₀.firstUs, hb₀.seen⟩
    · exact id
    · exact h
  next hskipped =>
    rw [if_neg hskipped]
    exact taken_of_skipped (Bool.eq_false_iff.mpr hskipped) h

/-- A final row without a cohort only ends the stream. -/
theorem takeFinal_ignored (hconsidered : considered a row = false) :
    a.takeFinal row = ({ a with finalSeen := true }, .ok false) := by
  have hlooked : (a.cohortSeen || row.cohort.isSome || row.cohortError.isSome) = false := by
    simp only [considered, Bool.or_eq_false_iff] at hconsidered ⊢
    exact ⟨⟨hconsidered.1.1.2, hconsidered.1.2⟩, hconsidered.2⟩
  unfold takeFinal
  dsimp only
  rw [hlooked]
  rfl

end Native

/-- The sample has a valid time. -/
def Timestamped (sample : PyValue) (atUs : Int) : Prop :=
  (∃ fields, sample = .dict fields) ∧ time (sample.get "monotonic_us") = some atUs

/-- The ways in which the accumulator rejects a native sample for its shape, its
version, its stream, its order, a gap, a conflicting duplicate, a reset, the
bound on the samples or its cohort. -/
inductive Violation (a : Accumulator) (streamId sample : PyValue) (atUs : Int) : Prop
  | stream (h : streamId ≠ .str a.streamId)
  | shape (h : wellFormed sample = false)
  | early (h : atUs < a.streamingUs)
  | afterTeardown (h : a.finalSeen = true) (hrunning : valueIsTrue (sample.get "final") = false)
  | conflict (hlooked : considered a (native sample atUs) = true)
      (h : a.nativeDuplicate (native sample atUs) = some false)
  | backwards (hlooked : considered a (native sample atUs) = true)
      (hnew : a.nativeDuplicate (native sample atUs) = none) (last : NativeRow)
      (hlast : a.lastNative = some last) (h : atUs < last.monotonicUs)
  | full (hlooked : considered a (native sample atUs) = true)
      (hnew : a.nativeDuplicate (native sample atUs) = none)
      (h : a.maxSamples ≤ a.nativeRows.length + a.healthRows.length)
  | gap (hlooked : considered a (native sample atUs) = true)
      (hnew : a.nativeDuplicate (native sample atUs) = none) (last : NativeRow)
      (hlast : a.lastNative = some last)
      (h : a.limits.healthGapUs < ((atUs - last.monotonicUs : Int) : Rat))
  | reset (hrunning : (native sample atUs).final = false)
      (hkept : (a.rememberNative (native sample atUs)).2 = true) (reason : String)
      (h : (true, reason) ∈ a.rowStops (native sample atUs))
  | cohortShape (hlooked : considered a (native sample atUs) = true)
      (hkept : (a.rememberNative (native sample atUs)).2 = true) (reason : String)
      (h : (native sample atUs).cohortError = some reason)
  | cohortMissing (hlooked : considered a (native sample atUs) = true)
      (hkept : (a.rememberNative (native sample atUs)).2 = true)
      (hnone : (native sample atUs).cohort = none) (h : a.cohortSeen = true)
  | cohortUnorderable (hlooked : considered a (native sample atUs) = true)
      (hkept : (a.rememberNative (native sample atUs)).2 = true) (c : Cohort)
      (hcohort : (native sample atUs).cohort = some c)
      (h : unorderable (native sample atUs) c = true)
  | cohortCheck (hlooked : considered a (native sample atUs) = true)
      (hkept : (a.rememberNative (native sample atUs)).2 = true) (c : Cohort)
      (hcohort : (native sample atUs).cohort = some c) (reason : String)
      (h : (true, reason) ∈ cohortChecks a (native sample atUs) c)

/-- A sample that left no fault was of the stream, well formed and in order. -/
structure Admitted (a : Accumulator) (streamId sample : PyValue) (atUs : Int)
    (b : Accumulator) : Prop where
  stream : streamId = .str a.streamId
  shape : wellFormed sample = true
  ordered : a.streamingUs ≤ atUs
  teardown : a.finalSeen = true → valueIsTrue (sample.get "final") = true
  taken : considered a (native sample atUs) = true → Taken a (native sample atUs) b
  ignored : considered a (native sample atUs) = false →
    a.cohortBad = false ∧ b.nativeRows = a.nativeRows ∧ b.cohortLatest = a.cohortLatest
  stops : (native sample atUs).final = false →
    (a.rememberNative (native sample atUs)).2 = true →
    ∀ check ∈ a.rowStops (native sample atUs), check.1 = false

section Sample

variable {a : Accumulator} {streamId sample : PyValue} {atUs : Int}

theorem takeNative_good (h : (a.takeNative streamId sample atUs).1.cohortBad = false) :
    Admitted a streamId sample atUs (a.takeNative streamId sample atUs).1 := by
  have hfaults : ∀ reason, reason ∈ ["native_version_or_shape", "native_before_streaming"] →
      faults reason = true := by
    decide
  unfold takeNative at h ⊢
  split at h
  · cases h
  next hstream =>
  split at h
  · rw [stop_bad a atUs (hfaults _ (by decide))] at h
    cases h
  next hshape =>
  split at h
  · rw [stop_bad a atUs (hfaults _ (by decide))] at h
    cases h
  next hordered =>
  split at h
  · cases h
  next hteardown =>
  rw [if_neg hstream, if_neg hshape, if_neg hordered, if_neg hteardown]
  dsimp only at h ⊢
  have hteardown' : a.finalSeen = true → valueIsTrue (sample.get "final") = true := by
    intro hseen
    simpa [hseen] using hteardown
  cases hfinal : (native sample atUs).final with
  | true =>
      simp only [hfinal, ↓reduceIte] at h ⊢
      refine ⟨not_not.mp hstream, by simpa using hshape, not_lt.mp hordered, hteardown', ?_, ?_,
        ?_⟩
      · exact fun hlooked => takeFinal_good hlooked hfinal h
      · intro hignored
        rw [takeFinal_ignored hignored] at h ⊢
        exact ⟨h, rfl, rfl⟩
      · intro hrunning
        rw [hfinal] at hrunning
        cases hrunning
  | false =>
      simp only [hfinal, Bool.false_eq_true, ↓reduceIte] at h ⊢
      obtain ⟨htaken, hstops⟩ := takeRow_good h
      refine ⟨not_not.mp hstream, by simpa using hshape, not_lt.mp hordered, hteardown', ?_, ?_,
        ?_⟩
      · exact fun _ => htaken
      · intro hignored
        simp [considered, hfinal] at hignored
      · exact fun _ => hstops

/-- No violation leaves the cohort evidence without a fault. -/
theorem Admitted.no_violation {b : Accumulator} (h : Admitted a streamId sample atUs b) :
    ¬ Violation a streamId sample atUs := by
  intro hviolation
  cases hviolation with
  | stream hother => exact hother h.stream
  | shape hshape =>
      rw [h.shape] at hshape
      cases hshape
  | early hearly => exact absurd h.ordered (not_le.mpr hearly)
  | afterTeardown hseen hrunning =>
      rw [h.teardown hseen] at hrunning
      cases hrunning
  | conflict hlooked hconflict => exact (h.taken hlooked).remembered.conflict hconflict
  | backwards hlooked hnew last hlast hbackwards =>
      have hordered := ((h.taken hlooked).remembered.ordered hnew last hlast).1
      exact absurd hordered (not_le.mpr hbackwards)
  | full hlooked hnew hfull =>
      have hroom := (h.taken hlooked).remembered.room hnew
      omega
  | gap hlooked hnew last hlast hgap =>
      have hordered := ((h.taken hlooked).remembered.ordered hnew last hlast).2
      exact absurd hordered (not_le.mpr hgap)
  | reset hrunning hkept reason hreset =>
      have hfalse := h.stops hrunning hkept _ hreset
      cases hfalse
  | cohortShape hlooked hkept reason herror =>
      rw [((h.taken hlooked).accepted hkept).1.error] at herror
      cases herror
  | cohortMissing hlooked hkept hnone hseen =>
      rw [((h.taken hlooked).accepted hkept).1.missing hnone] at hseen
      cases hseen
  | cohortUnorderable hlooked hkept c hcohort hraised =>
      rw [((h.taken hlooked).accepted hkept).1.ordered c hcohort] at hraised
      cases hraised
  | cohortCheck hlooked hkept c hcohort reason hcheck =>
      have hfalse := ((h.taken hlooked).accepted hkept).1.checks c hcohort _ hcheck
      cases hfalse

end Sample

/-! ## Whole runs -/

/-- What no call takes back. -/
structure Later (a b : Accumulator) : Prop where
  limits : b.limits = a.limits
  streamId : b.streamId = a.streamId
  streamingUs : b.streamingUs = a.streamingUs
  rows : a.nativeRows <+: b.nativeRows
  bad : a.cohortBad = true → b.cohortBad = true
  finished : a.finished = true → b.finished = true

theorem Later.refl (a : Accumulator) : Later a a :=
  ⟨rfl, rfl, rfl, List.prefix_rfl, id, id⟩

theorem Later.trans {a b c : Accumulator} (h : Later a b) (h' : Later b c) : Later a c where
  limits := h'.limits.trans h.limits
  streamId := h'.streamId.trans h.streamId
  streamingUs := h'.streamingUs.trans h.streamingUs
  rows := h.rows.trans h'.rows
  bad := fun hbad => h'.bad (h.bad hbad)
  finished := fun hfinished => h'.finished (h.finished hfinished)

theorem Leaves.later {a b : Accumulator} (h : Leaves a b) : Later a b where
  limits := h.limits
  streamId := h.streamId
  streamingUs := h.streamingUs
  rows := by rw [h.nativeRows]
  bad := h.bad
  finished := h.finished

/-- A good end has a good beginning. -/
theorem Later.good {a b : Accumulator} (h : Later a b) (hgood : b.cohortBad = false) :
    a.cohortBad = false := by
  cases hbad : a.cohortBad with
  | false => rfl
  | true =>
      rw [h.bad hbad] at hgood
      cases hgood

theorem Later.unfinished {a b : Accumulator} (h : Later a b) (hopen : b.finished = false) :
    a.finished = false := by
  cases hfinished : a.finished with
  | false => rfl
  | true =>
      rw [h.finished hfinished] at hopen
      cases hopen

section Calls

variable {a : Accumulator} {row : NativeRow}

theorem later_acceptCohort (a : Accumulator) (row : NativeRow) :
    Later a (a.acceptCohort row).1 := by
  unfold acceptCohort
  dsimp only
  split
  · exact ⟨rfl, rfl, rfl, List.prefix_rfl, fun _ => rfl, id⟩
  · split
    · exact leaves_reject.later
    · exact Later.refl a
  · split
    · have h := leaves_rejectAll
        (a := { a with
          cohortSeen := true
          cohortFirstUs := some (a.cohortFirstUs.getD row.monotonicUs) })
        (openingChecks a row ‹_› (a.cohortFirstUs.getD row.monotonicUs)) row.monotonicUs
      exact ⟨h.limits, h.streamId, h.streamingUs, h.later.rows, h.bad, h.finished⟩
    · have h := leaves_rejectAll
        (a := { a with
          cohortSeen := true
          cohortFirstUs := some (a.cohortFirstUs.getD row.monotonicUs) })
        (cohortChecks a row ‹_›) row.monotonicUs
      exact ⟨h.limits, h.streamId, h.streamingUs, h.later.rows, h.bad, h.finished⟩

theorem later_rememberNative (a : Accumulator) (row : NativeRow) :
    Later a (a.rememberNative row).1 := by
  obtain ⟨b, hb, heq⟩ := rememberNative_leaves a row
  rw [heq]
  refine ⟨hb.limits, hb.streamId, hb.streamingUs, ?_, hb.bad, hb.finished⟩
  dsimp only
  split
  · exact List.prefix_append _ _
  · exact List.prefix_rfl

theorem later_takeFinal (a : Accumulator) (row : NativeRow) : Later a (a.takeFinal row).1 := by
  have hended : Later a { a with finalSeen := true } :=
    ⟨rfl, rfl, rfl, List.prefix_rfl, id, id⟩
  have hremembered := hended.trans (later_rememberNative { a with finalSeen := true } row)
  unfold takeFinal
  dsimp only
  split
  · split
    · exact hremembered.trans (later_acceptCohort _ row)
    · exact hremembered
  · exact hended

theorem later_takeRow (a : Accumulator) (row : NativeRow) : Later a (a.takeRow row).1 := by
  have hremembered := later_rememberNative a row
  unfold takeRow
  dsimp only
  split
  · have hstopped := hremembered.trans
      (leaves_stopAll (a := (a.rememberNative row).1) (a.rowStops row) row.monotonicUs).later
    have hstarted : Later a { stopAll (a.rememberNative row).1 (a.rowStops row) row.monotonicUs with
        startUs := a.startAt row } :=
      ⟨hstopped.limits, hstopped.streamId, hstopped.streamingUs, hstopped.rows, hstopped.bad,
        hstopped.finished⟩
    exact hstarted.trans (later_acceptCohort _ row)
  · exact hremembered

theorem later_takeNative (a : Accumulator) (streamId sample : PyValue) (atUs : Int) :
    Later a (a.takeNative streamId sample atUs).1 := by
  unfold takeNative
  split
  · exact ⟨rfl, rfl, rfl, List.prefix_rfl, fun _ => rfl, id⟩
  split
  · exact (leaves_stop a _ atUs).later
  split
  · exact (leaves_stop a _ atUs).later
  split
  · exact ⟨rfl, rfl, rfl, List.prefix_rfl, fun _ => rfl, id⟩
  dsimp only
  split
  · exact later_takeFinal a _
  · exact later_takeRow a _

/-- An open measurement refuses what has no time, and takes every other sample. -/
theorem addNative_open (streamId sample : PyValue) (hopen : a.finished = false) :
    (∃ text, a.addNative streamId sample = (a, .error (.valueError text))) ∨
      ∃ atUs, Timestamped sample atUs ∧
        a.addNative streamId sample = a.takeNative streamId sample atUs := by
  simp only [addNative, hopen, Bool.false_eq_true, ↓reduceIte]
  cases sample with
  | dict fields =>
      dsimp only
      split
      · exact .inl ⟨_, rfl⟩
      next atUs htime => exact .inr ⟨atUs, ⟨⟨fields, rfl⟩, htime⟩, rfl⟩
  | _ => exact .inl ⟨_, rfl⟩

/-- A native call either leaves everything alone or takes a sample with a time. -/
theorem addNative_cases (a : Accumulator) (streamId sample : PyValue) :
    (∃ e, a.addNative streamId sample = (a, .error e)) ∨
      ∃ atUs, Timestamped sample atUs ∧
        a.addNative streamId sample = a.takeNative streamId sample atUs := by
  cases hfinished : a.finished with
  | true =>
      left
      simp only [addNative, hfinished, ↓reduceIte]
      exact ⟨_, rfl⟩
  | false =>
      rcases addNative_open streamId sample hfinished with ⟨text, h⟩ | h
      · exact .inl ⟨_, h⟩
      · exact .inr h

theorem addNative_timestamped {streamId sample : PyValue} {atUs : Int}
    (hopen : a.finished = false) (h : Timestamped sample atUs) :
    a.addNative streamId sample = a.takeNative streamId sample atUs := by
  obtain ⟨⟨fields, rfl⟩, htime⟩ := h
  simp only [addNative, hopen, Bool.false_eq_true, ↓reduceIte, htime]

/-- Whatever is called, and whether or not it raises, nothing is taken back. -/
theorem later_call (a : Accumulator) (c : MeasurementCall) : Later a (a.call c) := by
  cases c with
  | native streamId sample =>
      rcases addNative_cases a streamId sample with ⟨e, h⟩ | ⟨atUs, -, h⟩
      · simp only [call, h]
        exact Later.refl a
      · simp only [call, h]
        exact later_takeNative a streamId sample atUs
  | health sample => exact (leaves_addHealth sample).later
  | deadline atValue => exact (leaves_checkDeadline atValue).later
  | finish atValue recordable => exact (leaves_finish atValue recordable).later

theorem later_run (a : Accumulator) (calls : List MeasurementCall) : Later a (a.run calls) := by
  induction calls generalizing a with
  | nil => exact Later.refl a
  | cons c rest ih => exact (later_call a c).trans (ih (a.call c))

theorem run_append (a : Accumulator) (before after : List MeasurementCall) :
    a.run (before ++ after) = (a.run before).run after :=
  List.foldl_append

end Calls

/-! ## The chain of the cohorts -/

/-- While there is no fault, the latest cohort extends the cohort of every row. -/
structure History (a : Accumulator) : Prop where
  precedes : ∀ row ∈ a.nativeRows, ∀ d, row.cohort = some d →
    ∃ c, a.cohortLatest = some c ∧ Precedes d c
  consistent : ∀ c, a.cohortLatest = some c → Consistent c

theorem native_consistent {sample : PyValue} {atUs : Int} {c : Cohort}
    (h : (native sample atUs).cohort = some c) : Consistent c := by
  have hread : cohortOf sample = .ok (some c) := by
    simp only [native] at h
    cases hcohort : cohortOf sample with
    | error reason =>
        rw [hcohort] at h
        cases h
    | ok cohort =>
        rw [hcohort] at h
        exact congrArg Except.ok h
  unfold cohortOf at hread
  split at hread
  · cases hread
  split at hread
  · cases hread
  split at hread
  · split at hread
    · cases hread
    · cases hread
  · split at hread
    next cohort hcohort => exact checkCohort_consistent (readCohort_matched hcohort) hread
    · cases hread
  · cases hread

section Chain

variable {a b : Accumulator} {row : NativeRow}

theorem Leaves.history (h : Leaves a b) (hhistory : History a) : History b := by
  constructor
  · intro row hrow d hd
    rw [h.nativeRows] at hrow
    rw [h.latest]
    exact hhistory.precedes row hrow d hd
  · intro c hc
    rw [h.latest] at hc
    exact hhistory.consistent c hc

/-- A cohort that passed every check extends the latest one. -/
theorem Accepted.extends (h : Accepted a row b) {previous c : Cohort}
    (hprevious : a.cohortLatest = some previous) (hc : row.cohort = some c)
    (hold : Consistent previous) (hnew : Consistent c) : Precedes previous c := by
  apply precedes_of_checks hold hnew
  intro check hcheck
  apply h.checks c hc
  simp only [cohortChecks, hprevious, Option.elim_some, List.mem_append]
  exact .inl (.inr hcheck)

/-- A row whose cohort was accepted, or that had none, continues the chain. -/
theorem Accepted.history (h : Accepted a row b) (hrows : b.nativeRows = a.nativeRows ++ [row])
    (hrow : ∀ c, row.cohort = some c → Consistent c) (hhistory : History a) : History b := by
  cases hcohort : row.cohort with
  | none =>
      have hlatest : b.cohortLatest = a.cohortLatest := by
        rw [h.latest, hcohort]
        rfl
      constructor
      · intro x hx d hd
        rw [hrows] at hx
        rw [hlatest]
        rcases List.mem_append.mp hx with hx | hx
        · exact hhistory.precedes x hx d hd
        · rw [List.mem_singleton.mp hx, hcohort] at hd
          cases hd
      · intro c hc
        rw [hlatest] at hc
        exact hhistory.consistent c hc
  | some c =>
      have hlatest : b.cohortLatest = some c := by
        rw [h.latest, hcohort]
        rfl
      constructor
      · intro x hx d hd
        rw [hrows] at hx
        refine ⟨c, hlatest, ?_⟩
        rcases List.mem_append.mp hx with hx | hx
        · obtain ⟨previous, hprevious, hprecedes⟩ := hhistory.precedes x hx d hd
          exact hprecedes.trans (h.extends hprevious hcohort
            (hhistory.consistent previous hprevious) (hrow c hcohort))
        · rw [List.mem_singleton.mp hx, hcohort] at hd
          cases hd
          exact Precedes.refl c
      · intro d hd
        rw [hlatest] at hd
        cases hd
        exact hrow c hcohort

theorem history_of_same (hrows : b.nativeRows = a.nativeRows)
    (hlatest : b.cohortLatest = a.cohortLatest) (hhistory : History a) : History b := by
  constructor
  · rw [hrows, hlatest]
    exact hhistory.precedes
  · rw [hlatest]
    exact hhistory.consistent

/-- A sample that left no fault continues the chain. -/
theorem Admitted.history {streamId sample : PyValue} {atUs : Int}
    (h : Admitted a streamId sample atUs b) (hhistory : History a) : History b := by
  cases hlooked : considered a (native sample atUs) with
  | true =>
      have htaken := h.taken hlooked
      cases hkept : (a.rememberNative (native sample atUs)).2 with
      | true =>
          obtain ⟨haccepted, hrows⟩ := htaken.accepted hkept
          exact haccepted.history hrows (fun _ => native_consistent) hhistory
      | false =>
          obtain ⟨hrows, hlatest⟩ := htaken.skipped hkept
          exact history_of_same hrows hlatest hhistory
  | false =>
      obtain ⟨-, hrows, hlatest⟩ := h.ignored hlooked
      exact history_of_same hrows hlatest hhistory

/-- Each call continues the chain or leaves a fault. -/
theorem call_history (c : MeasurementCall) (hhistory : a.cohortBad = false → History a)
    (hgood : (a.call c).cohortBad = false) : History (a.call c) := by
  have hbefore := hhistory ((later_call a c).good hgood)
  cases c with
  | native streamId sample =>
      rcases addNative_cases a streamId sample with ⟨e, h⟩ | ⟨atUs, -, h⟩
      · simp only [call, h]
        exact hbefore
      · simp only [call, h] at hgood ⊢
        exact (takeNative_good hgood).history hbefore
  | health sample => exact (leaves_addHealth sample).history hbefore
  | deadline atValue => exact (leaves_checkDeadline atValue).history hbefore
  | finish atValue recordable => exact (leaves_finish atValue recordable).history hbefore

theorem run_history (calls : List MeasurementCall) (hhistory : a.cohortBad = false → History a)
    (hgood : (a.run calls).cohortBad = false) : History (a.run calls) := by
  induction calls generalizing a with
  | nil => exact hhistory hgood
  | cons c rest ih => exact ih (call_history c hhistory) hgood

/-- A latest cohort stays the predecessor of every later one. -/
theorem call_precedes (c : MeasurementCall) (hhistory : History a)
    (hgood : (a.call c).cohortBad = false) {d : Cohort} (hd : a.cohortLatest = some d) :
    ∃ e, (a.call c).cohortLatest = some e ∧ Precedes d e := by
  cases c with
  | native streamId sample =>
      rcases addNative_cases a streamId sample with ⟨e, h⟩ | ⟨atUs, -, h⟩
      · simp only [call, h]
        exact ⟨d, hd, Precedes.refl d⟩
      · simp only [call, h] at hgood ⊢
        have hadmitted := takeNative_good hgood
        cases hlooked : considered a (native sample atUs) with
        | false =>
            rw [(hadmitted.ignored hlooked).2.2]
            exact ⟨d, hd, Precedes.refl d⟩
        | true =>
            have htaken := hadmitted.taken hlooked
            cases hkept : (a.rememberNative (native sample atUs)).2 with
            | false =>
                rw [(htaken.skipped hkept).2]
                exact ⟨d, hd, Precedes.refl d⟩
            | true =>
                obtain ⟨haccepted, -⟩ := htaken.accepted hkept
                cases hcohort : (native sample atUs).cohort with
                | none =>
                    refine ⟨d, ?_, Precedes.refl d⟩
                    rw [haccepted.latest, hcohort]
                    exact hd
                | some e =>
                    refine ⟨e, ?_, haccepted.extends hd hcohort (hhistory.consistent d hd)
                      (native_consistent hcohort)⟩
                    rw [haccepted.latest, hcohort]
                    rfl
  | health sample =>
      have hlatest := (leaves_addHealth (a := a) sample).latest
      exact ⟨d, hlatest.trans hd, Precedes.refl d⟩
  | deadline atValue =>
      have hlatest := (leaves_checkDeadline (a := a) atValue).latest
      exact ⟨d, hlatest.trans hd, Precedes.refl d⟩
  | finish atValue recordable =>
      have hlatest := (leaves_finish (a := a) atValue recordable).latest
      exact ⟨d, hlatest.trans hd, Precedes.refl d⟩

theorem run_precedes (calls : List MeasurementCall) (hhistory : History a)
    (hgood : (a.run calls).cohortBad = false) {d : Cohort} (hd : a.cohortLatest = some d) :
    ∃ e, (a.run calls).cohortLatest = some e ∧ Precedes d e := by
  induction calls generalizing a d with
  | nil => exact ⟨d, hd, Precedes.refl d⟩
  | cons c rest ih =>
      have hnext := (later_run (a.call c) rest).good hgood
      obtain ⟨e, he, hprecedes⟩ := call_precedes c hhistory hnext hd
      obtain ⟨f, hf, hprecedes'⟩ := ih (call_history c (fun _ => hhistory) hnext) hgood he
      exact ⟨f, hf, hprecedes.trans hprecedes'⟩

end Chain

/-! ## The finished record -/

section Record

variable {a b : Accumulator} {streamId sample : PyValue} {atUs : Int}

/-- The row of a sample with a cohort is stored, unless it is past the deadline. -/
theorem Admitted.stored (h : Admitted a streamId sample atUs b) {d : Cohort}
    (hd : (native sample atUs).cohort = some d) (hin : atUs - a.streamingUs ≤ maxRunUs) :
    native sample atUs ∈ b.nativeRows := by
  have hlooked : considered a (native sample atUs) = true := by
    simp [considered, hd]
  have htaken := h.taken hlooked
  cases hduplicate : a.nativeDuplicate (native sample atUs) with
  | none =>
      have hkept := htaken.remembered.inTime hduplicate hin
      rw [(htaken.accepted hkept).2]
      exact List.mem_append_right _ (List.mem_singleton.mpr rfl)
  | some same =>
      cases same with
      | false => exact absurd hduplicate htaken.remembered.conflict
      | true =>
          have hskipped := htaken.remembered.duplicate hduplicate
          rw [(htaken.skipped hskipped).1]
          obtain ⟨old, hold, hequal⟩ := Option.map_eq_some_iff.mp hduplicate
          rw [← of_decide_eq_true hequal]
          exact List.mem_of_find?_eq_some hold

/-- What a finished record says of the accumulator that it was made from. -/
theorem finish_complete {atValue : PyValue} {recordable : Bool} {result : Result}
    (hfinish : (a.finish atValue recordable).2 = .ok result)
    (hcomplete : result.pipelineDropCountsComplete = true) :
    a.finished = false ∧ a.cohortBad = false ∧ ∃ c, a.cohortLatest = some c ∧
      c.complete = true ∧ c.closed = true ∧ c.encoderSrcEosSeen = true := by
  have hleaves := leaves_checkDeadline (a := a) atValue
  have hopen : a.finished = false := by
    cases hfinished : a.finished with
    | false => rfl
    | true => simp [finish, checkDeadline, hfinished] at hfinish
  unfold finish at hfinish
  cases hcheck : a.checkDeadline atValue with
  | mk checked answer =>
      rw [hcheck] at hfinish hleaves
      cases answer with
      | error e => cases hfinish
      | ok stopped =>
          cases recordable with
          | false => cases hfinish
          | true =>
              cases hfinish
              simp only [useCohort, Bool.and_eq_true, Bool.not_eq_true', Option.any_eq_true]
                at hcomplete
              obtain ⟨⟨hgood, c, hc, ⟨hdone, hclosed⟩, heos⟩, -⟩ := hcomplete
              have hlatest : a.cohortLatest = some c := hleaves.latest.symm.trans hc
              exact ⟨hopen, hleaves.good hgood, c, hlatest, hdone, hclosed, heos⟩

theorem create_history {limits : Limits} {identity : String} {streamingUs : Int}
    {maxSamples : Nat} {baseline : PyValue}
    (h : create limits identity streamingUs maxSamples baseline = .ok a) :
    History a ∧ a.streamingUs = streamingUs := by
  unfold create at h
  split at h
  · split at h
    · cases h
      refine ⟨(leaves_addHealth _).history ⟨?_, ?_⟩, (leaves_addHealth _).streamingUs⟩
      · intro row hrow
        cases hrow
      · intro c hc
        cases hc
    · cases h
  · cases h
  · cases h

/-- A record that says that the losses are complete has a history without any
violation: each native call raised before it took the sample, or its sample was
no violation. Its cohort is complete, closed and conserved, and extends every
cohort that the stream had before. -/
theorem loss_completeness_irreparable {limits : Limits} {identity : String} {streamingUs : Int}
    {maxSamples : Nat} {baseline : PyValue} {start : Accumulator}
    (hcreate : create limits identity streamingUs maxSamples baseline = .ok start)
    (calls : List MeasurementCall) {atValue : PyValue} {recordable : Bool} {result : Result}
    (hfinish : ((start.run calls).finish atValue recordable).2 = .ok result)
    (hcomplete : result.pipelineDropCountsComplete = true) :
    (∀ before streamId sample after, calls = before ++ .native streamId sample :: after →
      (∃ text, (start.run before).addNative streamId sample =
        (start.run before, .error (.valueError text))) ∨
      ∃ atUs, Timestamped sample atUs ∧ ¬ Violation (start.run before) streamId sample atUs) ∧
    ∃ c, (start.run calls).cohortLatest = some c ∧ c.complete = true ∧ c.closed = true ∧
      c.encoderSrcEosSeen = true ∧ c.CountsAgree ∧
      (∀ before after, calls = before ++ after →
        ∀ d, (start.run before).cohortLatest = some d → Precedes d c) ∧
      (∀ before streamId sample after atUs,
        calls = before ++ .native streamId sample :: after → Timestamped sample atUs →
        ∀ d, (native sample atUs).cohort = some d →
          Precedes d c ∨ maxRunUs < atUs - streamingUs) := by
  obtain ⟨hopen, hgood, c, hc, hdone, hclosed, heos⟩ := finish_complete hfinish hcomplete
  obtain ⟨hstart, hstreaming⟩ := create_history hcreate
  have hlast := run_history calls (fun _ => hstart) hgood
  have hbefore : ∀ before streamId sample after,
      calls = before ++ .native streamId sample :: after →
        (start.run before).finished = false ∧
        ((start.run before).call (.native streamId sample)).cohortBad = false := by
    rintro before streamId sample after rfl
    rw [run_append] at hopen hgood
    have hlater := later_run ((start.run before).call (.native streamId sample)) after
    exact ⟨(later_call _ _).unfinished (hlater.unfinished hopen), hlater.good hgood⟩
  have hadmitted : ∀ before streamId sample after,
      calls = before ++ .native streamId sample :: after → ∀ atUs, Timestamped sample atUs →
        Admitted (start.run before) streamId sample atUs
          ((start.run before).call (.native streamId sample)) := by
    intro before streamId sample after hcalls atUs htime
    obtain ⟨hopen, hnext⟩ := hbefore before streamId sample after hcalls
    simp only [call, addNative_timestamped hopen htime] at hnext ⊢
    exact takeNative_good hnext
  refine ⟨?_, c, hc, hdone, hclosed, heos, (hlast.consistent c hc).counts hdone, ?_, ?_⟩
  · intro before streamId sample after hcalls
    obtain ⟨hopen, -⟩ := hbefore before streamId sample after hcalls
    rcases addNative_open streamId sample hopen with h | ⟨atUs, htime, -⟩
    · exact .inl h
    · exact .inr ⟨atUs, htime,
        (hadmitted before streamId sample after hcalls atUs htime).no_violation⟩
  · rintro before after rfl d hd
    rw [run_append] at hgood hc
    have hbefore := run_history before (fun _ => hstart)
      ((later_run (start.run before) after).good hgood)
    obtain ⟨e, he, hprecedes⟩ := run_precedes after hbefore hgood hd
    rw [hc] at he
    cases he
    exact hprecedes
  · intro before streamId sample after atUs hcalls htime d hd
    by_cases hin : atUs - streamingUs ≤ maxRunUs
    · left
      have hin' : atUs - (start.run before).streamingUs ≤ maxRunUs := by
        rw [(later_run start before).streamingUs, hstreaming]
        exact hin
      have hstored := (hadmitted before streamId sample after hcalls atUs htime).stored hd hin'
      have hkept : native sample atUs ∈ (start.run calls).nativeRows := by
        rw [hcalls, run_append]
        exact (later_run _ after).rows.subset hstored
      obtain ⟨e, he, hprecedes⟩ := hlast.precedes _ hkept d hd
      rw [hc] at he
      cases he
      exact hprecedes
    · exact .inr (not_le.mp hin)

/-- A stream of one final sample, with a cohort of one frame. -/
theorem loss_completeness_irreparable_one_frame :
    let limits : Limits := ⟨10, 0, 0, 80, fun atUs => atUs + 10⟩
    let baseline : PyValue := .dict [("monotonic_us", .int 10), ("temperature_c", .int 40),
      ("cpu_percent", .int 10), ("throttled_bits", .int 0)]
    let timing : PyValue := .dict [("available", .bool true), ("ambiguous", .bool false),
      ("last_us", .int 1), ("max_us", .int 1), ("mean_us", .int 1),
      ("oldest_pending_age_us", .none), ("entered", .int 1), ("exited", .int 1),
      ("matched", .int 1), ("invalid", .int 0), ("unmatched", .int 0),
      ("tracking_evicted", .int 0), ("discontinuities", .int 0)]
    let cohort : PyValue := .dict [("version", .int 1), ("enabled", .bool true),
      ("scope", .str "accepted-source-to-encoder-sink"), ("complete", .bool true),
      ("closed", .bool true), ("requested_warmup_us", .int 1), ("requested_duration_us", .int 1),
      ("invalid_reason", .none), ("source_seq_first", .int 0),
      ("source_seq_end_exclusive", .int 1), ("encoder_src_eos_seen", .bool true),
      ("encoded_frames", .int 1), ("encoder_output_key_unknown", .bool false),
      ("encoder_sink_to_src_us", timing),
      ("boundary_frames_dropped", .dict (Boundary.all.map fun b => (b.name, .int 0))),
      ("pipeline_frames_dropped", .int 0), ("accepted_source_frames", .int 1),
      ("rejected_source_frames", .int 0), ("emitted_wire_frames", .int 1),
      ("rate_source_frames_dropped", .int 0), ("rate_frames_duplicated", .int 0),
      ("streaming_us", .int 10), ("epoch", .int 11), ("started_us", .int 11),
      ("ended_us", .int 12), ("closed_us", .int 13)]
    let sample : PyValue := .dict [("metrics_version", .int 1),
      ("event", .str "pipeline-telemetry"), ("final", .bool true), ("monotonic_us", .int 14),
      ("source_probe_available", .bool true), ("encoder_probes_available", .bool true),
      ("local_frame_accounting", cohort)]
    let start := ((fresh limits "a" 10 100 (some 0)).addHealth baseline).1
    ∃ c, (start.run [.native (.str "a") sample]).cohortLatest = some c ∧ c.CountsAgree := by
  intro limits baseline timing cohort sample start
  have hcreate : create limits "a" 10 100 baseline = .ok start := by
    rfl
  have hdone : ((start.run [.native (.str "a") sample]).finish (.int 15) true).2.toOption.map
      Result.pipelineDropCountsComplete = some true := by
    decide +kernel
  obtain ⟨result, hresult, hcomplete⟩ := Option.map_eq_some_iff.mp hdone
  obtain ⟨-, c, hc, -, -, -, hagree, -⟩ :=
    loss_completeness_irreparable hcreate [.native (.str "a") sample]
      (ok_of_toOption hresult) hcomplete
  exact ⟨c, hc, hagree⟩

end Record

end HccastWired.Calibration
