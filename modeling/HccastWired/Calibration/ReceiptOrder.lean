import HccastWired.Calibration.Measurement
import HccastWired.Telemetry.EmitOrder

/-!
# A genuine receipt and the time of its sample

The consumer compares the times of a cohort with the time of the sample that
reports it, and holds one inversion against the whole stream. In a punctual run
of the producer there is none.
-/

namespace HccastWired.Calibration

open Foundation Telemetry Accumulator

/-- The verdicts on a cohort that compare its times with the time of its sample. -/
def timeVerdicts (a : Accumulator) (row : NativeRow) (c : Cohort) (firstUs : Int) : List Bool :=
  [streamingMismatch a row c, startInvalid a row c firstUs, endInvalid row c, closeInvalid row c]

section Verdicts

variable {a : Accumulator} {row : NativeRow} {c : Cohort} {firstUs lateUs : Int}

theorem decide_le_late {t : Int} (ht : t ≤ row.monotonicUs) (hlate : row.monotonicUs ≤ lateUs) :
    decide (t ≤ lateUs) = decide (t ≤ row.monotonicUs) := by
  rw [decide_eq_true ht, decide_eq_true (ht.trans hlate)]

theorem endPlaced_late {ended : Int} (ht : ended ≤ row.monotonicUs)
    (hlate : row.monotonicUs ≤ lateUs) :
    endPlaced { row with monotonicUs := lateUs } c ended = endPlaced row c ended := by
  unfold endPlaced
  split
  · rfl
  · rw [decide_le_late ht hlate]

/-- When no time of the cohort is after its sample, the verdicts do not depend on
the time of the sample. -/
theorem timeVerdicts_late (h : ∀ b t, c.time b = some t → t ≤ row.monotonicUs)
    (hlate : row.monotonicUs ≤ lateUs) :
    timeVerdicts a { row with monotonicUs := lateUs } c firstUs =
      timeVerdicts a row c firstUs := by
  have hstreaming : streamingMismatch a { row with monotonicUs := lateUs } c =
      streamingMismatch a row c := by
    unfold streamingMismatch
    cases hc : c.streamingUs with
    | none => rfl
    | some streaming =>
        simp only [Option.any_some]
        rw [decide_le_late (h .streaming streaming hc) hlate]
  have hstart : startInvalid a { row with monotonicUs := lateUs } c firstUs =
      startInvalid a row c firstUs := by
    unfold startInvalid
    cases hc : c.startedUs with
    | none => rfl
    | some start =>
        cases c.streamingUs with
        | none => rfl
        | some streaming =>
            dsimp only
            rw [decide_le_late (h .started start hc) hlate]
  have hend : endInvalid { row with monotonicUs := lateUs } c = endInvalid row c := by
    unfold endInvalid
    cases hc : c.endedUs with
    | none => rfl
    | some ended =>
        simp only [Option.any_some]
        rw [endPlaced_late (h .ended ended hc) hlate]
  have hclose : closeInvalid { row with monotonicUs := lateUs } c = closeInvalid row c := by
    unfold closeInvalid
    cases hc : c.closedUs with
    | none => rfl
    | some closed =>
        simp only [Option.any_some]
        rw [decide_le_late (h .closed closed hc) hlate]
  simp only [timeVerdicts, hstreaming, hstart, hend, hclose]

theorem boundaryTimes_eq (c : Cohort) : boundaryTimes c = BoundaryTime.all.map c.time := rfl

/-- A boundary that is not before the sample that lacked it is not backdated. -/
theorem backdated_eq_false {previous : Cohort} {latestUs : Int}
    (h : ∀ b t, previous.time b = none → c.time b = some t → latestUs ≤ t) :
    backdated c previous latestUs = false := by
  unfold backdated
  rw [boundaryTimes_eq, boundaryTimes_eq, List.zip_map', List.any_map, List.any_eq_false]
  intro b _ hbackdated
  simp only [Function.comp_apply, Bool.and_eq_true, Option.isNone_iff_eq_none,
    Option.any_eq_true, decide_eq_true_eq] at hbackdated
  obtain ⟨hnone, t, ht, hlt⟩ := hbackdated
  exact absurd (h b t hnone ht) (not_le.mpr hlt)

end Verdicts

/-- What the reader keeps of a receipt has its times. -/
theorem sanitized_time (c : Cohort) (b : BoundaryTime) : (sanitized c).time b = c.time b := by
  cases b <;> rfl

/-- In a punctual run no sample reports a time after its own, no boundary lies
before a sample that lacked it, and no verdict of the consumer goes against the
stream for the order of its times. -/
theorem receipt_times_in_order {warmupMs durationMs : Int} {s : EmitState}
    (h : emitSystem.Reaches (fun s action => Punctual s action = true)
      (EmitState.start warmupMs durationMs) s) :
    (∀ p ∈ s.samples, ∀ b t, p.cohort.time b = some t → t ≤ Metrics.printed p.monotonicUs) ∧
    (s.samples.Pairwise fun p q => ∀ b t, p.cohort.time b = none → q.cohort.time b = some t →
      Metrics.printed p.monotonicUs ≤ t) ∧
    (∀ p ∈ s.samples, ∀ (a : Accumulator) (row : NativeRow) (firstUs lateUs : Int),
      row.monotonicUs = Metrics.printed p.monotonicUs → row.monotonicUs ≤ lateUs →
        timeVerdicts a { row with monotonicUs := lateUs } (sanitized p.cohort) firstUs =
          timeVerdicts a row (sanitized p.cohort) firstUs) ∧
    (s.samples.Pairwise fun p q =>
      backdated (sanitized q.cohort) (sanitized p.cohort) (Metrics.printed p.monotonicUs) =
        false) := by
  have hordered := EmitState.reaches_ordered h
  have hbounded := EmitState.reaches_bounded h
  refine ⟨hbounded.printed, hordered.pairs, ?_, ?_⟩
  · intro p hp a row firstUs lateUs hrow hlate
    apply timeVerdicts_late
    · intro b t ht
      rw [sanitized_time] at ht
      rw [hrow]
      exact hbounded.printed p hp b t ht
    · exact hlate
  · apply hordered.pairs.imp
    intro p q hpair
    apply backdated_eq_false
    intro b t hnone ht
    rw [sanitized_time] at hnone ht
    exact hpair b t hnone ht

/-- The end of the warm-up before the second sample reads the clock. -/
theorem receipt_times_in_order_punctual :
    ∃ s, emitSystem.exec (EmitState.start 5000 30000)
        [.probe 1 .streaming, .read 2, .emit 0, .probe 5000001 (.rawBegin true), .read 5000002,
          .emit 0] = some s ∧
      ∀ p ∈ s.samples, ∀ b t, p.cohort.time b = some t → t ≤ Metrics.printed p.monotonicUs := by
  have hexec : ((emitSystem.guard Punctual).exec (EmitState.start 5000 30000)
      [.probe 1 .streaming, .read 2, .emit 0, .probe 5000001 (.rawBegin true), .read 5000002,
        .emit 0]).isSome = true := by
    rfl
  obtain ⟨s, hs⟩ := Option.isSome_iff_exists.mp hexec
  exact ⟨s, hs, (receipt_times_in_order (System.reaches_of_guard hs)).1⟩

/-- A consumer of the stream, which has seen its first cohort. -/
def consumer : Accumulator :=
  { fresh ⟨2000000, 5000000, 30000000, 75, fun atUs => atUs + 2000000⟩ "a" 1 100 none with
    cohortSeen := true
    cohortFirstUs := some 2 }

/-- The row of a sample that has nothing but a cohort. -/
def cohortRow (p : Sample) : NativeRow :=
  { native (.dict []) (Metrics.printed p.monotonicUs) with cohort := some (sanitized p.cohort) }

/-- The warm-up ends between the reading of an emit and its lock: the sample
reports a start after its own time, and the consumer holds that against it. -/
theorem receipt_times_reversed :
    ∃ s, emitSystem.Reaches System.Any (EmitState.start 5000 30000) s ∧
      ∃ p ∈ s.samples, ∃ t, p.cohort.time .started = some t ∧
        Metrics.printed p.monotonicUs < t ∧
        startInvalid consumer (cohortRow p) (sanitized p.cohort) 2 = true ∧
        startInvalid consumer { cohortRow p with monotonicUs := t } (sanitized p.cohort) 2 =
          false ∧
        (consumer.acceptCohort (cohortRow p)).1.cohortBad = true := by
  have hrun : (emitSystem.exec (EmitState.start 5000 30000)
      [.probe 1 .streaming, .read 5000001, .probe 5000002 (.rawBegin true), .emit 0]).any
        (fun s => s.samples.any fun p => (p.cohort.time .started).any fun t =>
          decide (Metrics.printed p.monotonicUs < t ∧
            startInvalid consumer (cohortRow p) (sanitized p.cohort) 2 = true ∧
            startInvalid consumer { cohortRow p with monotonicUs := t } (sanitized p.cohort) 2 =
              false ∧
            (consumer.acceptCohort (cohortRow p)).1.cohortBad = true)) = true := by
    decide +kernel
  simp only [Option.any_eq_true, List.any_eq_true] at hrun
  obtain ⟨s, hs, p, hp, t, ht, hverdicts⟩ := hrun
  exact ⟨s, System.reaches_of_exec hs, p, hp, t, ht, of_decide_eq_true hverdicts⟩

end HccastWired.Calibration
