import HccastWired.Telemetry.LossExactness
import HccastWired.Telemetry.CohortProbes

/-!
# What one call does to a ledger and to the clock of the cohort

The counters that a valid call on a loss ledger moves, and the times of the
window on a clock that does not go backwards.
-/

namespace HccastWired.Telemetry

/-! ## The counters of one ledger -/

section Ledger

variable {l : PbLoss} {key : FrameKey}

/-- An output counts as one emitted frame, of a key that was pending. -/
theorem PbLoss.exit_counts (h : (l.exit key).invalidReason = none) :
    key ∈ l.keys ∧ (l.exit key).keys ⊆ l.keys ∧ (l.exit key).attempts = l.attempts ∧
      (l.exit key).accepted = l.accepted ∧ (l.exit key).rejected = l.rejected ∧
      (l.exit key).emitted = l.emitted + 1 := by
  obtain ⟨-, before, e, after, hat, rfl, -, -, heq⟩ := PbLoss.exit_valid h
  have hkeys : ({ l with lastExit := some e.key }.pass before e after).keys = l.keys :=
    PbLoss.pass_keys (l := { l with lastExit := some e.key }) hat
  rw [heq]
  refine ⟨?_, ?_, rfl, rfl, rfl, rfl⟩
  · rw [PbLoss.keys, hat]
    simp
  · rw [← hkeys]
    exact PbLoss.retire_keys.subset

/-- An input is one more attempt, and one more pending key. -/
theorem PbLoss.enter_counts {awaiting : Bool} (h : (l.enter key awaiting).invalidReason = none) :
    key.valid = true ∧ (l.enter key awaiting).keys = l.keys ++ [key] ∧
      (l.enter key awaiting).attempts = l.attempts + 1 ∧
      (l.enter key awaiting).accepted = (if awaiting then l.accepted else l.accepted + 1) ∧
      (l.enter key awaiting).rejected = l.rejected ∧
      (l.enter key awaiting).emitted = l.emitted := by
  obtain ⟨-, hkey, -, heq⟩ := PbLoss.enter_valid h
  rw [heq]
  refine ⟨hkey, ?_, rfl, rfl, rfl, rfl⟩
  simp [PbLoss.append, PbLoss.keys, PbLoss.attempt]

/-- An accepted push changes no other count. -/
theorem PbLoss.accepted_counts (h : (l.pushResult key true).invalidReason = none) :
    (l.pushResult key true).keys ⊆ l.keys ∧ (l.pushResult key true).attempts = l.attempts ∧
      (l.pushResult key true).rejected = l.rejected ∧
      (l.pushResult key true).emitted = l.emitted := by
  obtain ⟨-, before, e, after, hat, -, -, -, heq⟩ := PbLoss.pushResult_valid h
  rw [heq]
  refine ⟨?_, rfl, rfl, rfl⟩
  rw [← PbLoss.answer_keys (b := true) hat]
  exact PbLoss.retire_keys.subset

theorem PbLoss.close_counts :
    l.close.keys ⊆ l.keys ∧ l.close.attempts = l.attempts ∧ l.close.accepted = l.accepted ∧
      l.close.rejected = l.rejected ∧ l.close.emitted = l.emitted := by
  refine ⟨?_, rfl, rfl, rfl, rfl⟩
  have hkeys : PbLoss.keys { l with closed := true, pending := l.pending.map LossEntry.skip } =
      l.keys := PbLoss.map_skip_keys l.pending
  rw [← hkeys]
  exact PbLoss.retire_keys.subset

end Ledger

/-! ## The clock of the cohort -/

/-- The window opens after the warm-up, and not in the future. -/
structure CohortClock.Timely (c : CohortClock) (nowUs : UInt64) : Prop where
  warmup : 0 < c.warmupUs
  duration : 0 < c.durationUs
  streamed : ∀ streaming, c.streamingUs = some streaming → streaming ≤ nowUs
  started : ∀ started, c.startedUs = some started → started ≤ nowUs ∧ c.warm started = true
  ended : c.endedUs.isSome = true → c.startedUs.isSome = true

namespace CohortClock

variable {c : CohortClock} {nowUs laterUs : UInt64}

theorem warm_iff : c.warm nowUs = true ↔
    ∃ streaming, c.streamingUs = some streaming ∧
      streaming.toNat + c.warmupUs.toNat ≤ nowUs.toNat := by
  unfold warm
  cases hstreaming : c.streamingUs with
  | none => simp
  | some streaming =>
      simp only [Bool.not_eq_true', Bool.or_eq_false_iff, decide_eq_false_iff_not,
        UInt64.not_lt, Option.some.injEq, exists_eq_left']
      constructor
      · rintro ⟨hle, hwarm⟩
        rw [UInt64.le_iff_toNat_le] at hwarm
        rw [UInt64.toNat_sub_of_le _ _ hle] at hwarm
        rw [UInt64.le_iff_toNat_le] at hle
        omega
      · intro hsum
        have hle : streaming ≤ nowUs := UInt64.le_iff_toNat_le.mpr (by omega)
        refine ⟨hle, ?_⟩
        rw [UInt64.le_iff_toNat_le, UInt64.toNat_sub_of_le _ _ hle]
        omega

theorem warm_mono (h : c.warm nowUs = true) (hlater : nowUs ≤ laterUs) : c.warm laterUs = true := by
  obtain ⟨streaming, hstreaming, hsum⟩ := warm_iff.mp h
  exact warm_iff.mpr ⟨streaming, hstreaming, hsum.trans (UInt64.le_iff_toNat_le.mp hlater)⟩

theorem Timely.later (h : c.Timely nowUs) (hlater : nowUs ≤ laterUs) : c.Timely laterUs where
  warmup := h.warmup
  duration := h.duration
  streamed := fun streaming hstreaming => UInt64.le_trans (h.streamed streaming hstreaming) hlater
  started := fun started hstarted =>
    ⟨UInt64.le_trans (h.started started hstarted).1 hlater, (h.started started hstarted).2⟩
  ended := h.ended

theorem Timely.streaming (h : c.Timely nowUs) : (c.streaming nowUs).Timely nowUs := by
  unfold CohortClock.streaming
  cases hstreaming : c.streamingUs with
  | some streaming =>
      have hsame : { c with streamingUs := (some streaming).or (some nowUs) } = c := by
        rw [← hstreaming]
        cases c
        simp_all
      rw [hsame]
      exact h
  | none =>
      have hnone : c.startedUs = none := by
        cases hstarted : c.startedUs with
        | none => rfl
        | some started =>
            obtain ⟨streaming, hsome, -⟩ := warm_iff.mp (h.started started hstarted).2
            rw [hstreaming] at hsome
            cases hsome
      refine ⟨h.warmup, h.duration, ?_, ?_, h.ended⟩
      · intro streaming hsome
        obtain rfl : nowUs = streaming := by simpa using hsome
        exact UInt64.le_refl _
      · intro started hstarted
        rw [show ({ c with streamingUs := none.or (some nowUs) } : CohortClock).startedUs =
          c.startedUs from rfl, hnone] at hstarted
        cases hstarted

/-- A started window is past its warm-up. -/
theorem Timely.startedUs_pos {started : UInt64} (h : c.Timely nowUs)
    (hstarted : c.startedUs = some started) : started ≠ 0 := by
  obtain ⟨streaming, -, hsum⟩ := warm_iff.mp (h.started started hstarted).2
  have hwarmup := UInt64.lt_iff_toNat_lt.mp h.warmup
  rintro rfl
  have hzero : (0 : UInt64).toNat = 0 := rfl
  omega

/-- What `pb_cohort_admit` can do to a window that did not open in the future. -/
theorem cohortAdmit_cases (hduration : 0 < c.durationUs)
    (hopened : ∀ started, c.startedUs = some started → started ≤ nowUs ∧ c.warm started = true) :
    (c.cohortAdmit nowUs = (c, .eos) ∧ c.endedUs.isSome = true) ∨
    (c.cohortAdmit nowUs = (c, .warmup) ∧ c.startedUs = none ∧ c.endedUs = none) ∨
    (∃ started, c.startedUs = some started ∧ c.endedUs = none ∧
      started.toNat + c.durationUs.toNat ≤ nowUs.toNat ∧
      c.cohortAdmit nowUs = ({ c with endedUs := some nowUs }, .eos)) ∨
    (c.endedUs = none ∧ c.warm nowUs = true ∧
      (c.startedUs.getD nowUs).toNat ≤ nowUs.toNat ∧
      nowUs.toNat < (c.startedUs.getD nowUs).toNat + c.durationUs.toNat ∧
      c.cohortAdmit nowUs = ({ c with startedUs := some (c.startedUs.getD nowUs) }, .cohort)) := by
  unfold CohortClock.cohortAdmit
  cases hended : c.endedUs with
  | some ended =>
      left
      exact ⟨rfl, rfl⟩
  | none =>
      cases hwarm : c.warm nowUs with
      | false =>
          right; left
          refine ⟨rfl, ?_, rfl⟩
          cases hstarted : c.startedUs with
          | none => rfl
          | some started =>
              have hopen := hopened started hstarted
              rw [warm_mono hopen.2 hopen.1] at hwarm
              cases hwarm
      | true =>
          right; right
          have hpositive := UInt64.lt_iff_toNat_lt.mp hduration
          cases hstarted : c.startedUs with
          | none =>
              right
              have hshort : ¬ (nowUs ≤ nowUs ∧ c.durationUs ≤ nowUs - nowUs) := by
                rintro ⟨-, hle⟩
                rw [UInt64.sub_self] at hle
                exact UInt64.not_lt.mpr hle hduration
              refine ⟨rfl, rfl, le_rfl, Nat.lt_add_of_pos_right hpositive, ?_⟩
              simp only [Option.isSome_none, Bool.false_eq_true, ↓reduceIte, Bool.not_true,
                Option.getD_none, if_neg hshort]
          | some started =>
              have hle := (hopened started hstarted).1
              have hnat := UInt64.le_iff_toNat_le.mp hle
              simp only [Option.isSome_none, Bool.false_eq_true, ↓reduceIte, Bool.not_true,
                Option.getD_some, hle, true_and, UInt64.le_iff_toNat_le (b := nowUs - started),
                UInt64.toNat_sub_of_le _ _ hle]
              split
              next hover =>
                left
                refine ⟨started, rfl, by omega, ?_⟩
                rw [← hstarted]
              next hwithin =>
                right
                exact ⟨hnat, by omega, rfl⟩

theorem Timely.cohortAdmit (h : c.Timely nowUs) :
    (c.cohortAdmit nowUs = (c, .eos) ∧ c.endedUs.isSome = true) ∨
    (c.cohortAdmit nowUs = (c, .warmup) ∧ c.startedUs = none ∧ c.endedUs = none) ∨
    (∃ started, c.startedUs = some started ∧ c.endedUs = none ∧
      c.cohortAdmit nowUs = ({ c with endedUs := some nowUs }, .eos)) ∨
    (c.endedUs = none ∧ c.warm nowUs = true ∧
      c.cohortAdmit nowUs = ({ c with startedUs := some (c.startedUs.getD nowUs) }, .cohort)) := by
  rcases cohortAdmit_cases h.duration h.started with
    hended | hidle | ⟨started, hstarted, hopen, -, heq⟩ | ⟨hopen, hwarm, -, -, heq⟩
  · exact Or.inl hended
  · exact Or.inr (Or.inl hidle)
  · exact Or.inr (Or.inr (Or.inl ⟨started, hstarted, hopen, heq⟩))
  · exact Or.inr (Or.inr (Or.inr ⟨hopen, hwarm, heq⟩))

theorem Timely.admitted (h : c.Timely nowUs) : (c.cohortAdmit nowUs).1.Timely nowUs := by
  rcases h.cohortAdmit with ⟨heq, -⟩ | ⟨heq, -⟩ | ⟨started, hstarted, -, heq⟩ | ⟨-, hwarm, heq⟩
  · rw [heq]
    exact h
  · rw [heq]
    exact h
  · rw [heq]
    refine ⟨h.warmup, h.duration, h.streamed, h.started, ?_⟩
    intro _
    exact Option.isSome_iff_exists.mpr ⟨started, hstarted⟩
  · rw [heq]
    refine ⟨h.warmup, h.duration, h.streamed, ?_, ?_⟩
    · intro started hsome
      obtain rfl : c.startedUs.getD nowUs = started := by simpa using hsome
      cases hstarted : c.startedUs with
      | none => exact ⟨UInt64.le_refl _, hwarm⟩
      | some started => exact h.started started hstarted
    · intro _
      rfl

end CohortClock

end HccastWired.Telemetry
