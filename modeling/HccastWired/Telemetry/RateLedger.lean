import HccastWired.Telemetry.LossLedger

/-!
# The ledger of the frame-rate converter

One source frame enters and any number of outputs leave. The entries before the
sequence of an output are retired with it, and counted as dropped when they had
no output.
-/

namespace HccastWired.Telemetry

structure RateEntry where
  sequence : UInt64
  outputs : UInt64
deriving DecidableEq, Repr

/-- `PbRateLoss`, with the flags `has_enter` and `has_exit` as options. -/
structure PbRateLoss where
  pending : List RateEntry
  lastExit : Option FrameKey
  lastEnter : Option UInt64
  entered : UInt64
  emitted : UInt64
  dropped : UInt64
  duplicated : UInt64
  closed : Bool
  invalidReason : Option String
deriving DecidableEq, Repr

/-- The entry is that of the sequence. -/
def RateEntry.has (sequence : UInt64) (e : RateEntry) : Bool := decide (e.sequence = sequence)

/-- The entry never had an output. -/
def RateEntry.silent (e : RateEntry) : Bool := decide (e.outputs = 0)

namespace PbRateLoss

def zero : PbRateLoss :=
  { pending := [], lastExit := none, lastEnter := none, entered := 0, emitted := 0, dropped := 0
    duplicated := 0, closed := false, invalidReason := none }

def rateInvalid (l : PbRateLoss) (reason : String) : PbRateLoss :=
  { l with invalidReason := l.invalidReason.or (some reason) }

/-- `rate_retire` of the entries `before`, with `rest` behind them. -/
def rateRetire (l : PbRateLoss) (before rest : List RateEntry) : PbRateLoss :=
  { l with
    dropped := before.foldl (fun count e => if e.silent then count + 1 else count) l.dropped
    pending := rest }

def enter (l : PbRateLoss) (sequence : UInt64) : PbRateLoss :=
  if sequence = FrameKey.noKey then l.rateInvalid "missing-frame-key"
  else if l.closed then l.rateInvalid "input-after-eos"
  else if l.lastEnter.any (fun last => decide (sequence ≤ last)) then
    l.rateInvalid "nonmonotonic-input-key"
  else if l.pending.length = lossCapacity then
    { l with lastEnter := some sequence, entered := l.entered + 1 }.rateInvalid "tracking-overflow"
  else
    { l with
      lastEnter := some sequence
      entered := l.entered + 1
      pending := l.pending ++ [⟨sequence, 0⟩] }

/-- The key does not follow the last output. -/
def staleExit (l : PbRateLoss) (key : FrameKey) : Bool :=
  l.lastExit.any fun last => decide (key.sequence < last.sequence) || decide (key.pts ≤ last.pts)

/-- An output of the entry of its sequence. -/
def pass (l : PbRateLoss) (before : List RateEntry) (e : RateEntry) (after : List RateEntry) :
    PbRateLoss :=
  { l with
    duplicated := if e.outputs = 0 then l.duplicated else l.duplicated + 1
    emitted := l.emitted + 1 }.rateRetire before ({ e with outputs := e.outputs + 1 } :: after)

def exit (l : PbRateLoss) (key : FrameKey) : PbRateLoss :=
  if !key.valid then l.rateInvalid "missing-frame-key"
  else if l.closed then l.rateInvalid "output-after-eos"
  else if l.staleExit key then l.rateInvalid "nonmonotonic-output-key"
  else
    match locate (RateEntry.has key.sequence) l.pending with
    | some (before, e, after) => { l with lastExit := some key }.pass before e after
    | none => { l with lastExit := some key }.rateInvalid "output-without-input"

def close (l : PbRateLoss) : PbRateLoss :=
  { l with closed := true }.rateRetire l.pending []

def complete (l : PbRateLoss) : Bool :=
  l.closed && l.invalidReason.isNone && decide (l.pending.length = 0) &&
    decide (l.entered + l.duplicated = l.emitted + l.dropped)

theorem complete_iff {l : PbRateLoss} :
    l.complete = true ↔ l.closed = true ∧ l.invalidReason = none ∧ l.pending = [] ∧
      l.entered + l.duplicated = l.emitted + l.dropped := by
  simp [complete, and_assoc]

end PbRateLoss

/-! ## What the counters count -/

/-- The outputs of the entries. -/
def outputs (entries : List RateEntry) : Nat :=
  (entries.map fun e => e.outputs.toNat).sum

/-- The outputs of the entries behind their first ones. -/
def repeats (entries : List RateEntry) : Nat :=
  (entries.map fun e => e.outputs.toNat - 1).sum

@[simp] theorem outputs_append (xs ys : List RateEntry) :
    outputs (xs ++ ys) = outputs xs + outputs ys := by
  simp [outputs]

@[simp] theorem outputs_cons (e : RateEntry) (ys : List RateEntry) :
    outputs (e :: ys) = e.outputs.toNat + outputs ys := by
  simp [outputs]

@[simp] theorem repeats_append (xs ys : List RateEntry) :
    repeats (xs ++ ys) = repeats xs + repeats ys := by
  simp [repeats]

@[simp] theorem repeats_cons (e : RateEntry) (ys : List RateEntry) :
    repeats (e :: ys) = e.outputs.toNat - 1 + repeats ys := by
  simp [repeats]

theorem repeats_le_outputs (entries : List RateEntry) : repeats entries ≤ outputs entries := by
  apply List.sum_le_sum
  intro e _
  exact Nat.sub_le _ _

/-- Entries without an output have nothing to repeat. -/
theorem repeats_eq_zero {entries : List RateEntry} (h : ∀ e ∈ entries, e.silent = true) :
    repeats entries = 0 := by
  apply List.sum_eq_zero
  intro n hn
  obtain ⟨e, he, rfl⟩ := List.mem_map.mp hn
  have hzero : e.outputs = 0 := of_decide_eq_true (h e he)
  simp [hzero]

theorem uint64_succ_toNat {n : UInt64} {bound : Nat} (h : n.toNat < bound)
    (hbound : bound < 2 ^ 64) : (n + 1).toNat = n.toNat + 1 := by
  have hsize : n.toNat + 1 < 2 ^ 64 := lt_of_le_of_lt h hbound
  rw [UInt64.toNat_add]
  exact Nat.mod_eq_of_lt hsize

/-- A valid rate ledger counts its entries, with the entries it has retired.
Keys are distinct 64-bit numbers, which keeps the counters from wrapping. -/
structure Counted (l : PbRateLoss) (retired : List RateEntry) : Prop where
  entered : l.entered.toNat = (retired ++ l.pending).length
  emitted : l.emitted.toNat = outputs (retired ++ l.pending)
  duplicated : l.duplicated.toNat = repeats (retired ++ l.pending)
  dropped : l.dropped.toNat = retired.countP RateEntry.silent
  enter_bound : (retired ++ l.pending).length ≤ (l.lastEnter.map fun s => s.toNat + 1).getD 0
  exit_bound : outputs (retired ++ l.pending) ≤ (l.lastExit.map fun k => k.pts.toNat + 1).getD 0

theorem counted_zero : Counted PbRateLoss.zero [] := by
  constructor <;> simp [PbRateLoss.zero, outputs, repeats]

theorem foldl_silent (entries : List RateEntry) (count : UInt64)
    (hcount : count.toNat + entries.countP RateEntry.silent < 2 ^ 64) :
    (entries.foldl (fun count e => if e.silent then count + 1 else count) count).toNat =
      count.toNat + entries.countP RateEntry.silent := by
  induction entries generalizing count with
  | nil => rfl
  | cons e rest ih =>
      rw [List.countP_cons] at hcount ⊢
      rw [List.foldl_cons]
      by_cases hsilent : e.silent = true
      · rw [if_pos hsilent] at hcount ⊢
        rw [if_pos hsilent]
        have hsucc : (count + 1).toNat = count.toNat + 1 :=
          uint64_succ_toNat (lt_add_one _) (by omega)
        rw [ih (count + 1) (by omega), hsucc]
        omega
      · rw [if_neg hsilent] at hcount ⊢
        rw [if_neg hsilent]
        exact ih count hcount

section Calls

variable {l : PbRateLoss} {retired : List RateEntry} {sequence : UInt64} {key : FrameKey}

theorem Counted.length_lt (h : Counted l retired) : (retired ++ l.pending).length < 2 ^ 64 := by
  rw [← h.entered]
  exact UInt64.toNat_lt _

/-- The entries retired from the front are counted as dropped when they had no
output. -/
theorem Counted.rateRetire (h : Counted l retired) (before : List RateEntry)
    {rest : List RateEntry} (hat : l.pending = before ++ rest) : Counted (l.rateRetire before rest) (retired ++ before) := by
  have hlength := h.length_lt
  have hall : (retired ++ before) ++ (l.rateRetire before rest).pending = retired ++ l.pending := by
    rw [hat, List.append_assoc]
    rfl
  have hcount : l.dropped.toNat + before.countP RateEntry.silent < 2 ^ 64 := by
    have hretired := retired.countP_le_length (p := RateEntry.silent)
    have hbefore := before.countP_le_length (p := RateEntry.silent)
    rw [h.dropped]
    rw [hat, List.length_append, List.length_append] at hlength
    omega
  constructor
  · rw [hall]
    exact h.entered
  · rw [hall]
    exact h.emitted
  · rw [hall]
    exact h.duplicated
  · rw [List.countP_append, ← h.dropped]
    exact foldl_silent before l.dropped hcount
  · rw [hall]
    exact h.enter_bound
  · rw [hall]
    exact h.exit_bound

theorem PbRateLoss.rateInvalid_ne_none {reason : String} :
    (l.rateInvalid reason).invalidReason ≠ none := by
  simp [PbRateLoss.rateInvalid]

/-- What `pb_rate_loss_enter` did when the ledger is still valid. -/
theorem PbRateLoss.enter_valid (h : (l.enter sequence).invalidReason = none) :
    l.invalidReason = none ∧ l.closed = false ∧ sequence ≠ FrameKey.noKey ∧
      (∀ last, l.lastEnter = some last → last < sequence) ∧
      l.enter sequence = { l with
        lastEnter := some sequence
        entered := l.entered + 1
        pending := l.pending ++ [⟨sequence, 0⟩] } := by
  unfold PbRateLoss.enter at h ⊢
  split at h
  · exact absurd h rateInvalid_ne_none
  next hvalid =>
    split at h
    · exact absurd h rateInvalid_ne_none
    next hopen =>
      split at h
      · exact absurd h rateInvalid_ne_none
      next hstale =>
        split at h
        · exact absurd h rateInvalid_ne_none
        next hroom =>
          refine ⟨h, Bool.not_eq_true _ ▸ hopen, hvalid, ?_, ?_⟩
          · intro last hlast
            simpa [hlast] using hstale
          · rw [if_neg hvalid, if_neg hopen, if_neg hstale, if_neg hroom]

/-- What `pb_rate_loss_exit` did when the ledger is still valid. -/
theorem PbRateLoss.exit_valid (h : (l.exit key).invalidReason = none) :
    l.invalidReason = none ∧ l.closed = false ∧ key.pts ≠ FrameKey.noKey ∧
      (∀ last, l.lastExit = some last → last.pts < key.pts) ∧
      ∃ before e after, l.pending = before ++ e :: after ∧ e.sequence = key.sequence ∧
        l.exit key = { l with lastExit := some key }.pass before e after := by
  unfold PbRateLoss.exit at h ⊢
  split at h
  · exact absurd h rateInvalid_ne_none
  next hvalid =>
    split at h
    · exact absurd h rateInvalid_ne_none
    next hopen =>
      split at h
      · exact absurd h rateInvalid_ne_none
      next hstale =>
        rw [if_neg hvalid, if_neg hopen, if_neg hstale]
        split at h
        next before e after hat =>
          refine ⟨h, Bool.not_eq_true _ ▸ hopen, ?_, ?_, before, e, after, (locate_some hat).1,
            of_decide_eq_true (locate_some hat).2, rfl⟩
          · simp only [FrameKey.valid, Bool.not_eq_true, Bool.not_eq_false', Bool.and_eq_true,
              decide_eq_true_eq] at hvalid
            exact hvalid.2
          · intro last hlast
            simp only [PbRateLoss.staleExit, hlast, Option.any_some, Bool.or_eq_true,
              decide_eq_true_eq, not_or] at hstale
            exact UInt64.not_le.mp hstale.2
        · exact absurd h rateInvalid_ne_none

theorem toNat_lt_noKey {n : UInt64} (h : n ≠ FrameKey.noKey) : n.toNat + 1 < 2 ^ 64 := by
  have hne : n.toNat ≠ FrameKey.noKey.toNat := fun heq => h (UInt64.toNat_inj.mp heq)
  have hlt := UInt64.toNat_lt n
  have hmax : FrameKey.noKey.toNat = 2 ^ 64 - 1 := rfl
  omega

/-- A bound that a later number exceeds. -/
theorem bound_lt {last : Option UInt64} {n : UInt64}
    (hafter : ∀ previous, last = some previous → previous < n) :
    (last.map fun s => s.toNat + 1).getD 0 ≤ n.toNat := by
  cases last with
  | none => exact Nat.zero_le _
  | some previous => exact UInt64.lt_iff_toNat_lt.mp (hafter previous rfl)

theorem Counted.enter (h : Counted l retired) (hvalid : (l.enter sequence).invalidReason = none) :
    Counted (l.enter sequence) retired := by
  obtain ⟨-, -, hkey, hafter, heq⟩ := PbRateLoss.enter_valid hvalid
  have hbound := h.enter_bound.trans (bound_lt hafter)
  have hmax := toNat_lt_noKey hkey
  rw [heq]
  constructor
  · rw [← List.append_assoc, List.length_append, List.length_singleton, ← h.entered]
    rw [← h.entered] at hbound
    exact uint64_succ_toNat (lt_add_one _) (by omega)
  · rw [← List.append_assoc, outputs_append, ← h.emitted]
    rfl
  · rw [← List.append_assoc, repeats_append, ← h.duplicated]
    rfl
  · exact h.dropped
  · rw [← List.append_assoc, List.length_append, List.length_singleton]
    exact Nat.succ_le_succ hbound
  · rw [← List.append_assoc, outputs_append]
    exact h.exit_bound

/-- An output of an entry retires those before it. -/
theorem Counted.exit_at (h : Counted l retired) (hvalid : (l.exit key).invalidReason = none) :
    ∃ before e after, l.pending = before ++ e :: after ∧ e.sequence = key.sequence ∧
      (e.outputs + 1).toNat = e.outputs.toNat + 1 ∧
      l.exit key = { l with lastExit := some key }.pass before e after ∧
      Counted (l.exit key) (retired ++ before) := by
  obtain ⟨-, -, hkey, hafter, before, e, after, hat, hsequence, heq⟩ := PbRateLoss.exit_valid hvalid
  have hbound : outputs (retired ++ l.pending) ≤ key.pts.toNat := by
    refine h.exit_bound.trans ?_
    have hpts : ∀ previous, l.lastExit.map FrameKey.pts = some previous → previous < key.pts := by
      intro previous hprevious
      obtain ⟨k, hk, rfl⟩ := Option.map_eq_some_iff.mp hprevious
      exact hafter k hk
    have hlt := bound_lt hpts
    rwa [Option.map_map] at hlt
  have hmax := toNat_lt_noKey hkey
  have hemitted := h.emitted
  have hduplicated := h.duplicated
  have hle := repeats_le_outputs (retired ++ l.pending)
  rw [hat] at hemitted hduplicated hbound hle
  simp only [outputs_append, outputs_cons] at hemitted hbound hle
  simp only [repeats_append, repeats_cons] at hduplicated hle
  have houtputs : (e.outputs + 1).toNat = e.outputs.toNat + 1 :=
    uint64_succ_toNat (lt_add_one _) (by omega)
  have hsucc : (l.emitted + 1).toNat = l.emitted.toNat + 1 :=
    uint64_succ_toNat (lt_add_one _) (by omega)
  have hpassed : Counted
      { l with
        lastExit := some key
        duplicated := if e.outputs = 0 then l.duplicated else l.duplicated + 1
        emitted := l.emitted + 1
        pending := before ++ { e with outputs := e.outputs + 1 } :: after } retired := by
    constructor
    · rw [h.entered, hat]
      simp
    · simp only [outputs_append, outputs_cons]
      omega
    · simp only [repeats_append, repeats_cons]
      by_cases hzero : e.outputs = 0
      · rw [if_pos hzero, houtputs]
        have hnat : e.outputs.toNat = 0 := by
          rw [hzero]
          rfl
        omega
      · rw [if_neg hzero, houtputs]
        have hnat : e.outputs.toNat ≠ 0 := fun hnat => hzero (UInt64.toNat_inj.mp hnat)
        have hdup : (l.duplicated + 1).toNat = l.duplicated.toNat + 1 :=
          uint64_succ_toNat (lt_add_one _) (by omega)
        omega
    · exact h.dropped
    · have hlength := h.enter_bound
      rw [hat] at hlength
      simpa using hlength
    · simp only [outputs_append, outputs_cons, Option.map_some, Option.getD_some]
      omega
  have hcounted := hpassed.rateRetire before rfl
  refine ⟨before, e, after, hat, hsequence, houtputs, heq, ?_⟩
  rw [heq]
  exact hcounted

theorem Counted.exit (h : Counted l retired) (hvalid : (l.exit key).invalidReason = none) :
    ∃ retired', Counted (l.exit key) retired' := by
  obtain ⟨before, -, -, -, -, -, -, hcounted⟩ := h.exit_at hvalid
  exact ⟨retired ++ before, hcounted⟩

theorem Counted.close (h : Counted l retired) : Counted l.close (retired ++ l.pending) := by
  have hclosed : Counted { l with closed := true } retired :=
    ⟨h.entered, h.emitted, h.duplicated, h.dropped, h.enter_bound, h.exit_bound⟩
  exact hclosed.rateRetire _ (List.append_nil _).symm

/-- No more sources are dropped than entered, and only a source that survives is
repeated. -/
theorem Counted.survivors (h : Counted l retired) (hpending : l.pending = []) :
    l.dropped.toNat ≤ l.entered.toNat ∧
      (l.dropped.toNat = l.entered.toNat → l.duplicated.toNat = 0) := by
  have hentered := h.entered
  have hduplicated := h.duplicated
  rw [hpending, List.append_nil] at hentered hduplicated
  rw [hentered, h.dropped, hduplicated]
  refine ⟨List.countP_le_length, ?_⟩
  intro hall
  exact repeats_eq_zero (List.countP_eq_length.mp hall)

end Calls

end HccastWired.Telemetry
