import HccastWired.Telemetry.RateLedger

/-!
# The rate ledger conserves frames

The ledger keeps 64 entries and four counters. Beside it runs the whole history:
the sequences that entered and the sequences of the outputs. While no reason is
recorded, the entries and those retired are that history.
-/

namespace HccastWired.Telemetry

/-- A call on a rate ledger. -/
inductive RateCall
  | enter (sequence : UInt64)
  | exit (key : FrameKey)
  | close
deriving DecidableEq, Repr

def PbRateLoss.call (l : PbRateLoss) : RateCall → PbRateLoss
  | .enter sequence => l.enter sequence
  | .exit key => l.exit key
  | .close => l.close

def PbRateLoss.run (calls : List RateCall) : PbRateLoss := calls.foldl PbRateLoss.call PbRateLoss.zero

/-- The sequences that entered. -/
def entered (calls : List RateCall) : List UInt64 :=
  calls.filterMap fun c => match c with
    | .enter sequence => some sequence
    | _ => none

/-- The sequence of each output. -/
def exited (calls : List RateCall) : List UInt64 :=
  calls.filterMap fun c => match c with
    | .exit key => some key.sequence
    | _ => none

/-- The entries of a valid ledger, with those it has retired, are what entered,
each with its outputs. -/
structure Tracked (l : PbRateLoss) (ins outs : List UInt64) (retired : List RateEntry) : Prop where
  counted : Counted l retired
  sequences : (retired ++ l.pending).map RateEntry.sequence = ins
  sorted : ins.Pairwise (· < ·)
  last : ∀ s ∈ ins, ∃ last, l.lastEnter = some last ∧ s ≤ last
  outputs : ∀ e ∈ retired ++ l.pending, e.outputs.toNat = outs.count e.sequence
  known : ∀ s ∈ outs, s ∈ ins
  closed : l.closed = true → l.pending = []

section Calls

variable {l : PbRateLoss} {ins outs : List UInt64} {retired : List RateEntry}
  {sequence : UInt64} {key : FrameKey}

theorem tracked_zero : Tracked PbRateLoss.zero [] [] [] where
  counted := counted_zero
  sequences := rfl
  sorted := List.Pairwise.nil
  last := fun s h => by cases h
  outputs := fun e h => by cases h
  known := fun s h => by cases h
  closed := fun h => by cases h

theorem Tracked.enter (h : Tracked l ins outs retired)
    (hvalid : (l.enter sequence).invalidReason = none) :
    Tracked (l.enter sequence) (ins ++ [sequence]) outs retired := by
  obtain ⟨-, hopen, -, hafter, heq⟩ := PbRateLoss.enter_valid hvalid
  have hgreater : ∀ s ∈ ins, s < sequence := by
    intro s hs
    obtain ⟨last, hlast, hle⟩ := h.last s hs
    exact UInt64.lt_of_le_of_lt hle (hafter last hlast)
  have hfresh : sequence ∉ outs := by
    intro hmem
    exact UInt64.lt_irrefl sequence (hgreater sequence (h.known sequence hmem))
  have hcounted := h.counted.enter hvalid
  rw [heq] at hcounted ⊢
  refine ⟨hcounted, ?_, ?_, ?_, ?_, ?_, ?_⟩
  · rw [← List.append_assoc, List.map_append, h.sequences]
    rfl
  · refine List.pairwise_append.mpr ⟨h.sorted, List.pairwise_singleton _ _, ?_⟩
    intro s hs t ht
    rw [List.mem_singleton.mp ht]
    exact hgreater s hs
  · intro s hs
    refine ⟨sequence, rfl, ?_⟩
    rcases List.mem_append.mp hs with hs | hs
    · exact UInt64.le_of_lt (hgreater s hs)
    · rw [List.mem_singleton.mp hs]
      exact UInt64.le_refl _
  · intro e he
    rw [← List.append_assoc] at he
    rcases List.mem_append.mp he with he | he
    · exact h.outputs e he
    · rw [List.mem_singleton.mp he, List.count_eq_zero_of_not_mem hfresh]
      rfl
  · exact fun s hs => List.mem_append_left _ (h.known s hs)
  · intro hclosed
    rw [hopen] at hclosed
    cases hclosed

/-- Two entries of one sequence are one entry. -/
theorem Tracked.distinct (h : Tracked l ins outs retired) :
    ((retired ++ l.pending).map RateEntry.sequence).Nodup := by
  rw [h.sequences]
  exact h.sorted.imp fun hlt heq => UInt64.ne_of_lt hlt heq

theorem Tracked.exit (h : Tracked l ins outs retired)
    (hvalid : (l.exit key).invalidReason = none) :
    ∃ retired', Tracked (l.exit key) ins (outs ++ [key.sequence]) retired' := by
  obtain ⟨-, hopen, -⟩ := PbRateLoss.exit_valid hvalid
  obtain ⟨before, e, after, hat, hsequence, hsucc, heq, hcounted⟩ := h.counted.exit_at hvalid
  refine ⟨retired ++ before, ?_⟩
  have hsplit : retired ++ l.pending = (retired ++ before) ++ e :: after := by
    rw [hat, List.append_assoc]
  have hpassed : (retired ++ before) ++ (l.exit key).pending =
      (retired ++ before) ++ { e with outputs := e.outputs + 1 } :: after := by
    rw [heq]
    rfl
  have hdistinct := h.distinct
  rw [hsplit, List.map_append, List.map_cons] at hdistinct
  obtain ⟨-, hrest, hapart⟩ := List.nodup_append.mp hdistinct
  have hbehind := (List.nodup_cons.mp hrest).1
  refine ⟨hcounted, ?_, h.sorted, ?_, ?_, ?_, ?_⟩
  · rw [hpassed, ← h.sequences, hsplit]
    simp
  · rw [heq]
    exact h.last
  · -- only the entry of the output has one more
    intro x hx
    rw [hpassed] at hx
    have hbefore := h.outputs
    rw [hsplit] at hbefore
    rw [List.count_append]
    rcases List.mem_append.mp hx with hx | hx
    · have hne : x.sequence ≠ key.sequence := by
        rw [← hsequence]
        exact hapart _ (List.mem_map_of_mem hx) _ List.mem_cons_self
      rw [List.count_singleton, if_neg (by simpa using hne.symm), Nat.add_zero]
      exact hbefore x (List.mem_append_left _ hx)
    rcases List.mem_cons.mp hx with rfl | hx
    · have he := hbefore e (List.mem_append_right _ List.mem_cons_self)
      dsimp only
      rw [hsucc, he, hsequence, List.count_singleton_self]
    · have hne : x.sequence ≠ key.sequence := by
        intro hsame
        rw [hsequence, ← hsame] at hbehind
        exact hbehind (List.mem_map_of_mem hx)
      rw [List.count_singleton, if_neg (by simpa using hne.symm), Nat.add_zero]
      exact hbefore x (List.mem_append_right _ (List.mem_cons_of_mem _ hx))
  · intro s hs
    rcases List.mem_append.mp hs with hs | hs
    · exact h.known s hs
    · rw [List.mem_singleton.mp hs, ← hsequence, ← h.sequences, hsplit]
      exact List.mem_map_of_mem (List.mem_append_right _ List.mem_cons_self)
  · intro hclosed
    rw [heq] at hclosed
    rw [show PbRateLoss.closed _ = l.closed from rfl, hopen] at hclosed
    cases hclosed

theorem Tracked.close (h : Tracked l ins outs retired) :
    Tracked l.close ins outs (retired ++ l.pending) := by
  have hall : (retired ++ l.pending) ++ l.close.pending = retired ++ l.pending :=
    List.append_nil _
  refine ⟨h.counted.close, ?_, h.sorted, h.last, ?_, h.known, fun _ => rfl⟩
  · rw [hall]
    exact h.sequences
  · rw [hall]
    exact h.outputs

/-- A reason stays. -/
theorem PbRateLoss.call_valid_before {c : RateCall} (h : (l.call c).invalidReason = none) :
    l.invalidReason = none := by
  cases c with
  | enter sequence => exact (PbRateLoss.enter_valid h).1
  | exit key => exact (PbRateLoss.exit_valid h).1
  | close => exact h

end Calls

theorem entered_snoc (calls : List RateCall) (c : RateCall) :
    entered (calls ++ [c]) = entered calls ++ entered [c] := List.filterMap_append

theorem exited_snoc (calls : List RateCall) (c : RateCall) :
    exited (calls ++ [c]) = exited calls ++ exited [c] := List.filterMap_append

/-- A run that ends without a reason has tracked its calls. -/
theorem run_tracked (calls : List RateCall) (h : (PbRateLoss.run calls).invalidReason = none) :
    ∃ retired, Tracked (PbRateLoss.run calls) (entered calls) (exited calls) retired := by
  induction calls using List.reverseRecOn with
  | nil => exact ⟨[], tracked_zero⟩
  | append_singleton calls c ih =>
      have hrun : PbRateLoss.run (calls ++ [c]) = (PbRateLoss.run calls).call c := by
        rw [PbRateLoss.run, List.foldl_append]
        rfl
      rw [hrun] at h ⊢
      obtain ⟨retired, htracked⟩ := ih (PbRateLoss.call_valid_before h)
      rw [entered_snoc, exited_snoc]
      cases c with
      | enter sequence =>
          refine ⟨retired, ?_⟩
          rw [show exited [RateCall.enter sequence] = [] from rfl, List.append_nil]
          exact htracked.enter h
      | exit key =>
          rw [show entered [RateCall.exit key] = [] from rfl, List.append_nil]
          exact htracked.exit h
      | close =>
          rw [show exited [RateCall.close] = [] from rfl,
            show entered [RateCall.close] = [] from rfl, List.append_nil, List.append_nil]
          exact ⟨_, htracked.close⟩

/-! ## A closed ledger -/

/-- The counters are those of the calls. A sequence without an output is
dropped, and each output of a sequence behind its first one is a duplicate. -/
structure Conserved (calls : List RateCall) (l : PbRateLoss) : Prop where
  entered : l.entered.toNat = (entered calls).length
  emitted : l.emitted.toNat = (exited calls).length
  dropped : l.dropped.toNat = ((Telemetry.entered calls).toFinset \ (exited calls).toFinset).card
  duplicated : l.duplicated.toNat =
    ∑ s ∈ (exited calls).toFinset, ((exited calls).count s - 1)
  balance : l.entered.toNat + l.duplicated.toNat = l.emitted.toNat + l.dropped.toNat
  complete : l.complete = true

section Closed

variable {ins outs : List UInt64} {entries : List RateEntry}

theorem sum_entries (hsequences : entries.map RateEntry.sequence = ins) (hnodup : ins.Nodup)
    (f : RateEntry → Nat) (g : UInt64 → Nat) (hfg : ∀ e ∈ entries, f e = g e.sequence) :
    (entries.map f).sum = ∑ s ∈ ins.toFinset, g s := by
  rw [List.sum_toFinset g hnodup, ← hsequences, List.map_map]
  congr 1
  exact List.map_congr_left hfg

/-- All outputs belong to sequences that entered. -/
theorem sum_over_outputs (hknown : ∀ s ∈ outs, s ∈ ins) (g : UInt64 → Nat)
    (hg : ∀ s, s ∉ outs → g s = 0) :
    ∑ s ∈ ins.toFinset, g s = ∑ s ∈ outs.toFinset, g s := by
  symm
  apply Finset.sum_subset
  · intro s hs
    exact List.mem_toFinset.mpr (hknown s (List.mem_toFinset.mp hs))
  · intro s _ hs
    exact hg s fun hmem => hs (List.mem_toFinset.mpr hmem)

theorem outputs_eq_length (hsequences : entries.map RateEntry.sequence = ins)
    (hnodup : ins.Nodup) (houtputs : ∀ e ∈ entries, e.outputs.toNat = outs.count e.sequence)
    (hknown : ∀ s ∈ outs, s ∈ ins) : outputs entries = outs.length := by
  calc outputs entries
      = ∑ s ∈ ins.toFinset, outs.count s := sum_entries hsequences hnodup _ _ houtputs
    _ = ∑ s ∈ outs.toFinset, outs.count s :=
        sum_over_outputs hknown _ fun s hs => List.count_eq_zero_of_not_mem hs
    _ = outs.length := List.sum_toFinset_count_eq_length outs

theorem repeats_eq_sum (hsequences : entries.map RateEntry.sequence = ins)
    (hnodup : ins.Nodup) (houtputs : ∀ e ∈ entries, e.outputs.toNat = outs.count e.sequence)
    (hknown : ∀ s ∈ outs, s ∈ ins) :
    repeats entries = ∑ s ∈ outs.toFinset, (outs.count s - 1) := by
  calc repeats entries
      = ∑ s ∈ ins.toFinset, (outs.count s - 1) :=
        sum_entries hsequences hnodup _ _ fun e he => by rw [houtputs e he]
    _ = ∑ s ∈ outs.toFinset, (outs.count s - 1) :=
        sum_over_outputs hknown _ fun s hs => by rw [List.count_eq_zero_of_not_mem hs]

theorem silent_eq_card (hsequences : entries.map RateEntry.sequence = ins)
    (hnodup : ins.Nodup) (houtputs : ∀ e ∈ entries, e.outputs.toNat = outs.count e.sequence) :
    entries.countP RateEntry.silent = (ins.toFinset \ outs.toFinset).card := by
  have hsilent : ∀ e ∈ entries, (RateEntry.silent e = true ↔ e.sequence ∉ outs) := by
    intro e he
    rw [RateEntry.silent, decide_eq_true_iff, ← UInt64.toNat_inj, houtputs e he,
      UInt64.toNat_zero, List.count_eq_zero]
  calc entries.countP RateEntry.silent
      = entries.countP (fun e => decide (e.sequence ∉ outs)) :=
        List.countP_congr fun e he => by rw [hsilent e he, decide_eq_true_iff]
    _ = ins.countP fun s => decide (s ∉ outs) := by
        rw [← hsequences, List.countP_map]
        rfl
    _ = (ins.filter fun s => decide (s ∉ outs)).toFinset.card := by
        rw [List.countP_eq_length_filter, List.toFinset_card_of_nodup (hnodup.filter _)]
    _ = (ins.toFinset \ outs.toFinset).card := by
        congr 1
        ext s
        simp

/-- An entry is one source, and each output is that source or a duplicate. -/
theorem entries_balance (entries : List RateEntry) :
    entries.length + repeats entries = outputs entries + entries.countP RateEntry.silent := by
  induction entries with
  | nil => rfl
  | cons e rest ih =>
      rw [List.length_cons, repeats_cons, outputs_cons, List.countP_cons]
      by_cases hzero : e.outputs = 0
      · have hsilent : RateEntry.silent e = true := decide_eq_true hzero
        rw [if_pos hsilent, hzero, UInt64.toNat_zero]
        omega
      · have hsilent : ¬ RateEntry.silent e = true := fun h => hzero (of_decide_eq_true h)
        have hpos : e.outputs.toNat ≠ 0 := fun h => hzero (UInt64.toNat_inj.mp h)
        rw [if_neg hsilent]
        omega

end Closed

/-- A ledger that is closed without a reason has counted every frame of its
calls. -/
theorem rate_ledger_conserves (calls : List RateCall)
    (hclosed : (PbRateLoss.run calls).closed = true)
    (hvalid : (PbRateLoss.run calls).invalidReason = none) :
    Conserved calls (PbRateLoss.run calls) := by
  obtain ⟨retired, h⟩ := run_tracked calls hvalid
  have hpending := h.closed hclosed
  have hnodup : (entered calls).Nodup :=
    h.sorted.imp fun hlt heq => UInt64.ne_of_lt hlt heq
  obtain ⟨hentered, hemitted, hduplicated, hdropped, -, -⟩ := h.counted
  have hsequences := h.sequences
  have houtputs := h.outputs
  rw [hpending, List.append_nil] at hentered hemitted hduplicated hsequences houtputs
  have hbalance := entries_balance retired
  rw [← hentered, ← hduplicated, ← hemitted, ← hdropped] at hbalance
  constructor
  · rw [hentered, ← hsequences, List.length_map]
  · rw [hemitted]
    exact outputs_eq_length hsequences hnodup houtputs h.known
  · rw [hdropped]
    exact silent_eq_card hsequences hnodup houtputs
  · rw [hduplicated]
    exact repeats_eq_sum hsequences hnodup houtputs h.known
  · exact hbalance
  · refine PbRateLoss.complete_iff.mpr ⟨hclosed, hvalid, hpending, ?_⟩
    rw [← UInt64.toNat_inj, UInt64.toNat_add, UInt64.toNat_add, hbalance]

/-- Three frames: the first is shown twice, the second not at all. -/
def sampleRateCalls : List RateCall :=
  [.enter 0, .enter 1, .exit ⟨0, 10⟩, .exit ⟨0, 20⟩, .enter 2, .exit ⟨2, 30⟩, .close]

theorem rate_ledger_conserves_sample :
    Conserved sampleRateCalls (PbRateLoss.run sampleRateCalls) :=
  rate_ledger_conserves sampleRateCalls (by decide) (by decide)

end HccastWired.Telemetry
