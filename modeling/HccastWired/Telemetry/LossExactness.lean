import HccastWired.Telemetry.LossLedger

/-!
# A complete loss ledger is exact

While no call was refused, the entries retired so far and those still pending
are the frames entered, each with the fate the reference ledger gives it.
-/

namespace HccastWired.Telemetry

namespace LossEntry

/-- The entry has the fate that the reference ledger gives its key. -/
structure Fits (r : Reference) (e : LossEntry) : Prop where
  accepted : e.result = .accepted ↔ e.key ∈ r.accepted
  emitted : e.disposition = .emitted ↔ e.key ∈ r.exited
  sound : e.disposition = .emitted → e.result ≠ .rejected

theorem Fits.skip {r : Reference} {e : LossEntry} (h : e.Fits r) : e.skip.Fits r where
  accepted := by
    rw [skip_result, skip_key]
    exact h.accepted
  emitted := by
    rw [skip_emitted, skip_key]
    exact h.emitted
  sound := by
    rw [skip_emitted, skip_result]
    exact h.sound

end LossEntry

open LossEntry

/-- The ledger tells what the reference ledger tells, with the entries it has
retired. -/
structure Exact (l : PbLoss) (r : Reference) (retired : List LossEntry) : Prop where
  entered : (retired ++ l.pending).map LossEntry.key = r.entered
  distinct : r.entered.Nodup
  last : ∀ k ∈ r.entered, ∃ previous, l.lastEnter = some previous ∧
    (k = previous ∨ previous.after k = true)
  fits : ∀ e ∈ retired ++ l.pending, e.Fits r
  settled : ∀ e ∈ retired, e.settled = true
  accepted_entered : r.accepted ⊆ r.entered
  exited_entered : r.exited ⊆ r.entered
  rejected : l.rejected = UInt64.ofNat r.refused.length
  emitted : l.emitted = UInt64.ofNat r.exited.length
  dropped : l.dropped = UInt64.ofNat (retired.countP LossEntry.lost)

theorem exact_zero : Exact PbLoss.zero Reference.empty [] := by
  constructor <;> simp [PbLoss.zero, Reference.empty]

/-- The entries at the front that are settled move to the retired ones. -/
theorem Exact.retire {l : PbLoss} {r : Reference} {retired : List LossEntry}
    (h : Exact l r retired) : ∃ retired', Exact l.retire r retired' := by
  obtain ⟨gone, hpending, hgone, hdropped⟩ := retireLoop_spec l.pending l.dropped
  have hall : (retired ++ gone) ++ l.retire.pending = retired ++ l.pending := by
    rw [List.append_assoc]
    exact congrArg (retired ++ ·) hpending.symm
  refine ⟨retired ++ gone, ?_⟩
  constructor
  · rw [hall]
    exact h.entered
  · exact h.distinct
  · exact h.last
  · rw [hall]
    exact h.fits
  · intro e he
    rcases List.mem_append.mp he with he | he
    · exact h.settled e he
    · exact hgone e he
  · exact h.accepted_entered
  · exact h.exited_entered
  · exact h.rejected
  · exact h.emitted
  · rw [List.countP_append, UInt64.ofNat_add, ← h.dropped]
    exact hdropped

section Calls

variable {l : PbLoss} {r : Reference} {retired : List LossEntry} {key : FrameKey}

/-- What `pb_loss_enter` did when the ledger is still valid. -/
theorem PbLoss.enter_valid {awaiting : Bool}
    (h : (l.enter key awaiting).invalidReason = none) :
    l.invalidReason = none ∧ key.valid = true ∧ PbLoss.stale l.lastEnter key = false ∧
      l.enter key awaiting = { l.attempt with lastEnter := some key }.append key awaiting := by
  unfold PbLoss.enter at h ⊢
  split at h
  · exact absurd h PbLoss.invalidate_ne_none
  next hvalid =>
    split at h
    · exact absurd h PbLoss.invalidate_ne_none
    next hopen =>
      split at h
      · exact absurd h PbLoss.invalidate_ne_none
      next hstale =>
        split at h
        · exact absurd h PbLoss.invalidate_ne_none
        next hroom =>
          refine ⟨h, by simpa using hvalid, by simpa using hstale, ?_⟩
          rw [if_neg hvalid, if_neg hopen, if_neg hstale, if_neg hroom]

/-- What `pb_loss_push_result` did when the ledger is still valid. -/
theorem PbLoss.pushResult_valid {accepted : Bool}
    (h : (l.pushResult key accepted).invalidReason = none) :
    l.invalidReason = none ∧ ∃ before e after,
      l.pending = before ++ e :: after ∧ e.key = key ∧ e.result = .pending ∧
      (accepted = false → e.disposition ≠ .emitted) ∧
      l.pushResult key accepted = (l.answer before e after accepted).retire := by
  unfold PbLoss.pushResult at h ⊢
  split at h
  next before e after hat =>
    split at h
    · exact absurd h PbLoss.invalidate_ne_none
    next hpending =>
      unfold PbLoss.settle at h
      dsimp only at h
      split at h
      · exact absurd h PbLoss.invalidate_ne_none
      next hsound =>
        refine ⟨h, before, e, after, (locate_some hat).1, of_decide_eq_true (locate_some hat).2,
          by simpa using hpending, ?_, ?_⟩
        · rintro rfl
          simpa using hsound
        · rw [if_neg hpending, PbLoss.settle, if_neg hsound]
  · exact absurd h PbLoss.invalidate_ne_none

/-- What `pb_loss_exit` did when the ledger is still valid. -/
theorem PbLoss.exit_valid (h : (l.exit key).invalidReason = none) :
    l.invalidReason = none ∧ ∃ before e after,
      l.pending = before ++ e :: after ∧ e.key = key ∧ e.disposition = .pending ∧
      e.result ≠ .rejected ∧
      l.exit key = ({ l with lastExit := some key }.pass before e after).retire := by
  unfold PbLoss.exit at h ⊢
  split at h
  · exact absurd h PbLoss.invalidate_ne_none
  next hvalid =>
    split at h
    · exact absurd h PbLoss.invalidate_ne_none
    next hopen =>
      split at h
      · exact absurd h PbLoss.invalidate_ne_none
      next hstale =>
        rw [if_neg hvalid, if_neg hopen, if_neg hstale]
        unfold PbLoss.output at h ⊢
        split at h
        next before e after hat =>
          split at h
          · exact absurd h PbLoss.invalidate_ne_none
          next hpending =>
            unfold PbLoss.emit at h
            dsimp only at h
            split at h
            · exact absurd h PbLoss.invalidate_ne_none
            next hsound =>
              refine ⟨h, before, e, after, (locate_some hat).1, of_decide_eq_true (locate_some hat).2,
                by simpa using hpending, hsound, ?_⟩
              rw [if_neg hpending, PbLoss.emit, if_neg hsound]
        · exact absurd h PbLoss.invalidate_ne_none

theorem Exact.enter {awaiting : Bool} (h : Exact l r retired)
    (hvalid : (l.enter key awaiting).invalidReason = none) :
    Exact (l.enter key awaiting) (r.call (.enter key awaiting)) retired := by
  obtain ⟨-, -, hstale, heq⟩ := PbLoss.enter_valid hvalid
  have hafter := after_of_not_stale h.last hstale
  have hnew : key ∉ r.entered := fun hmem => FrameKey.ne_of_after (hafter key hmem) rfl
  have hother : ∀ e ∈ retired ++ l.pending, e.key ≠ key := by
    intro e he hkey
    apply hnew
    rw [← h.entered, ← hkey]
    exact List.mem_map_of_mem he
  have haccepted : key ∉ r.accepted := fun hmem => hnew (h.accepted_entered hmem)
  have hexited : key ∉ r.exited := fun hmem => hnew (h.exited_entered hmem)
  have hsame : ∀ k, k ≠ key → (k ∈ r.accepted ↔ k ∈ (r.call (.enter key awaiting)).accepted) := by
    intro k hk
    cases awaiting with
    | true => exact Iff.rfl
    | false => simp [Reference.call, hk]
  rw [heq]
  constructor
  · simp only [PbLoss.append, Reference.call, PbLoss.attempt]
    rw [← List.append_assoc, List.map_append, h.entered]
    rfl
  · exact List.nodup_append.mpr ⟨h.distinct, List.nodup_singleton key, by
      intro k hk k' hk' hsame
      rw [hsame, List.mem_singleton.mp hk'] at hk
      exact hnew hk⟩
  · intro k hk
    rcases List.mem_append.mp hk with hk | hk
    · exact ⟨key, rfl, Or.inr (hafter k hk)⟩
    · exact ⟨key, rfl, Or.inl (List.mem_singleton.mp hk)⟩
  · intro e he
    simp only [PbLoss.append, PbLoss.attempt, ← List.append_assoc] at he
    rcases List.mem_append.mp he with he | he
    · have hfits := h.fits e he
      exact ⟨hfits.accepted.trans (hsame e.key (hother e he)), hfits.emitted, hfits.sound⟩
    · obtain rfl := List.mem_singleton.mp he
      constructor
      · cases awaiting with
        | true => simp [Reference.call, haccepted]
        | false => simp [Reference.call]
      · simp [Reference.call, hexited]
      · simp
  · exact h.settled
  · cases awaiting with
    | true => exact fun k hk => List.mem_append_left _ (h.accepted_entered hk)
    | false =>
        intro k hk
        rcases List.mem_append.mp hk with hk | hk
        · exact List.mem_append_left _ (h.accepted_entered hk)
        · exact List.mem_append_right _ hk
  · exact fun k hk => List.mem_append_left _ (h.exited_entered hk)
  · exact h.rejected
  · exact h.emitted
  · exact h.dropped

/-- The keys of the entries kept are distinct. -/
theorem Exact.others {before after : List LossEntry} {e : LossEntry} (h : Exact l r retired)
    (hat : l.pending = before ++ e :: after) :
    ∀ x ∈ retired ++ (before ++ after), x.key ≠ e.key := by
  have hnodup := h.distinct
  rw [← h.entered, hat] at hnodup
  have hperm : (retired ++ (before ++ e :: after)).Perm (e :: (retired ++ (before ++ after))) := by
    rw [← List.append_assoc, ← List.append_assoc]
    exact List.perm_middle
  have hcons := (hperm.map LossEntry.key).nodup_iff.mp hnodup
  rw [List.map_cons, List.nodup_cons] at hcons
  intro x hx hkey
  apply hcons.1
  rw [← hkey]
  exact List.mem_map_of_mem hx

/-- The entry of the call was entered. -/
theorem Exact.mem_entered {before after : List LossEntry} {e : LossEntry} (h : Exact l r retired)
    (hat : l.pending = before ++ e :: after) : e.key ∈ r.entered := by
  rw [← h.entered, hat]
  simp

theorem Exact.answer {before after : List LossEntry} {e : LossEntry} {accepted : Bool}
    (h : Exact l r retired) (hat : l.pending = before ++ e :: after)
    (hpending : e.result = .pending) (hsound : accepted = false → e.disposition ≠ .emitted) :
    Exact (l.answer before e after accepted) (r.call (.pushResult e.key accepted)) retired := by
  have hothers := h.others hat
  have hfits := h.fits
  rw [hat] at hfits
  have hsame : ∀ k, k ≠ e.key →
      (k ∈ r.accepted ↔ k ∈ (r.call (.pushResult e.key accepted)).accepted) := by
    intro k hk
    cases accepted with
    | true => simp [Reference.call, hk]
    | false => exact Iff.rfl
  have hkept : ∀ x ∈ retired ++ (before ++ after), x.Fits r →
      x.Fits (r.call (.pushResult e.key accepted)) := fun x hx hfit =>
    ⟨hfit.accepted.trans (hsame x.key (hothers x hx)), hfit.emitted, hfit.sound⟩
  constructor
  · rw [Reference.call, ← h.entered, hat]
    simp [PbLoss.answer]
  · exact h.distinct
  · exact h.last
  · intro x hx
    simp only [PbLoss.answer, List.mem_append, List.mem_cons] at hx
    rcases hx with hx | hx | rfl | hx
    · exact hkept x (by simp [hx]) (hfits x (by simp [hx]))
    · exact hkept x (by simp [hx]) (hfits x (by simp [hx]))
    · have hfit := hfits e (by simp)
      constructor
      · cases accepted with
        | true => simp [Reference.call]
        | false =>
            have hnot : e.key ∉ r.accepted := fun hmem => by
              have hresult := hfit.accepted.mpr hmem
              rw [hpending] at hresult
              cases hresult
            simp [Reference.call, hnot]
      · exact hfit.emitted
      · intro hemitted
        cases accepted with
        | true => simp
        | false => exact absurd hemitted (hsound rfl)
    · exact hkept x (by simp [hx]) (hfits x (by simp [hx]))
  · exact h.settled
  · cases accepted with
    | true =>
        intro k hk
        rcases List.mem_append.mp hk with hk | hk
        · exact h.accepted_entered hk
        · rw [List.mem_singleton.mp hk]
          exact h.mem_entered hat
    | false => exact h.accepted_entered
  · exact h.exited_entered
  · cases accepted with
    | true => exact h.rejected
    | false =>
        have hcount : l.rejected + 1 = UInt64.ofNat (r.refused.length + 1) := by
          rw [h.rejected, UInt64.ofNat_add]
          rfl
        simpa [PbLoss.answer, Reference.call] using hcount
  · exact h.emitted
  · exact h.dropped

theorem Exact.pass {before after : List LossEntry} {e : LossEntry} (h : Exact l r retired)
    (hat : l.pending = before ++ e :: after) (hresult : e.result ≠ .rejected) :
    Exact (l.pass before e after) (r.call (.exit e.key)) retired := by
  have hothers := h.others hat
  have hfits := h.fits
  rw [hat] at hfits
  have hkept : ∀ x ∈ retired ++ (before ++ after), x.Fits r → x.Fits (r.call (.exit e.key)) := by
    intro x hx hfit
    refine ⟨hfit.accepted, ?_, hfit.sound⟩
    rw [hfit.emitted]
    simp [Reference.call, hothers x hx]
  constructor
  · rw [Reference.call, ← h.entered, hat]
    simp [PbLoss.pass]
  · exact h.distinct
  · exact h.last
  · intro x hx
    simp only [PbLoss.pass, List.mem_append, List.mem_map, List.mem_cons] at hx
    rcases hx with hx | ⟨x, hx, rfl⟩ | rfl | hx
    · exact hkept x (by simp [hx]) (hfits x (by simp [hx]))
    · exact (hkept x (by simp [hx]) (hfits x (by simp [hx]))).skip
    · have hfit := hfits e (by simp)
      constructor
      · exact hfit.accepted
      · simp [Reference.call]
      · exact fun _ => hresult
    · exact hkept x (by simp [hx]) (hfits x (by simp [hx]))
  · exact h.settled
  · exact h.accepted_entered
  · intro k hk
    rcases List.mem_append.mp hk with hk | hk
    · exact h.exited_entered hk
    · rw [List.mem_singleton.mp hk]
      exact h.mem_entered hat
  · exact h.rejected
  · rw [Reference.call, List.length_append, UInt64.ofNat_add, ← h.emitted]
    rfl
  · exact h.dropped

theorem Exact.lastExit (h : Exact l r retired) (last : Option FrameKey) :
    Exact { l with lastExit := last } r retired :=
  ⟨h.entered, h.distinct, h.last, h.fits, h.settled, h.accepted_entered, h.exited_entered,
    h.rejected, h.emitted, h.dropped⟩

theorem Exact.close (h : Exact l r retired) : ∃ retired', Exact l.close r retired' := by
  have hskipped : Exact { l with closed := true, pending := l.pending.map LossEntry.skip } r
      retired := by
    constructor
    · rw [List.map_append, PbLoss.map_skip_keys, ← List.map_append]
      exact h.entered
    · exact h.distinct
    · exact h.last
    · intro e he
      rcases List.mem_append.mp he with he | he
      · exact h.fits e (List.mem_append_left _ he)
      · obtain ⟨x, hx, rfl⟩ := List.mem_map.mp he
        exact (h.fits x (List.mem_append_right _ hx)).skip
    · exact h.settled
    · exact h.accepted_entered
    · exact h.exited_entered
    · exact h.rejected
    · exact h.emitted
    · exact h.dropped
  exact hskipped.retire

/-- A call that leaves the ledger valid does to it what it does to the
reference ledger. -/
theorem Exact.call (c : LossCall) (h : Exact l r retired)
    (hvalid : (l.call c).invalidReason = none) :
    ∃ retired', Exact (l.call c) (r.call c) retired' := by
  cases c with
  | enter key awaiting => exact ⟨retired, h.enter hvalid⟩
  | pushResult key accepted =>
      obtain ⟨-, before, e, after, hat, rfl, hpending, hsound, heq⟩ :=
        PbLoss.pushResult_valid hvalid
      rw [PbLoss.call, heq]
      exact (h.answer hat hpending hsound).retire
  | exit key =>
      obtain ⟨-, before, e, after, hat, rfl, -, hresult, heq⟩ := PbLoss.exit_valid hvalid
      rw [PbLoss.call, heq]
      exact ((h.lastExit (some e.key)).pass hat hresult).retire
  | close => exact h.close

/-- A refused call is not forgotten. -/
theorem PbLoss.call_valid (c : LossCall) (hvalid : (l.call c).invalidReason = none) :
    l.invalidReason = none := by
  cases c with
  | enter key awaiting => exact (PbLoss.enter_valid hvalid).1
  | pushResult key accepted => exact (PbLoss.pushResult_valid hvalid).1
  | exit key => exact (PbLoss.exit_valid hvalid).1
  | close => exact hvalid

end Calls

theorem exact_run (calls : List LossCall) (hvalid : (PbLoss.run calls).invalidReason = none) :
    ∃ retired, Exact (PbLoss.run calls) (Reference.run calls) retired := by
  induction calls using List.reverseRecOn with
  | nil => exact ⟨[], exact_zero⟩
  | append_singleton calls c ih =>
      rw [PbLoss.run, List.foldl_append] at hvalid ⊢
      rw [Reference.run, List.foldl_append]
      obtain ⟨retired, h⟩ := ih (PbLoss.call_valid c hvalid)
      exact h.call c hvalid

/-- Once nothing is pending, the entries that were lost are the accepted keys
that never exited. -/
theorem Exact.dropped_card {l : PbLoss} {r : Reference} {retired : List LossEntry}
    (h : Exact l r retired) (hpending : l.pending = []) :
    retired.countP LossEntry.lost = r.dropped.card := by
  have hentered := h.entered
  have hfits := h.fits
  rw [hpending, List.append_nil] at hentered hfits
  have hlost : ∀ e ∈ retired, e.lost = true ↔ e.key ∈ r.accepted ∧ e.key ∉ r.exited := by
    intro e he
    have hsettled := h.settled e he
    rw [← (hfits e he).accepted, ← (hfits e he).emitted]
    unfold LossEntry.lost
    unfold LossEntry.settled at hsettled
    cases hresult : e.result <;> cases hdisposition : e.disposition <;> simp_all
  have hset : r.dropped = ((retired.filter LossEntry.lost).map LossEntry.key).toFinset := by
    ext k
    simp only [Reference.dropped, Finset.mem_sdiff, List.mem_toFinset, List.mem_map,
      List.mem_filter]
    constructor
    · intro hk
      have hmem := h.accepted_entered hk.1
      rw [← hentered] at hmem
      obtain ⟨e, he, rfl⟩ := List.mem_map.mp hmem
      exact ⟨e, ⟨he, (hlost e he).mpr hk⟩, rfl⟩
    · rintro ⟨e, ⟨he, hl⟩, rfl⟩
      exact (hlost e he).mp hl
  have hnodup : ((retired.filter LossEntry.lost).map LossEntry.key).Nodup := by
    have hkeys := h.distinct
    rw [← hentered] at hkeys
    exact hkeys.sublist (List.filter_sublist.map LossEntry.key)
  rw [hset, List.toFinset_card_of_nodup hnodup, List.length_map, List.countP_eq_length_filter]

/-- An emitted entry that has left the ledger was accepted. -/
theorem Exact.exited_accepted {l : PbLoss} {r : Reference} {retired : List LossEntry}
    (h : Exact l r retired) (hpending : l.pending = []) : r.exited ⊆ r.accepted := by
  have hentered := h.entered
  have hfits := h.fits
  rw [hpending, List.append_nil] at hentered hfits
  intro k hk
  have hmem := h.exited_entered hk
  rw [← hentered] at hmem
  obtain ⟨e, he, rfl⟩ := List.mem_map.mp hmem
  have hfit := hfits e he
  have hsettled := h.settled e he
  have hnot := hfit.sound (hfit.emitted.mpr hk)
  unfold LossEntry.settled at hsettled
  apply hfit.accepted.mp
  cases hresult : e.result <;> simp_all

/-- Each call adds at most one key to each list of the reference ledger. -/
theorem Reference.call_length (r : Reference) (c : LossCall) :
    (r.call c).accepted.length ≤ r.accepted.length + 1 ∧
      (r.call c).refused.length ≤ r.refused.length + 1 ∧
      (r.call c).exited.length ≤ r.exited.length + 1 := by
  cases c with
  | enter key awaiting => cases awaiting <;> simp [Reference.call]
  | pushResult key accepted => cases accepted <;> simp [Reference.call]
  | exit key => simp [Reference.call]
  | close => simp [Reference.call]

theorem Reference.run_length (calls : List LossCall) :
    (Reference.run calls).accepted.length ≤ calls.length ∧
      (Reference.run calls).refused.length ≤ calls.length ∧
      (Reference.run calls).exited.length ≤ calls.length := by
  induction calls using List.reverseRecOn with
  | nil => exact ⟨le_rfl, le_rfl, le_rfl⟩
  | append_singleton calls c ih =>
      obtain ⟨haccepted, hrefused, hexited⟩ := (Reference.run calls).call_length c
      rw [Reference.run, List.foldl_append, List.length_append, List.length_singleton]
      refine ⟨haccepted.trans ?_, hrefused.trans ?_, hexited.trans ?_⟩
      · exact Nat.succ_le_succ ih.1
      · exact Nat.succ_le_succ ih.2.1
      · exact Nat.succ_le_succ ih.2.2

theorem PbLoss.complete_iff {l : PbLoss} :
    l.complete = true ↔ l.closed = true ∧ l.invalidReason = none ∧ l.pending = [] ∧
      l.attempts = l.accepted + l.rejected ∧ l.accepted = l.emitted + l.dropped := by
  simp [PbLoss.complete, and_assoc]

/-- Whatever was called, the entries are bounded and ascend; a ledger that
reports itself complete has counted what the unbounded ledger of the same calls
counts, in 64-bit counters and, below 2^64 calls, in numbers. -/
theorem loss_ledger_exact (calls : List LossCall) :
    (PbLoss.run calls).pending.length ≤ 64 ∧
      (PbLoss.run calls).pending.Pairwise (fun a b => b.key.after a.key = true) ∧
      ((PbLoss.run calls).complete = true →
        (PbLoss.run calls).emitted = UInt64.ofNat (Reference.run calls).exited.length ∧
        (∀ key ∈ (Reference.run calls).exited,
          key ∈ (Reference.run calls).entered ∧ key ∈ (Reference.run calls).accepted) ∧
        (PbLoss.run calls).rejected = UInt64.ofNat (Reference.run calls).refused.length ∧
        (PbLoss.run calls).dropped = UInt64.ofNat (Reference.run calls).dropped.card ∧
        (calls.length < 2 ^ 64 →
          (PbLoss.run calls).emitted.toNat = (Reference.run calls).exited.length ∧
          (PbLoss.run calls).rejected.toNat = (Reference.run calls).refused.length ∧
          (PbLoss.run calls).dropped.toNat = (Reference.run calls).dropped.card)) := by
  have hascending := PbLoss.run_ascending calls
  refine ⟨?_, ?_, ?_⟩
  · have hlength := hascending.length
    rwa [PbLoss.keys, List.length_map] at hlength
  · exact List.pairwise_map.mp hascending.sorted
  intro hcomplete
  obtain ⟨-, hvalid, hpending, -, -⟩ := PbLoss.complete_iff.mp hcomplete
  obtain ⟨retired, h⟩ := exact_run calls hvalid
  have hdropped := h.dropped
  rw [h.dropped_card hpending] at hdropped
  refine ⟨h.emitted, ?_, h.rejected, hdropped, ?_⟩
  · exact fun key hkey => ⟨h.exited_entered hkey, h.exited_accepted hpending hkey⟩
  intro hcalls
  obtain ⟨haccepted, hrefused, hexited⟩ := Reference.run_length calls
  have hcard : (Reference.run calls).dropped.card ≤ calls.length := by
    calc
      (Reference.run calls).dropped.card ≤ (Reference.run calls).accepted.toFinset.card :=
        Finset.card_le_card Finset.sdiff_subset
      _ ≤ (Reference.run calls).accepted.length := List.toFinset_card_le _
      _ ≤ calls.length := haccepted
  refine ⟨?_, ?_, ?_⟩
  · rw [h.emitted]
    exact UInt64.toNat_ofNat_of_lt' (hexited.trans_lt hcalls)
  · rw [h.rejected]
    exact UInt64.toNat_ofNat_of_lt' (hrefused.trans_lt hcalls)
  · rw [hdropped]
    exact UInt64.toNat_ofNat_of_lt' (hcard.trans_lt hcalls)

/-- A frame that exits before its push is answered, and one that is dropped. -/
theorem loss_ledger_exact_late_result :
    let calls : List LossCall :=
      [.enter ⟨0, 0⟩ true, .exit ⟨0, 0⟩, .pushResult ⟨0, 0⟩ true, .enter ⟨1, 0⟩ false, .close]
    (PbLoss.run calls).complete = true ∧ (PbLoss.run calls).emitted = 1 ∧
      (PbLoss.run calls).dropped = 1 ∧ (Reference.run calls).dropped.card = 1 := by
  intro calls
  have hcomplete : (PbLoss.run calls).complete = true := by decide
  obtain ⟨hemitted, -, -, hdropped, -⟩ := (loss_ledger_exact calls).2.2 hcomplete
  exact ⟨hcomplete, hemitted, hdropped, by decide⟩


end HccastWired.Telemetry
