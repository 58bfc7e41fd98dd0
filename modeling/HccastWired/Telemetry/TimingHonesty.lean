import HccastWired.Telemetry.TimingTable

/-!
# The timing table matches honestly

A table of 64 slots forgets: it evicts when it is full, and it stops matching
when a key repeats. What it matches is what a map without bounds matches as long
as neither happens, and it is never a guess.
-/

namespace HccastWired.Telemetry

/-- A call on a timing table. -/
inductive TimingCall
  | enter (key nowUs : UInt64)
  | exit (key nowUs : UInt64)
  | discontinuity
deriving DecidableEq, Repr

/-- An exit that was matched, with the time of the enter it was matched with. -/
structure TimingPair where
  key : UInt64
  enteredUs : UInt64
  nowUs : UInt64
deriving DecidableEq, Repr

def TimingPair.elapsed (p : TimingPair) : UInt64 := p.nowUs - p.enteredUs

namespace PbTiming

def call (t : PbTiming) : TimingCall → PbTiming
  | .enter key nowUs => t.enter key nowUs
  | .exit key nowUs => t.exit key nowUs
  | .discontinuity => t.discontinuity

/-- The pair that a call matches. -/
def pairOf (t : PbTiming) : TimingCall → Option TimingPair
  | .exit key nowUs =>
      if key = FrameKey.noKey ∨ t.ambiguous = true then none
      else
        match t.find key with
        | none => none
        | some (_, entry) =>
            if nowUs < entry.enteredUs then none else some ⟨key, entry.enteredUs, nowUs⟩
  | _ => none

def run (t : PbTiming) (calls : List TimingCall) : PbTiming := calls.foldl call t

/-- The pairs that the calls match, in their order. -/
def pairs (t : PbTiming) : List TimingCall → List TimingPair
  | [] => []
  | c :: rest => (t.pairOf c).toList ++ (t.call c).pairs rest

/-! ## One call -/

section Slots

variable {t : PbTiming} {key nowUs : UInt64} {slot : TimingSlot} {entry : TimingEntry}

theorem find_some (h : t.find key = some (slot, entry)) :
    t.pending slot = some entry ∧ entry.key = key := by
  obtain ⟨s, -, hs⟩ := List.exists_of_findSome?_eq_some h
  split at hs
  next e he =>
    split at hs
    next hkey =>
      cases hs
      exact ⟨he, hkey⟩
    · cases hs
  · cases hs

theorem find_none (h : t.find key = none) (hentry : t.pending slot = some entry) :
    entry.key ≠ key := by
  intro hkey
  have hslot := List.findSome?_eq_none_iff.mp h slot (List.mem_finRange slot)
  simp only [hentry, if_pos hkey] at hslot
  cases hslot

/-- The chosen slot is free where one is. -/
theorem freeSlot_free (h : t.pending slot = none) : t.pending t.freeSlot = none := by
  have hsome : (((List.finRange 64).map (t.next + ·)).find? fun slot =>
      (t.pending slot).isNone).isSome := by
    rw [List.find?_isSome]
    refine ⟨slot, List.mem_map.mpr ⟨slot - t.next, List.mem_finRange _, ?_⟩, ?_⟩
    · exact add_sub_cancel _ _
    · rw [h]
      rfl
  obtain ⟨free, hfree⟩ := Option.isSome_iff_exists.mp hsome
  have hnone := List.find?_some hfree
  rw [freeSlot, hfree]
  exact Option.isNone_iff_eq_none.mp hnone

/-- What `pb_timing_enter` can do. -/
theorem enter_cases (t : PbTiming) (key nowUs : UInt64) :
    (t.enter key nowUs).pending = t.pending ∧ (t.enter key nowUs).evicted = t.evicted ∧
        (key = FrameKey.noKey ∧ (t.enter key nowUs).ambiguous = t.ambiguous ∨
          (t.enter key nowUs).ambiguous = true ∧
            (t.ambiguous = true ∨ ∃ slot entry, t.pending slot = some entry ∧ entry.key = key)) ∨
      key ≠ FrameKey.noKey ∧ t.ambiguous = false ∧ t.find key = none ∧
        t.enter key nowUs = { t with
          entered := t.entered + 1
          evicted := if (t.pending t.freeSlot).isSome then t.evicted + 1 else t.evicted
          pending := Function.update t.pending t.freeSlot (some ⟨key, nowUs⟩)
          next := t.freeSlot + 1 } := by
  unfold enter
  dsimp only
  by_cases hblocked : key = FrameKey.noKey ∨ t.ambiguous = true
  · left
    rw [if_pos hblocked]
    refine ⟨rfl, rfl, ?_⟩
    rcases hblocked with hkey | hambiguous
    · exact Or.inl ⟨hkey, rfl⟩
    · exact Or.inr ⟨hambiguous, Or.inl hambiguous⟩
  rw [if_neg hblocked]
  rw [not_or, Bool.not_eq_true] at hblocked
  cases hfind : t.find key with
  | none =>
      right
      refine ⟨hblocked.1, hblocked.2, rfl, ?_⟩
      have hnone : ({ t with entered := t.entered + 1 } : PbTiming).find key = none := hfind
      rw [hnone]
      rfl
  | some found =>
      left
      obtain ⟨slot, entry⟩ := found
      have hsome : ({ t with entered := t.entered + 1 } : PbTiming).find key =
          some (slot, entry) := hfind
      rw [hsome]
      refine ⟨rfl, rfl, Or.inr ⟨rfl, Or.inr ⟨slot, entry, ?_⟩⟩⟩
      exact find_some hfind

/-- What `pb_timing_exit` can do. -/
theorem exit_cases (t : PbTiming) (key nowUs : UInt64) :
    (t.pairOf (.exit key nowUs) = none ∧
        (key = FrameKey.noKey ∨ t.ambiguous = true ∨ t.find key = none) ∧
        t.exit key nowUs =
          { t with exited := t.exited + 1, unmatched := t.unmatched + 1 }) ∨
      ∃ slot entry, key ≠ FrameKey.noKey ∧ t.ambiguous = false ∧ t.find key = some (slot, entry) ∧
        ((nowUs < entry.enteredUs ∧ t.pairOf (.exit key nowUs) = none ∧
          t.exit key nowUs = { t with
            exited := t.exited + 1
            pending := Function.update t.pending slot none
            invalid := t.invalid + 1 }) ∨
        (¬ nowUs < entry.enteredUs ∧
          t.pairOf (.exit key nowUs) = some ⟨key, entry.enteredUs, nowUs⟩ ∧
          t.exit key nowUs = { t with
            exited := t.exited + 1
            pending := Function.update t.pending slot none
            matched := t.matched + 1
            lastUs := nowUs - entry.enteredUs
            maxUs := max t.maxUs (nowUs - entry.enteredUs) })) := by
  unfold exit pairOf
  dsimp only
  by_cases hblocked : key = FrameKey.noKey ∨ t.ambiguous = true
  · left
    rw [if_pos hblocked, if_pos hblocked]
    exact ⟨rfl, hblocked.imp_right Or.inl, rfl⟩
  rw [if_neg hblocked, if_neg hblocked]
  rw [not_or, Bool.not_eq_true] at hblocked
  have hfind : ({ t with exited := t.exited + 1 } : PbTiming).find key = t.find key := rfl
  rw [hfind]
  cases t.find key with
  | none =>
      left
      exact ⟨rfl, Or.inr (Or.inr rfl), rfl⟩
  | some found =>
      right
      obtain ⟨slot, entry⟩ := found
      refine ⟨slot, entry, hblocked.1, hblocked.2, rfl, ?_⟩
      dsimp only
      by_cases hearly : nowUs < entry.enteredUs
      · left
        rw [if_pos hearly, if_pos hearly]
        exact ⟨hearly, rfl, rfl⟩
      · right
        rw [if_neg hearly, if_neg hearly]
        exact ⟨hearly, rfl, rfl⟩

end Slots

/-! ## The counters -/

/-- The calls of a run for which the predicate holds. -/
def countSteps (p : PbTiming → TimingCall → Bool) : PbTiming → List TimingCall → Nat
  | _, [] => 0
  | t, c :: rest => (if p t c then 1 else 0) + countSteps p (t.call c) rest

def isExit (_ : PbTiming) : TimingCall → Bool
  | .exit _ _ => true
  | _ => false

/-- The exit is matched. -/
def matchedExit (t : PbTiming) (c : TimingCall) : Bool := (t.pairOf c).isSome

/-- The exit is counted as unmatched. -/
def unmatchedExit (t : PbTiming) (c : TimingCall) : Bool :=
  isExit t c && decide ((t.call c).unmatched ≠ t.unmatched)

/-- The exit is counted as invalid. -/
def invalidExit (t : PbTiming) (c : TimingCall) : Bool :=
  isExit t c && decide ((t.call c).invalid ≠ t.invalid)

section Counters

variable {t : PbTiming} {c : TimingCall} {calls : List TimingCall}

/-- A counter that a call moves by one where the predicate holds. -/
theorem counter_run (counter : PbTiming → UInt64) (p : PbTiming → TimingCall → Bool)
    (hstep : ∀ t c, counter (t.call c) = counter t + if p t c then 1 else 0)
    (t : PbTiming) (calls : List TimingCall) :
    counter (t.run calls) = counter t + UInt64.ofNat (countSteps p t calls) := by
  induction calls generalizing t with
  | nil => exact (UInt64.add_zero _).symm
  | cons c rest ih =>
      have hrest := ih (t.call c)
      rw [hstep t c, UInt64.add_assoc] at hrest
      rw [countSteps, UInt64.ofNat_add]
      refine hrest.trans ?_
      split <;> rfl

/-- An enter leaves the counters of the exits alone. -/
theorem enter_counters (t : PbTiming) (key nowUs : UInt64) :
    (t.enter key nowUs).exited = t.exited ∧ (t.enter key nowUs).matched = t.matched ∧
      (t.enter key nowUs).unmatched = t.unmatched ∧ (t.enter key nowUs).lastUs = t.lastUs ∧
      (t.enter key nowUs).maxUs = t.maxUs := by
  unfold enter
  dsimp only
  split
  · exact ⟨rfl, rfl, rfl, rfl, rfl⟩
  split
  · exact ⟨rfl, rfl, rfl, rfl, rfl⟩
  · exact ⟨rfl, rfl, rfl, rfl, rfl⟩

/-- What one exit adds to the four counters. -/
theorem exit_counters (t : PbTiming) (key nowUs : UInt64) :
    (t.exit key nowUs).exited = t.exited + 1 ∧
      (t.exit key nowUs).matched =
        t.matched + (if matchedExit t (.exit key nowUs) then 1 else 0) ∧
      (t.exit key nowUs).unmatched =
        t.unmatched + (if unmatchedExit t (.exit key nowUs) then 1 else 0) ∧
      1 = (if matchedExit t (.exit key nowUs) then 1 else 0) +
        (if unmatchedExit t (.exit key nowUs) then 1 else 0) +
        (if invalidExit t (.exit key nowUs) then 1 else 0) := by
  unfold matchedExit unmatchedExit invalidExit isExit call
  rcases exit_cases t key nowUs with ⟨hpair, -, heq⟩ |
    ⟨slot, entry, -, -, -, ⟨-, hpair, heq⟩ | ⟨-, hpair, heq⟩⟩
  · simp [hpair, heq]
  · simp [hpair, heq]
  · simp [hpair, heq]

theorem call_exited (t : PbTiming) (c : TimingCall) :
    (t.call c).exited = t.exited + if isExit t c then 1 else 0 := by
  cases c with
  | enter key nowUs => exact (enter_counters t key nowUs).1.trans (UInt64.add_zero _).symm
  | exit key nowUs => exact (exit_counters t key nowUs).1
  | discontinuity => exact (UInt64.add_zero _).symm

theorem call_matched (t : PbTiming) (c : TimingCall) :
    (t.call c).matched = t.matched + if matchedExit t c then 1 else 0 := by
  cases c with
  | enter key nowUs => exact (enter_counters t key nowUs).2.1.trans (UInt64.add_zero _).symm
  | exit key nowUs => exact (exit_counters t key nowUs).2.1
  | discontinuity => exact (UInt64.add_zero _).symm

theorem call_unmatched (t : PbTiming) (c : TimingCall) :
    (t.call c).unmatched = t.unmatched + if unmatchedExit t c then 1 else 0 := by
  cases c with
  | enter key nowUs => exact (enter_counters t key nowUs).2.2.1.trans (UInt64.add_zero _).symm
  | exit key nowUs => exact (exit_counters t key nowUs).2.2.1
  | discontinuity => exact (UInt64.add_zero _).symm

/-- Each exit is matched, unmatched or invalid. -/
theorem countSteps_exit (t : PbTiming) (calls : List TimingCall) :
    countSteps isExit t calls = countSteps matchedExit t calls + countSteps unmatchedExit t calls +
      countSteps invalidExit t calls := by
  induction calls generalizing t with
  | nil => rfl
  | cons c rest ih =>
      simp only [countSteps, ih]
      have hone : (if isExit t c then 1 else 0) = (if matchedExit t c then 1 else 0) +
          (if unmatchedExit t c then 1 else 0) + (if invalidExit t c then 1 else 0) := by
        cases c with
        | exit key nowUs => exact (exit_counters t key nowUs).2.2.2
        | enter key nowUs => rfl
        | discontinuity => rfl
      omega

theorem length_pairs (t : PbTiming) (calls : List TimingCall) :
    (t.pairs calls).length = countSteps matchedExit t calls := by
  induction calls generalizing t with
  | nil => rfl
  | cons c rest ih =>
      rw [pairs, List.length_append, ih, countSteps, matchedExit]
      cases t.pairOf c <;> rfl

end Counters

/-! ## The longest and the latest -/

section Elapsed

variable {t : PbTiming} {c : TimingCall} {p : TimingPair}

theorem le_max_left' (a b : UInt64) : a ≤ max a b := by
  rw [UInt64.le_iff_toNat_le]
  change a.toNat ≤ (if a ≤ b then b else a).toNat
  split
  next h => exact UInt64.le_iff_toNat_le.mp h
  · exact le_refl _

theorem le_max_right' (a b : UInt64) : b ≤ max a b := by
  rw [UInt64.le_iff_toNat_le]
  change b.toNat ≤ (if a ≤ b then b else a).toNat
  split
  · exact le_refl _
  next h => exact UInt64.le_iff_toNat_le.mp (UInt64.le_of_lt (UInt64.not_le.mp h))

/-- What a call does to the two times. -/
theorem call_times (t : PbTiming) (c : TimingCall) :
    (t.pairOf c = none ∧ (t.call c).maxUs = t.maxUs ∧ (t.call c).lastUs = t.lastUs) ∨
      ∃ p, t.pairOf c = some p ∧ (t.call c).maxUs = max t.maxUs p.elapsed ∧
        (t.call c).lastUs = p.elapsed := by
  cases c with
  | enter key nowUs =>
      obtain ⟨-, -, -, hlast, hmax⟩ := enter_counters t key nowUs
      exact Or.inl ⟨rfl, hmax, hlast⟩
  | discontinuity => exact Or.inl ⟨rfl, rfl, rfl⟩
  | exit key nowUs =>
      rcases exit_cases t key nowUs with ⟨hpair, -, heq⟩ |
        ⟨slot, entry, -, -, -, ⟨-, hpair, heq⟩ | ⟨-, hpair, heq⟩⟩
      · left
        rw [call, heq]
        exact ⟨hpair, rfl, rfl⟩
      · left
        rw [call, heq]
        exact ⟨hpair, rfl, rfl⟩
      · right
        rw [call, heq]
        exact ⟨_, hpair, rfl, rfl⟩

theorem maxUs_le_run (t : PbTiming) (calls : List TimingCall) : t.maxUs ≤ (t.run calls).maxUs := by
  induction calls generalizing t with
  | nil => exact UInt64.le_refl _
  | cons c rest ih =>
      refine UInt64.le_trans ?_ (ih (t.call c))
      rcases call_times t c with ⟨-, hmax, -⟩ | ⟨p, -, hmax, -⟩
      · rw [hmax]
        exact UInt64.le_refl _
      · rw [hmax]
        exact le_max_left' _ _

/-- No matched time is longer than the longest. -/
theorem elapsed_le_maxUs (t : PbTiming) (calls : List TimingCall) :
    ∀ p ∈ t.pairs calls, p.elapsed ≤ (t.run calls).maxUs := by
  induction calls generalizing t with
  | nil => exact fun p hp => by cases hp
  | cons c rest ih =>
      intro p hp
      rcases List.mem_append.mp hp with hp | hp
      · refine UInt64.le_trans ?_ (maxUs_le_run (t.call c) rest)
        have hpair := Option.mem_toList.mp hp
        rcases call_times t c with ⟨hnone, -, -⟩ | ⟨q, hsome, hmax, -⟩
        · rw [hnone] at hpair
          cases hpair
        · rw [hsome] at hpair
          cases hpair
          rw [hmax]
          exact le_max_right' _ _
      · exact ih (t.call c) p hp

/-- The last time is that of the latest match. -/
theorem lastUs_run (t : PbTiming) (calls : List TimingCall) :
    (t.run calls).lastUs = ((t.pairs calls).getLast?.map TimingPair.elapsed).getD t.lastUs := by
  induction calls generalizing t with
  | nil => rfl
  | cons c rest ih =>
      have hrun : t.run (c :: rest) = (t.call c).run rest := rfl
      rw [hrun, ih, pairs, List.getLast?_append]
      cases ((t.call c).pairs rest).getLast? with
      | some p => rfl
      | none =>
          rcases call_times t c with ⟨hnone, -, hlast⟩ | ⟨p, hsome, -, hlast⟩
          · rw [hnone, hlast]
            rfl
          · rw [hsome, hlast]
            rfl

end Elapsed

end PbTiming

/-! ## The keys of the used entries -/

/-- The used entries have keys of their own. -/
structure Keyed (t : PbTiming) : Prop where
  keyed : ∀ slot e, t.pending slot = some e → e.key ≠ FrameKey.noKey
  distinct : ∀ slot slot' e e', t.pending slot = some e → t.pending slot' = some e' →
    e.key = e'.key → slot = slot'

section Keyed

variable {t t' : PbTiming} {slot other : TimingSlot} {e : TimingEntry} {key nowUs : UInt64}

theorem keyed_zero : Keyed PbTiming.zero where
  keyed := fun slot e h => by cases h
  distinct := fun slot slot' e e' h => by cases h

/-- What an updated table holds. -/
theorem pending_update {new : Option TimingEntry}
    (h : Function.update t.pending slot new other = some e) :
    (other = slot ∧ new = some e) ∨ (other ≠ slot ∧ t.pending other = some e) := by
  by_cases hother : other = slot
  · left
    rw [hother, Function.update_self] at h
    exact ⟨hother, h⟩
  · right
    rw [Function.update_of_ne hother] at h
    exact ⟨hother, h⟩

/-- A new key can take any slot. -/
theorem Keyed.put (h : Keyed t) (hkey : key ≠ FrameKey.noKey) (hfind : t.find key = none)
    (hpending : t'.pending = Function.update t.pending slot (some ⟨key, nowUs⟩)) : Keyed t' := by
  have hother : ∀ slot e, t.pending slot = some e → e.key ≠ key :=
    fun slot e he => PbTiming.find_none hfind he
  constructor
  · intro slot e he
    rw [hpending] at he
    rcases pending_update he with ⟨-, hnew⟩ | ⟨-, hold⟩
    · cases hnew
      exact hkey
    · exact h.keyed slot e hold
  · intro slot slot' e e' he he' hsame
    rw [hpending] at he he'
    rcases pending_update he with ⟨hslot, hnew⟩ | ⟨-, hold⟩
    · rcases pending_update he' with ⟨hslot', -⟩ | ⟨-, hold'⟩
      · rw [hslot, hslot']
      · cases hnew
        exact absurd hsame.symm (hother slot' e' hold')
    · rcases pending_update he' with ⟨-, hnew'⟩ | ⟨-, hold'⟩
      · cases hnew'
        exact absurd hsame (hother slot e hold)
      · exact h.distinct slot slot' e e' hold hold' hsame

/-- What is left when a slot is emptied. -/
theorem pending_taken (hpending : t'.pending = Function.update t.pending slot none)
    (he : t'.pending other = some e) : other ≠ slot ∧ t.pending other = some e := by
  rw [hpending] at he
  rcases pending_update he with ⟨-, hnone⟩ | hother
  · cases hnone
  · exact hother

theorem Keyed.take (h : Keyed t) (hpending : t'.pending = Function.update t.pending slot none) :
    Keyed t' := by
  constructor
  · exact fun other e he => h.keyed other e (pending_taken hpending he).2
  · exact fun s s' e e' he he' =>
      h.distinct s s' e e' (pending_taken hpending he).2 (pending_taken hpending he').2

theorem Keyed.same (h : Keyed t) (hpending : t'.pending = t.pending) : Keyed t' := by
  constructor
  · rw [hpending]
    exact h.keyed
  · rw [hpending]
    exact h.distinct

theorem Keyed.call (h : Keyed t) (c : TimingCall) : Keyed (t.call c) := by
  cases c with
  | enter key nowUs =>
      rcases t.enter_cases key nowUs with ⟨hpending, -⟩ | ⟨hkey, -, hfind, heq⟩
      · exact h.same hpending
      · exact h.put hkey hfind (congrArg PbTiming.pending heq)
  | exit key nowUs =>
      rcases t.exit_cases key nowUs with ⟨-, -, heq⟩ |
        ⟨slot, entry, -, -, -, ⟨-, -, heq⟩ | ⟨-, -, heq⟩⟩
      · rw [PbTiming.call, heq]
        exact h.same rfl
      · rw [PbTiming.call, heq]
        exact h.take rfl
      · rw [PbTiming.call, heq]
        exact h.take rfl
  | discontinuity =>
      constructor
      · intro slot e he
        cases he
      · intro slot slot' e e' he
        cases he

end Keyed

/-! ## What a match pairs -/

/-- The call takes or leaves an entry of the key, or clears the table. -/
def TimingCall.concerns (key : UInt64) : TimingCall → Bool
  | .enter other _ => decide (other = key)
  | .exit other _ => decide (other = key)
  | .discontinuity => true

/-- The entry is from the last call that concerns its key. -/
def Recent (calls : List TimingCall) (e : TimingEntry) : Prop :=
  ∃ before between, calls = before ++ .enter e.key e.enteredUs :: between ∧
    ∀ c ∈ between, c.concerns e.key = false

/-- While nothing is ambiguous, each used entry is from the last call that
concerns its key. -/
structure Sound (t : PbTiming) (calls : List TimingCall) : Prop extends Keyed t where
  recent : t.ambiguous = false → ∀ slot e, t.pending slot = some e → Recent calls e

section Sound

variable {t t' : PbTiming} {calls : List TimingCall} {key nowUs : UInt64} {e : TimingEntry}

theorem Recent.snoc (h : Recent calls e) {c : TimingCall} (hc : c.concerns e.key = false) :
    Recent (calls ++ [c]) e := by
  obtain ⟨before, between, hcalls, hquiet⟩ := h
  refine ⟨before, between ++ [c], by rw [hcalls]; simp, ?_⟩
  intro d hd
  rcases List.mem_append.mp hd with hd | hd
  · exact hquiet d hd
  · rw [List.mem_singleton.mp hd]
    exact hc

theorem Sound.recent_enter (h : Sound t calls) (hclear : (t.enter key nowUs).ambiguous = false) :
    ∀ slot e, (t.enter key nowUs).pending slot = some e →
      Recent (calls ++ [.enter key nowUs]) e := by
  intro slot e he
  rcases t.enter_cases key nowUs with ⟨hpending, -, hwhy⟩ | ⟨-, hopen, hfind, heq⟩
  · rw [hpending] at he
    rcases hwhy with ⟨hnone, hsame⟩ | ⟨hambiguous, -⟩
    · refine (h.recent (hsame ▸ hclear) slot e he).snoc (decide_eq_false ?_)
      rw [hnone]
      exact fun heq => h.keyed slot e he heq.symm
    · rw [hambiguous] at hclear
      cases hclear
  · rw [heq] at he
    rcases pending_update he with ⟨-, hnew⟩ | ⟨-, hold⟩
    · cases hnew
      exact ⟨calls, [], rfl, fun c hc => by cases hc⟩
    · exact (h.recent hopen slot e hold).snoc
        (decide_eq_false fun heq => PbTiming.find_none hfind hold heq.symm)

/-- The table without the entry of the key. -/
theorem Sound.recent_take (h : Sound t calls) (hopen : t.ambiguous = false) {slot : TimingSlot}
    {entry : TimingEntry} (hfind : t.find key = some (slot, entry))
    (hpending : t'.pending = Function.update t.pending slot none) :
    ∀ slot e, t'.pending slot = some e → Recent (calls ++ [.exit key nowUs]) e := by
  obtain ⟨hslot, hentry⟩ := PbTiming.find_some hfind
  intro other e he
  obtain ⟨hne, hkept⟩ := pending_taken hpending he
  refine (h.recent hopen other e hkept).snoc (decide_eq_false ?_)
  intro hsame
  exact hne (h.distinct other slot e entry hkept hslot (hsame.symm.trans hentry.symm))

theorem Sound.recent_exit (h : Sound t calls) (hclear : (t.exit key nowUs).ambiguous = false) :
    ∀ slot e, (t.exit key nowUs).pending slot = some e →
      Recent (calls ++ [.exit key nowUs]) e := by
  rcases t.exit_cases key nowUs with ⟨-, hwhy, heq⟩ |
    ⟨slot, entry, -, hopen, hfind, ⟨-, -, heq⟩ | ⟨-, -, heq⟩⟩
  · rw [heq] at hclear ⊢
    intro slot e he
    refine (h.recent hclear slot e he).snoc (decide_eq_false ?_)
    rcases hwhy with hkey | hambiguous | hfind
    · rw [hkey]
      exact fun heq => h.keyed slot e he heq.symm
    · rw [show PbTiming.ambiguous _ = t.ambiguous from rfl, hambiguous] at hclear
      cases hclear
    · exact fun heq => PbTiming.find_none hfind he heq.symm
  · exact h.recent_take hopen hfind (congrArg PbTiming.pending heq)
  · exact h.recent_take hopen hfind (congrArg PbTiming.pending heq)

theorem Sound.call (h : Sound t calls) (c : TimingCall) : Sound (t.call c) (calls ++ [c]) := by
  refine ⟨h.toKeyed.call c, ?_⟩
  intro hclear
  cases c with
  | enter key nowUs => exact h.recent_enter hclear
  | exit key nowUs => exact h.recent_exit hclear
  | discontinuity =>
      intro slot e he
      cases he

theorem sound_run (calls : List TimingCall) : Sound (PbTiming.zero.run calls) calls := by
  induction calls using List.reverseRecOn with
  | nil => exact ⟨keyed_zero, fun _ slot e h => by cases h⟩
  | append_singleton calls c ih =>
      have hrun : PbTiming.zero.run (calls ++ [c]) = (PbTiming.zero.run calls).call c := by
        rw [PbTiming.run, List.foldl_append]
        rfl
      rw [hrun]
      exact ih.call c

end Sound

/-! ## The map without bounds -/

/-- The entries that are live: entered, and since then neither exited nor
cleared. -/
structure TimingMap where
  live : List TimingEntry
deriving DecidableEq, Repr

namespace TimingMap

def empty : TimingMap := ⟨[]⟩

def call (m : TimingMap) : TimingCall → TimingMap
  | .enter key nowUs =>
      if key = FrameKey.noKey then m
      else ⟨m.live.filter (fun e => decide (e.key ≠ key)) ++ [⟨key, nowUs⟩]⟩
  | .exit key _ => ⟨m.live.filter fun e => decide (e.key ≠ key)⟩
  | .discontinuity => empty

/-- The pair that a call matches. -/
def pairOf (m : TimingMap) : TimingCall → Option TimingPair
  | .exit key nowUs =>
      match m.live.find? fun e => decide (e.key = key) with
      | none => none
      | some e => if nowUs < e.enteredUs then none else some ⟨key, e.enteredUs, nowUs⟩
  | _ => none

def pairs (m : TimingMap) : List TimingCall → List TimingPair
  | [] => []
  | c :: rest => (m.pairOf c).toList ++ (m.call c).pairs rest

/-- The call does not repeat a live key, and at most 64 entries are live behind
it. -/
def Admits (m : TimingMap) : TimingCall → Prop
  | .enter key _ =>
      key ≠ FrameKey.noKey → (∀ e ∈ m.live, e.key ≠ key) ∧ m.live.length + 1 ≤ 64
  | _ => True

/-- Each call of the run does. -/
def AdmitsAll (m : TimingMap) : List TimingCall → Prop
  | [] => True
  | c :: rest => m.Admits c ∧ (m.call c).AdmitsAll rest

end TimingMap

/-- The table holds the live entries, and has lost none. -/
structure Holds (t : PbTiming) (m : TimingMap) : Prop extends Keyed t where
  clear : t.ambiguous = false
  kept : t.evicted = 0
  same : ∀ e, e ∈ m.live ↔ ∃ slot, t.pending slot = some e

section Holds

variable {t t' : PbTiming} {m : TimingMap} {key nowUs : UInt64} {e e' : TimingEntry}

theorem holds_zero : Holds PbTiming.zero TimingMap.empty := by
  refine ⟨keyed_zero, rfl, rfl, ?_⟩
  intro e
  constructor
  · intro h
    cases h
  · rintro ⟨slot, h⟩
    cases h

/-- A live entry has its key alone. -/
theorem Holds.unique (h : Holds t m) (he : e ∈ m.live) (he' : e' ∈ m.live)
    (hkey : e.key = e'.key) : e = e' := by
  obtain ⟨slot, hslot⟩ := (h.same e).mp he
  obtain ⟨slot', hslot'⟩ := (h.same e').mp he'
  obtain rfl := h.distinct slot slot' e e' hslot hslot' hkey
  rw [hslot] at hslot'
  exact Option.some.inj hslot'

/-- Fewer than 64 live entries leave a slot free. -/
theorem Holds.exists_free (h : Holds t m) (hroom : m.live.length < 64) :
    ∃ slot, t.pending slot = none := by
  by_contra hfull
  have hused : ∀ slot, ∃ e, t.pending slot = some e := by
    intro slot
    exact Option.ne_none_iff_exists'.mp fun hnone => hfull ⟨slot, hnone⟩
  choose entry hentry using hused
  have hinjective : Function.Injective entry := by
    intro slot slot' heq
    exact h.distinct slot slot' _ _ (hentry slot) (hentry slot') (by rw [heq])
  have hsubset : Finset.univ.image entry ⊆ m.live.toFinset := by
    intro e he
    obtain ⟨slot, -, rfl⟩ := Finset.mem_image.mp he
    exact List.mem_toFinset.mpr ((h.same _).mpr ⟨slot, hentry slot⟩)
  have hcard := Finset.card_le_card hsubset
  rw [Finset.card_image_of_injective _ hinjective, Finset.card_univ, Fintype.card_fin] at hcard
  exact absurd (hcard.trans m.live.toFinset_card_le) (by omega)

theorem Holds.enter (h : Holds t m) (hadmits : m.Admits (.enter key nowUs)) :
    Holds (t.enter key nowUs) (m.call (.enter key nowUs)) := by
  have hkeyed := h.toKeyed.call (.enter key nowUs)
  rcases t.enter_cases key nowUs with ⟨hpending, hevicted, hwhy⟩ | ⟨hkey, -, hfind, heq⟩
  · by_cases hkey : key = FrameKey.noKey
    · have hclear : (t.enter key nowUs).ambiguous = false := by
        rcases hwhy with ⟨-, hsame⟩ | ⟨-, hambiguous | ⟨slot, entry, hslot, hentry⟩⟩
        · rw [hsame]
          exact h.clear
        · rw [h.clear] at hambiguous
          cases hambiguous
        · exact absurd (hentry.trans hkey) (h.keyed slot entry hslot)
      have hlive : m.call (.enter key nowUs) = m := if_pos hkey
      rw [hlive]
      refine ⟨hkeyed, hclear, hevicted.trans h.kept, ?_⟩
      rw [hpending]
      exact h.same
    · exfalso
      rcases hwhy with ⟨hnone, -⟩ | ⟨-, hambiguous | ⟨slot, entry, hslot, hentry⟩⟩
      · exact hkey hnone
      · rw [h.clear] at hambiguous
        cases hambiguous
      · exact (hadmits hkey).1 entry ((h.same entry).mpr ⟨slot, hslot⟩) hentry
  · obtain ⟨hfresh, hroom⟩ := hadmits hkey
    obtain ⟨slot, hslot⟩ := h.exists_free hroom
    have hfree := PbTiming.freeSlot_free hslot
    have hlive : m.call (.enter key nowUs) = ⟨m.live ++ [⟨key, nowUs⟩]⟩ := by
      rw [TimingMap.call, if_neg hkey, List.filter_eq_self.mpr]
      exact fun e he => decide_eq_true (hfresh e he)
    have hpending := congrArg PbTiming.pending heq
    refine ⟨hkeyed, ?_, ?_, ?_⟩
    · rw [heq]
      exact h.clear
    · rw [heq, hfree]
      exact h.kept
    · intro e
      rw [hlive, List.mem_append, List.mem_singleton, h.same, hpending]
      constructor
      · rintro (⟨slot, he⟩ | rfl)
        · have hne : slot ≠ t.freeSlot := by
            rintro rfl
            rw [hfree] at he
            cases he
          exact ⟨slot, (Function.update_of_ne hne _ _).trans he⟩
        · exact ⟨t.freeSlot, Function.update_self _ _ _⟩
      · rintro ⟨slot, he⟩
        rcases pending_update he with ⟨-, hnew⟩ | ⟨-, hold⟩
        · right
          cases hnew
          rfl
        · exact Or.inl ⟨slot, hold⟩

/-- The entry of a key is taken from both. -/
theorem Holds.take (h : Holds t m) {slot : TimingSlot} {entry : TimingEntry}
    (hfind : t.find key = some (slot, entry))
    (hpending : t'.pending = Function.update t.pending slot none)
    (hclear : t'.ambiguous = t.ambiguous) (hkept : t'.evicted = t.evicted) :
    Holds t' (m.call (.exit key nowUs)) := by
  obtain ⟨hslot, hentry⟩ := PbTiming.find_some hfind
  refine ⟨h.toKeyed.take hpending, hclear.trans h.clear, hkept.trans h.kept, ?_⟩
  intro e
  have hmem : e ∈ (m.call (.exit key nowUs)).live ↔ e ∈ m.live ∧ e.key ≠ key := by
    rw [TimingMap.call, List.mem_filter, decide_eq_true_iff]
  rw [hmem, h.same]
  constructor
  · rintro ⟨⟨other, he⟩, hne⟩
    have hother : other ≠ slot := by
      rintro rfl
      rw [hslot] at he
      cases he
      exact hne hentry
    refine ⟨other, ?_⟩
    rw [hpending, Function.update_of_ne hother]
    exact he
  · rintro ⟨other, he⟩
    obtain ⟨hother, hold⟩ := pending_taken hpending he
    refine ⟨⟨other, hold⟩, fun hkey => hother ?_⟩
    exact h.distinct other slot e entry hold hslot (hkey.trans hentry.symm)

/-- The live entry of a key is the one that the table finds. -/
theorem Holds.find (h : Holds t m) : (m.live.find? fun e => decide (e.key = key)) =
    (t.find key).map Prod.snd := by
  cases hfind : t.find key with
  | none =>
      rw [Option.map_none, List.find?_eq_none]
      intro e he
      obtain ⟨slot, hslot⟩ := (h.same e).mp he
      simpa using PbTiming.find_none hfind hslot
  | some found =>
      obtain ⟨slot, entry⟩ := found
      obtain ⟨hslot, hentry⟩ := PbTiming.find_some hfind
      have hmem : entry ∈ m.live := (h.same entry).mpr ⟨slot, hslot⟩
      obtain ⟨e, he⟩ : ∃ e, (m.live.find? fun e => decide (e.key = key)) = some e := by
        rw [← Option.isSome_iff_exists, List.find?_isSome]
        exact ⟨entry, hmem, decide_eq_true hentry⟩
      have hkey : e.key = key := by simpa using List.find?_some he
      rw [he, h.unique (List.mem_of_find?_eq_some he) hmem (hkey.trans hentry.symm)]
      rfl

theorem Holds.exit (h : Holds t m) :
    t.pairOf (.exit key nowUs) = m.pairOf (.exit key nowUs) ∧
      Holds (t.exit key nowUs) (m.call (.exit key nowUs)) := by
  have hfind : (m.live.find? fun e => decide (e.key = key)) = (t.find key).map Prod.snd := h.find
  rcases t.exit_cases key nowUs with ⟨hpair, hwhy, heq⟩ |
    ⟨slot, entry, -, -, hsome, hcases⟩
  · have hnone : t.find key = none := by
      rcases hwhy with hkey | hambiguous | hnone
      · cases hsome : t.find key with
        | none => rfl
        | some found =>
            obtain ⟨slot, entry⟩ := found
            obtain ⟨hslot, hentry⟩ := PbTiming.find_some hsome
            exact absurd (hentry.trans hkey) (h.keyed _ _ hslot)
      · rw [h.clear] at hambiguous
        cases hambiguous
      · exact hnone
    rw [hnone, Option.map_none] at hfind
    have hlive : m.call (.exit key nowUs) = m := by
      rw [TimingMap.call, List.filter_eq_self.mpr]
      intro e he
      simpa using List.find?_eq_none.mp hfind e he
    rw [hlive, heq]
    refine ⟨?_, h.toKeyed.same rfl, h.clear, h.kept, h.same⟩
    rw [hpair, TimingMap.pairOf, hfind]
  · rw [hsome, Option.map_some] at hfind
    have hpairs : m.pairOf (.exit key nowUs) =
        if nowUs < entry.enteredUs then none else some ⟨key, entry.enteredUs, nowUs⟩ := by
      rw [TimingMap.pairOf, hfind]
    rcases hcases with ⟨hearly, hpair, heq⟩ | ⟨hlate, hpair, heq⟩
    · rw [hpairs, if_pos hearly, heq]
      exact ⟨hpair, h.take hsome rfl rfl rfl⟩
    · rw [hpairs, if_neg hlate, heq]
      exact ⟨hpair, h.take hsome rfl rfl rfl⟩

theorem Holds.call (h : Holds t m) {c : TimingCall} (hadmits : m.Admits c) :
    t.pairOf c = m.pairOf c ∧ Holds (t.call c) (m.call c) := by
  cases c with
  | enter key nowUs => exact ⟨rfl, h.enter hadmits⟩
  | exit key nowUs => exact h.exit
  | discontinuity =>
      refine ⟨rfl, h.toKeyed.call .discontinuity, rfl, h.kept, ?_⟩
      exact holds_zero.same

/-- A table that is never full and sees no key twice is the map. -/
theorem Holds.run {calls : List TimingCall} (h : Holds t m) (hadmits : m.AdmitsAll calls) :
    t.pairs calls = m.pairs calls ∧ (t.run calls).evicted = 0 := by
  induction calls generalizing t m with
  | nil => exact ⟨rfl, h.kept⟩
  | cons c rest ih =>
      obtain ⟨hpair, hnext⟩ := h.call hadmits.1
      obtain ⟨hpairs, hkept⟩ := ih hnext hadmits.2
      refine ⟨?_, hkept⟩
      rw [PbTiming.pairs, TimingMap.pairs, hpair, hpairs]

end Holds

/-! ## The honest table -/

/-- The exit of a key is paired with its one live enter: the last call before it
that concerns the key. The entry is gone behind it. -/
structure PairedOnce (before : List TimingCall) (key nowUs : UInt64) (p : TimingPair) : Prop where
  sameKey : p.key = key
  now : p.nowUs = nowUs
  order : p.enteredUs ≤ nowUs
  recent : Recent before ⟨key, p.enteredUs⟩
  only : ∃ slot, (PbTiming.zero.run before).pending slot = some ⟨key, p.enteredUs⟩ ∧
    ∀ slot' e, (PbTiming.zero.run before).pending slot' = some e → e.key = key → slot' = slot
  gone : ∀ slot e, ((PbTiming.zero.run before).exit key nowUs).pending slot = some e → e.key ≠ key

theorem paired_once {before : List TimingCall} {key nowUs : UInt64} {p : TimingPair}
    (h : (PbTiming.zero.run before).pairOf (.exit key nowUs) = some p) :
    PairedOnce before key nowUs p := by
  have hsound := sound_run before
  rcases PbTiming.exit_cases (PbTiming.zero.run before) key nowUs with ⟨hpair, -⟩ |
    ⟨slot, entry, -, hopen, hfind, ⟨-, hpair, -⟩ | ⟨hlate, hpair, heq⟩⟩
  · rw [hpair] at h
    cases h
  · rw [hpair] at h
    cases h
  · rw [hpair] at h
    cases h
    obtain ⟨hslot, rfl⟩ := PbTiming.find_some hfind
    refine ⟨rfl, rfl, UInt64.not_lt.mp hlate, hsound.recent hopen slot entry hslot, ?_, ?_⟩
    · exact ⟨slot, hslot, fun slot' e he hkey => hsound.distinct slot' slot e entry he hslot hkey⟩
    · intro other e he hkey
      rw [heq] at he
      obtain ⟨hother, hold⟩ := pending_taken rfl he
      exact hother (hsound.distinct other slot e entry hold hslot hkey)

/-- What holds of the table behind any calls. -/
structure Honest (calls : List TimingCall) : Prop where
  distinct : ∀ slot slot' e e', (PbTiming.zero.run calls).pending slot = some e →
    (PbTiming.zero.run calls).pending slot' = some e' → e.key = e'.key → slot = slot'
  paired : ∀ before key nowUs after p, calls = before ++ .exit key nowUs :: after →
    (PbTiming.zero.run before).pairOf (.exit key nowUs) = some p → PairedOnce before key nowUs p
  exits : PbTiming.countSteps PbTiming.isExit PbTiming.zero calls =
    (PbTiming.zero.pairs calls).length +
      PbTiming.countSteps PbTiming.unmatchedExit PbTiming.zero calls +
      PbTiming.countSteps PbTiming.invalidExit PbTiming.zero calls
  exited : (PbTiming.zero.run calls).exited =
    UInt64.ofNat (PbTiming.countSteps PbTiming.isExit PbTiming.zero calls)
  matched : (PbTiming.zero.run calls).matched =
    UInt64.ofNat (PbTiming.zero.pairs calls).length
  unmatched : (PbTiming.zero.run calls).unmatched =
    UInt64.ofNat (PbTiming.countSteps PbTiming.unmatchedExit PbTiming.zero calls)
  balance : (PbTiming.zero.run calls).exited =
    (PbTiming.zero.run calls).matched + (PbTiming.zero.run calls).unmatched +
      UInt64.ofNat (PbTiming.countSteps PbTiming.invalidExit PbTiming.zero calls)
  longest : ∀ p ∈ PbTiming.zero.pairs calls, p.elapsed ≤ (PbTiming.zero.run calls).maxUs
  latest : ∀ p, (PbTiming.zero.pairs calls).getLast? = some p →
    (PbTiming.zero.run calls).lastUs = p.elapsed
  unbounded : TimingMap.empty.AdmitsAll calls →
    PbTiming.zero.pairs calls = TimingMap.empty.pairs calls ∧
      (PbTiming.zero.run calls).evicted = 0

/-- In every run of calls the table matches honestly. -/
theorem timing_table_honest (calls : List TimingCall) : Honest calls := by
  have hexits := PbTiming.countSteps_exit PbTiming.zero calls
  rw [← PbTiming.length_pairs] at hexits
  have hexited : (PbTiming.zero.run calls).exited =
      UInt64.ofNat (PbTiming.countSteps PbTiming.isExit PbTiming.zero calls) :=
    (PbTiming.counter_run PbTiming.exited _ PbTiming.call_exited _ calls).trans (UInt64.zero_add _)
  have hmatched : (PbTiming.zero.run calls).matched =
      UInt64.ofNat (PbTiming.zero.pairs calls).length := by
    rw [PbTiming.length_pairs]
    exact (PbTiming.counter_run PbTiming.matched _ PbTiming.call_matched _ calls).trans
      (UInt64.zero_add _)
  have hunmatched : (PbTiming.zero.run calls).unmatched =
      UInt64.ofNat (PbTiming.countSteps PbTiming.unmatchedExit PbTiming.zero calls) :=
    (PbTiming.counter_run PbTiming.unmatched _ PbTiming.call_unmatched _ calls).trans
      (UInt64.zero_add _)
  constructor
  · exact (sound_run calls).distinct
  · exact fun before key nowUs after p _ hpair => paired_once hpair
  · exact hexits
  · exact hexited
  · exact hmatched
  · exact hunmatched
  · rw [hexited, hmatched, hunmatched, hexits, UInt64.ofNat_add, UInt64.ofNat_add]
  · exact PbTiming.elapsed_le_maxUs PbTiming.zero calls
  · intro p hp
    rw [PbTiming.lastUs_run, hp]
    rfl
  · exact holds_zero.run

end HccastWired.Telemetry
