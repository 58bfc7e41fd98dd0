import Mathlib

/-!
# The loss ledger of one boundary of the native pipeline

A ledger follows the frames between two probes. It keeps at most 64 frames
whose fate is open, in the order of their keys; a frame leaves the front of the
ledger when its push result and its disposition are both known. The reference
ledger at the end of the model forgets nothing.
-/

namespace HccastWired.Telemetry

/-- The identity of a frame at a boundary. -/
structure FrameKey where
  sequence : UInt64
  pts : UInt64
deriving DecidableEq, Repr

namespace FrameKey

/-- `UINT64_MAX`, which no valid key carries. -/
def noKey : UInt64 := 18446744073709551615

def after (a b : FrameKey) : Bool :=
  decide (b.sequence < a.sequence) ||
    (decide (a.sequence = b.sequence) && decide (b.pts < a.pts))

def valid (key : FrameKey) : Bool :=
  decide (key.sequence ≠ noKey) && decide (key.pts ≠ noKey)

theorem after_iff {a b : FrameKey} :
    a.after b = true ↔
      b.sequence < a.sequence ∨ (a.sequence = b.sequence ∧ b.pts < a.pts) := by
  simp [after]

theorem after_trans {a b c : FrameKey} (hab : a.after b = true) (hbc : b.after c = true) :
    a.after c = true := by
  rw [after_iff] at hab hbc ⊢
  rcases hab with hab | ⟨hab, hpts⟩
  · rcases hbc with hbc | ⟨hbc, -⟩
    · exact Or.inl (UInt64.lt_trans hbc hab)
    · exact Or.inl (hbc ▸ hab)
  · rcases hbc with hbc | ⟨hbc, hpts'⟩
    · exact Or.inl (hab ▸ hbc)
    · exact Or.inr ⟨hab.trans hbc, UInt64.lt_trans hpts' hpts⟩

theorem ne_of_after {a b : FrameKey} (h : a.after b = true) : b ≠ a := by
  rintro rfl
  rw [after_iff] at h
  rcases h with h | ⟨-, h⟩ <;> exact UInt64.lt_irrefl _ h

end FrameKey

/-- What is known of the push of a frame. -/
inductive PushResult
  | pending
  | accepted
  | rejected
deriving DecidableEq, Repr

/-- What became of a frame behind the boundary. -/
inductive Disposition
  | pending
  | emitted
  | dropped
deriving DecidableEq, Repr

structure LossEntry where
  key : FrameKey
  result : PushResult
  disposition : Disposition
deriving DecidableEq, Repr

namespace LossEntry

/-- The entry is that of the key. -/
def has (key : FrameKey) (e : LossEntry) : Bool := decide (e.key = key)

/-- `retire` passes over the entry. -/
def settled (e : LossEntry) : Bool :=
  decide (e.result ≠ .pending) &&
    (decide (e.disposition ≠ .pending) || decide (e.result = .rejected))

/-- `retire` counts the entry as dropped. -/
def lost (e : LossEntry) : Bool :=
  decide (e.result = .accepted) && decide (e.disposition = .dropped)

/-- An output behind the entry, or the end of the stream, passes it over. -/
def skip (e : LossEntry) : LossEntry :=
  if e.disposition = .pending then { e with disposition := .dropped } else e

@[simp] theorem skip_key (e : LossEntry) : e.skip.key = e.key := by
  unfold skip
  split <;> rfl

@[simp] theorem skip_result (e : LossEntry) : e.skip.result = e.result := by
  unfold skip
  split <;> rfl

@[simp] theorem skip_emitted (e : LossEntry) :
    e.skip.disposition = .emitted ↔ e.disposition = .emitted := by
  unfold skip
  split
  next h => simp [h]
  next => exact Iff.rfl

end LossEntry

def lossCapacity : Nat := 64

/-- `PbLoss`: `has_enter` and `last_enter` are one option, and so are
`has_exit` and `last_exit`. -/
structure PbLoss where
  pending : List LossEntry
  lastEnter : Option FrameKey
  lastExit : Option FrameKey
  closed : Bool
  invalidReason : Option String
  attempts : UInt64
  accepted : UInt64
  rejected : UInt64
  emitted : UInt64
  dropped : UInt64
deriving DecidableEq, Repr

/-- The first element that is hit, with the elements before and after it. -/
def locate {α : Type*} (hit : α → Bool) : List α → Option (List α × α × List α)
  | [] => none
  | x :: rest =>
      if hit x then some ([], x, rest)
      else (locate hit rest).map fun found => (x :: found.1, found.2.1, found.2.2)

theorem locate_some {α : Type*} {hit : α → Bool} {items before after : List α} {x : α}
    (h : locate hit items = some (before, x, after)) :
    items = before ++ x :: after ∧ hit x = true := by
  induction items generalizing before with
  | nil => simp [locate] at h
  | cons first rest ih =>
      rw [locate] at h
      by_cases hfirst : hit first = true
      · rw [if_pos hfirst] at h
        obtain ⟨rfl, rfl, rfl⟩ : [] = before ∧ first = x ∧ rest = after := by
          simpa using h
        exact ⟨rfl, hfirst⟩
      · rw [if_neg hfirst] at h
        obtain ⟨⟨start, found, left⟩, hfound, heq⟩ := Option.map_eq_some_iff.mp h
        obtain ⟨rfl, rfl, rfl⟩ : first :: start = before ∧ found = x ∧ left = after := by
          simpa using heq
        have hrest := ih hfound
        exact ⟨congrArg (first :: ·) hrest.1, hrest.2⟩

/-- The loop of `retire`: the entries left, and the count of dropped frames. -/
def retireLoop : List LossEntry → UInt64 → List LossEntry × UInt64
  | [], dropped => ([], dropped)
  | e :: rest, dropped =>
      if e.settled then retireLoop rest (if e.lost then dropped + 1 else dropped)
      else (e :: rest, dropped)

theorem retireLoop_spec (entries : List LossEntry) (dropped : UInt64) :
    ∃ gone, entries = gone ++ (retireLoop entries dropped).1 ∧
      (∀ e ∈ gone, e.settled = true) ∧
      (retireLoop entries dropped).2 =
        dropped + UInt64.ofNat (gone.countP LossEntry.lost) := by
  induction entries generalizing dropped with
  | nil => exact ⟨[], rfl, by simp, by simp [retireLoop]⟩
  | cons e rest ih =>
      by_cases hsettled : e.settled = true
      · obtain ⟨gone, hrest, hgone, hcount⟩ := ih (if e.lost then dropped + 1 else dropped)
        refine ⟨e :: gone, ?_, ?_, ?_⟩
        · rw [retireLoop, if_pos hsettled]
          exact congrArg (e :: ·) hrest
        · intro x hx
          rcases List.mem_cons.mp hx with rfl | hx
          · exact hsettled
          · exact hgone x hx
        · rw [retireLoop, if_pos hsettled, hcount, List.countP_cons]
          by_cases hlost : e.lost = true
          · rw [if_pos hlost, if_pos hlost, UInt64.ofNat_add, add_assoc,
              add_comm (UInt64.ofNat _)]
            rfl
          · rw [if_neg hlost, if_neg hlost]
            rfl
      · refine ⟨[], ?_, by simp, ?_⟩
        · rw [retireLoop, if_neg hsettled]
          rfl
        · simp [retireLoop, hsettled]

namespace PbLoss

/-- A zeroed ledger. -/
def zero : PbLoss :=
  { pending := [], lastEnter := none, lastExit := none, closed := false, invalidReason := none
    attempts := 0, accepted := 0, rejected := 0, emitted := 0, dropped := 0 }

/-- The first reason stays. -/
def invalidate (l : PbLoss) (reason : String) : PbLoss :=
  { l with invalidReason := l.invalidReason.or (some reason) }

def retire (l : PbLoss) : PbLoss :=
  let left := retireLoop l.pending l.dropped
  { l with pending := left.1, dropped := left.2 }

/-- The key does not follow the last one of its side. -/
def stale (last : Option FrameKey) (key : FrameKey) : Bool :=
  match last with
  | some previous => !key.after previous
  | none => false

/-- `pb_loss_enter` once the key has been let in. -/
def append (l : PbLoss) (key : FrameKey) (awaitingPushResult : Bool) : PbLoss :=
  let entry := LossEntry.mk key (if awaitingPushResult then .pending else .accepted) .pending
  { l with
    pending := l.pending ++ [entry]
    accepted := if awaitingPushResult then l.accepted else l.accepted + 1 }

def attempt (l : PbLoss) : PbLoss := { l with attempts := l.attempts + 1 }

def enter (l : PbLoss) (key : FrameKey) (awaitingPushResult : Bool) : PbLoss :=
  if !key.valid then l.attempt.invalidate "missing-frame-key"
  else if l.closed then l.attempt.invalidate "input-after-eos"
  else if stale l.lastEnter key then l.attempt.invalidate "nonmonotonic-input-key"
  else if l.pending.length = lossCapacity then
    { l.attempt with lastEnter := some key }.invalidate "tracking-overflow"
  else { l.attempt with lastEnter := some key }.append key awaitingPushResult

/-- The answer of a push, written to its entry. -/
def answer (l : PbLoss) (before : List LossEntry) (e : LossEntry) (after : List LossEntry)
    (accepted : Bool) : PbLoss :=
  { l with
    pending := before ++ { e with result := if accepted then .accepted else .rejected } :: after
    accepted := if accepted then l.accepted + 1 else l.accepted
    rejected := if accepted then l.rejected else l.rejected + 1 }

/-- `pb_loss_push_result` at the entry of its key. -/
def settle (l : PbLoss) (before : List LossEntry) (e : LossEntry) (after : List LossEntry)
    (accepted : Bool) : PbLoss :=
  let l := l.answer before e after accepted
  if !accepted && decide (e.disposition = .emitted) then
    (l.invalidate "rejected-push-observed").retire
  else l.retire

def pushResult (l : PbLoss) (key : FrameKey) (accepted : Bool) : PbLoss :=
  match locate (LossEntry.has key) l.pending with
  | some (before, e, after) =>
      if e.result ≠ .pending then l.invalidate "duplicate-push-result"
      else l.settle before e after accepted
  | none => l.invalidate "push-result-without-attempt"

/-- The output of an entry: the open entries before it are passed over. -/
def pass (l : PbLoss) (before : List LossEntry) (e : LossEntry) (after : List LossEntry) :
    PbLoss :=
  { l with
    pending := before.map LossEntry.skip ++ { e with disposition := .emitted } :: after
    emitted := l.emitted + 1 }

/-- `pb_loss_exit` at the entry of its key. -/
def emit (l : PbLoss) (before : List LossEntry) (e : LossEntry) (after : List LossEntry) :
    PbLoss :=
  let l := l.pass before e after
  if e.result = .rejected then (l.invalidate "rejected-push-observed").retire else l.retire

/-- `pb_loss_exit` with a key that follows the last one. -/
def output (l : PbLoss) (key : FrameKey) : PbLoss :=
  match locate (LossEntry.has key) l.pending with
  | some (before, e, after) =>
      if e.disposition ≠ .pending then l.invalidate "repeated-output-key"
      else l.emit before e after
  | none => l.invalidate "output-without-input"

def exit (l : PbLoss) (key : FrameKey) : PbLoss :=
  if !key.valid then l.invalidate "missing-frame-key"
  else if l.closed then l.invalidate "output-after-eos"
  else if stale l.lastExit key then l.invalidate "nonmonotonic-output-key"
  else { l with lastExit := some key }.output key

def close (l : PbLoss) : PbLoss :=
  retire { l with closed := true, pending := l.pending.map LossEntry.skip }

def complete (l : PbLoss) : Bool :=
  l.closed && l.invalidReason.isNone && decide (l.pending.length = 0) &&
    decide (l.attempts = l.accepted + l.rejected) && decide (l.accepted = l.emitted + l.dropped)

end PbLoss

/-- A call on a ledger. -/
inductive LossCall
  | enter (key : FrameKey) (awaitingPushResult : Bool)
  | pushResult (key : FrameKey) (accepted : Bool)
  | exit (key : FrameKey)
  | close
deriving DecidableEq, Repr

def PbLoss.call (l : PbLoss) : LossCall → PbLoss
  | .enter key awaitingPushResult => l.enter key awaitingPushResult
  | .pushResult key accepted => l.pushResult key accepted
  | .exit key => l.exit key
  | .close => l.close

def PbLoss.run (calls : List LossCall) : PbLoss := calls.foldl PbLoss.call PbLoss.zero

/-- The unbounded ledger of the same calls. -/
structure Reference where
  entered : List FrameKey
  accepted : List FrameKey
  refused : List FrameKey
  exited : List FrameKey
deriving DecidableEq, Repr

namespace Reference

def empty : Reference := ⟨[], [], [], []⟩

def call (r : Reference) : LossCall → Reference
  | .enter key awaitingPushResult =>
      { r with
        entered := r.entered ++ [key]
        accepted := if awaitingPushResult then r.accepted else r.accepted ++ [key] }
  | .pushResult key accepted =>
      { r with
        accepted := if accepted then r.accepted ++ [key] else r.accepted
        refused := if accepted then r.refused else r.refused ++ [key] }
  | .exit key => { r with exited := r.exited ++ [key] }
  | .close => r

def run (calls : List LossCall) : Reference := calls.foldl Reference.call Reference.empty

/-- The accepted keys that never exited. -/
def dropped (r : Reference) : Finset FrameKey := r.accepted.toFinset \ r.exited.toFinset

end Reference

/-! ## The entries of any state -/

/-- The keys ascend up to the last one entered, and there is room for them. -/
structure Ascending (keys : List FrameKey) (last : Option FrameKey) : Prop where
  length : keys.length ≤ lossCapacity
  sorted : keys.Pairwise fun a b => b.after a = true
  last : ∀ k ∈ keys, ∃ key, last = some key ∧ (k = key ∨ key.after k = true)

theorem Ascending.sublist {keys keys' : List FrameKey} {last : Option FrameKey}
    (h : Ascending keys last) (hsub : keys'.Sublist keys) : Ascending keys' last where
  length := hsub.length_le.trans h.length
  sorted := h.sorted.sublist hsub
  last := fun k hk => h.last k (hsub.subset hk)

/-- A key that is not stale follows every key kept. -/
theorem after_of_not_stale {keys : List FrameKey} {last : Option FrameKey} {key : FrameKey}
    (hlast : ∀ k ∈ keys, ∃ previous, last = some previous ∧
      (k = previous ∨ previous.after k = true))
    (hstale : PbLoss.stale last key = false) : ∀ k ∈ keys, key.after k = true := by
  intro k hk
  obtain ⟨previous, rfl, hprevious⟩ := hlast k hk
  have hafter : key.after previous = true := by
    simpa [PbLoss.stale] using hstale
  rcases hprevious with rfl | hprevious
  · exact hafter
  · exact FrameKey.after_trans hafter hprevious

theorem Ascending.renew {keys : List FrameKey} {last : Option FrameKey} {key : FrameKey}
    (h : Ascending keys last) (hstale : PbLoss.stale last key = false) :
    Ascending keys (some key) where
  length := h.length
  sorted := h.sorted
  last := fun k hk => ⟨key, rfl, Or.inr (after_of_not_stale h.last hstale k hk)⟩

theorem Ascending.append {keys : List FrameKey} {last : Option FrameKey} {key : FrameKey}
    (h : Ascending keys last) (hstale : PbLoss.stale last key = false)
    (hroom : keys.length ≠ lossCapacity) : Ascending (keys ++ [key]) (some key) where
  length := by
    have hle := h.length
    rw [List.length_append, List.length_singleton]
    omega
  sorted := by
    refine List.pairwise_append.mpr ⟨h.sorted, List.pairwise_singleton _ _, ?_⟩
    intro k hk key' hkey
    rw [List.mem_singleton.mp hkey]
    exact after_of_not_stale h.last hstale k hk
  last := by
    intro k hk
    rcases List.mem_append.mp hk with hk | hk
    · exact (h.renew hstale).last k hk
    · exact ⟨key, rfl, Or.inl (List.mem_singleton.mp hk)⟩

namespace PbLoss

variable {l : PbLoss} {key : FrameKey} {b : Bool} {reason : String}

def keys (l : PbLoss) : List FrameKey := l.pending.map LossEntry.key

@[simp] theorem invalidate_pending : (l.invalidate reason).pending = l.pending := rfl

@[simp] theorem invalidate_keys : (l.invalidate reason).keys = l.keys := rfl

@[simp] theorem invalidate_lastEnter : (l.invalidate reason).lastEnter = l.lastEnter := rfl

theorem invalidate_ne_none : (l.invalidate reason).invalidReason ≠ none := by
  simp [invalidate]

@[simp] theorem retire_lastEnter : l.retire.lastEnter = l.lastEnter := rfl

@[simp] theorem retire_invalidReason : l.retire.invalidReason = l.invalidReason := rfl

theorem retire_keys : l.retire.keys.Sublist l.keys := by
  obtain ⟨gone, hgone, -, -⟩ := retireLoop_spec l.pending l.dropped
  have hsub : (retireLoop l.pending l.dropped).1.Sublist l.pending := by
    conv_rhs => rw [hgone]
    exact List.sublist_append_right _ _
  exact hsub.map LossEntry.key

theorem map_skip_keys (entries : List LossEntry) :
    (entries.map LossEntry.skip).map LossEntry.key = entries.map LossEntry.key := by
  simp [List.map_map, Function.comp_def]

theorem answer_keys {before after : List LossEntry} {e : LossEntry}
    (hat : l.pending = before ++ e :: after) : (l.answer before e after b).keys = l.keys := by
  simp [keys, answer, hat]

theorem pass_keys {before after : List LossEntry} {e : LossEntry}
    (hat : l.pending = before ++ e :: after) : (l.pass before e after).keys = l.keys := by
  rw [keys, pass, List.map_append, map_skip_keys]
  simp [keys, hat]

theorem settle_keys {before after : List LossEntry} {e : LossEntry}
    (hat : l.pending = before ++ e :: after) :
    (l.settle before e after b).keys.Sublist l.keys := by
  rw [← answer_keys (b := b) hat]
  unfold settle
  split
  · exact retire_keys
  · exact retire_keys

theorem emit_keys {before after : List LossEntry} {e : LossEntry}
    (hat : l.pending = before ++ e :: after) :
    (l.emit before e after).keys.Sublist l.keys := by
  rw [← pass_keys hat]
  unfold emit
  split
  · exact retire_keys
  · exact retire_keys

@[simp] theorem settle_lastEnter {before after : List LossEntry} {e : LossEntry} :
    (l.settle before e after b).lastEnter = l.lastEnter := by
  unfold settle
  split <;> rfl

@[simp] theorem emit_lastEnter {before after : List LossEntry} {e : LossEntry} :
    (l.emit before e after).lastEnter = l.lastEnter := by
  unfold emit
  split <;> rfl

theorem enter_ascending (h : Ascending l.keys l.lastEnter) :
    Ascending (l.enter key b).keys (l.enter key b).lastEnter := by
  unfold enter
  split
  · exact h
  split
  · exact h
  split
  · exact h
  next hstale =>
    have hstale' : stale l.lastEnter key = false := by
      simpa using hstale
    split
    · exact h.renew hstale'
    next hroom =>
      have hroom' : l.keys.length ≠ lossCapacity := by
        simpa [keys] using hroom
      have happend := h.append hstale' hroom'
      simpa [append, keys, attempt] using happend

theorem pushResult_ascending (h : Ascending l.keys l.lastEnter) :
    Ascending (l.pushResult key b).keys (l.pushResult key b).lastEnter := by
  unfold pushResult
  split
  next before e after hat =>
    split
    · exact h
    · rw [settle_lastEnter]
      exact h.sublist (settle_keys (locate_some hat).1)
  · exact h

theorem output_ascending (h : Ascending l.keys l.lastEnter) :
    Ascending (l.output key).keys (l.output key).lastEnter := by
  unfold output
  split
  next before e after hat =>
    split
    · exact h
    · rw [emit_lastEnter]
      exact h.sublist (emit_keys (locate_some hat).1)
  · exact h

theorem exit_ascending (h : Ascending l.keys l.lastEnter) :
    Ascending (l.exit key).keys (l.exit key).lastEnter := by
  unfold exit
  split
  · exact h
  split
  · exact h
  split
  · exact h
  · exact output_ascending (l := { l with lastExit := some key }) h

theorem close_ascending (h : Ascending l.keys l.lastEnter) :
    Ascending l.close.keys l.close.lastEnter := by
  have hkeys : keys { l with closed := true, pending := l.pending.map LossEntry.skip } = l.keys :=
    map_skip_keys l.pending
  exact h.sublist (hkeys ▸ retire_keys)

theorem call_ascending (c : LossCall) (h : Ascending l.keys l.lastEnter) :
    Ascending (l.call c).keys (l.call c).lastEnter := by
  cases c with
  | enter key awaiting => exact enter_ascending h
  | pushResult key accepted => exact pushResult_ascending h
  | exit key => exact exit_ascending h
  | close => exact close_ascending h

theorem run_ascending (calls : List LossCall) :
    Ascending (run calls).keys (run calls).lastEnter := by
  induction calls using List.reverseRecOn with
  | nil =>
      constructor
      · exact Nat.zero_le _
      · exact List.Pairwise.nil
      · intro k hk
        cases hk
  | append_singleton calls c ih =>
      rw [run, List.foldl_append]
      exact call_ascending c ih

end PbLoss

end HccastWired.Telemetry
