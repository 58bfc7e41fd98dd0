import HccastWired.Telemetry.LossLedger

/-!
# The table that pairs the inputs of an element with its outputs

The running mean of the pairs is a floating-point number that no decision reads,
and is left out.
-/

namespace HccastWired.Telemetry

/-- `PB_TIMING_CAPACITY` slots. -/
abbrev TimingSlot := Fin 64

structure TimingEntry where
  key : UInt64
  enteredUs : UInt64
deriving DecidableEq, Repr

/-- `PbTiming`; a slot that is not `used` holds nothing. -/
structure PbTiming where
  pending : TimingSlot → Option TimingEntry
  next : TimingSlot
  entered : UInt64
  exited : UInt64
  matched : UInt64
  unmatched : UInt64
  evicted : UInt64
  invalid : UInt64
  discontinuities : UInt64
  lastUs : UInt64
  maxUs : UInt64
  ambiguous : Bool
deriving DecidableEq

namespace PbTiming

def zero : PbTiming :=
  { pending := fun _ => none, next := 0, entered := 0, exited := 0, matched := 0, unmatched := 0
    evicted := 0, invalid := 0, discontinuities := 0, lastUs := 0, maxUs := 0, ambiguous := false }

/-- The slot in use for the key, the first one if there were several. -/
def find (t : PbTiming) (key : UInt64) : Option (TimingSlot × TimingEntry) :=
  (List.finRange 64).findSome? fun slot =>
    match t.pending slot with
    | some entry => if entry.key = key then some (slot, entry) else none
    | none => none

/-- The first free slot from `next` on, or `next` itself. -/
def freeSlot (t : PbTiming) : TimingSlot :=
  (((List.finRange 64).map (t.next + ·)).find? fun slot => (t.pending slot).isNone).getD t.next

def enter (t : PbTiming) (key nowUs : UInt64) : PbTiming :=
  let t := { t with entered := t.entered + 1 }
  if key = FrameKey.noKey ∨ t.ambiguous = true then { t with invalid := t.invalid + 1 }
  else if (t.find key).isSome then { t with ambiguous := true, invalid := t.invalid + 1 }
  else
    let slot := t.freeSlot
    { t with
      evicted := if (t.pending slot).isSome then t.evicted + 1 else t.evicted
      pending := Function.update t.pending slot (some ⟨key, nowUs⟩)
      next := slot + 1 }

def exit (t : PbTiming) (key nowUs : UInt64) : PbTiming :=
  let t := { t with exited := t.exited + 1 }
  if key = FrameKey.noKey ∨ t.ambiguous = true then { t with unmatched := t.unmatched + 1 }
  else
    match t.find key with
    | none => { t with unmatched := t.unmatched + 1 }
    | some (slot, entry) =>
        let t := { t with pending := Function.update t.pending slot none }
        if nowUs < entry.enteredUs then { t with invalid := t.invalid + 1 }
        else
          let elapsed := nowUs - entry.enteredUs
          { t with
            matched := t.matched + 1
            lastUs := elapsed
            maxUs := max t.maxUs elapsed }

def discontinuity (t : PbTiming) : PbTiming :=
  { t with
    pending := fun _ => none
    next := 0
    ambiguous := false
    discontinuities := t.discontinuities + 1 }

/-- `pb_timing_oldest_age`. -/
def oldestAge (t : PbTiming) (nowUs : UInt64) : Option UInt64 :=
  if t.ambiguous then none
  else
    let waiting := (List.finRange 64).filterMap fun slot =>
      (t.pending slot).bind fun entry =>
        if entry.enteredUs ≤ nowUs ∧ entry.enteredUs < FrameKey.noKey then some entry.enteredUs
        else none
    (waiting.foldl (fun oldest us => some (oldest.elim us (min us))) none).map (nowUs - ·)

@[simp] theorem enter_entered (t : PbTiming) (key nowUs : UInt64) :
    (t.enter key nowUs).entered = t.entered + 1 := by
  unfold enter
  dsimp only
  split
  · rfl
  split
  · rfl
  · rfl

@[simp] theorem exit_entered (t : PbTiming) (key nowUs : UInt64) :
    (t.exit key nowUs).entered = t.entered := by
  unfold exit
  dsimp only
  split
  · rfl
  split
  · rfl
  split
  · rfl
  · rfl

end PbTiming

end HccastWired.Telemetry
