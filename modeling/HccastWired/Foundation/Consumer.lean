import Mathlib

/-!
# Consumers of a growing buffer

A consumer looks at the unread part of a stream and either makes one step or
waits. Its steps are stable: input that arrives later can only lengthen the
remainder, never change what was decided. Draining such a consumer chunk by
chunk therefore agrees with draining the whole stream at once.
-/

namespace HccastWired.Foundation

/-- One deterministic step on a control state and the unread buffer. -/
structure Consumer (σ α β : Type*) where
  step : σ → List α → Option (σ × List α × List β)
  stable : ∀ {s buf s' rest out} (ext : List α), step s buf = some (s', rest, out) →
    step s (buf ++ ext) = some (s', rest ++ ext, out)

namespace Consumer

variable {σ α β : Type*} {c : Consumer σ α β}

/-- The consumer makes all its steps and stops where it has to wait. -/
inductive Drains (c : Consumer σ α β) : σ → List α → σ → List α → List β → Prop
  | wait {s buf} (h : c.step s buf = none) : Drains c s buf s buf []
  | next {s buf s' rest out t rem outs} (h : c.step s buf = some (s', rest, out))
      (tail : Drains c s' rest t rem outs) : Drains c s buf t rem (out ++ outs)

/-- A step that returns nothing. -/
theorem Drains.silent {s buf s' rest t rem outs} (h : c.step s buf = some (s', rest, []))
    (tail : Drains c s' rest t rem outs) : Drains c s buf t rem outs :=
  .next h tail

/-- A step that returns one item. -/
theorem Drains.emit {s buf s' rest item t rem outs} (h : c.step s buf = some (s', rest, [item]))
    (tail : Drains c s' rest t rem outs) : Drains c s buf t rem (item :: outs) :=
  .next h tail

theorem Drains.deterministic {s buf t rem outs} (run : Drains c s buf t rem outs) :
    ∀ {t' rem' outs'}, Drains c s buf t' rem' outs' → t = t' ∧ rem = rem' ∧ outs = outs' := by
  induction run with
  | wait h =>
      intro t' rem' outs' run'
      cases run' with
      | wait _ => exact ⟨rfl, rfl, rfl⟩
      | next h' _ => rw [h] at h'; cases h'
  | next h _ ih =>
      intro t' rem' outs' run'
      cases run' with
      | wait h' => rw [h] at h'; cases h'
      | next h' tail' =>
          obtain ⟨rfl, rfl, rfl⟩ : _ ∧ _ ∧ _ := by simpa using h.symm.trans h'
          obtain ⟨rfl, rfl, rfl⟩ := ih tail'
          exact ⟨rfl, rfl, rfl⟩

/-- What is left after a drain is where the consumer waits. -/
theorem Drains.waiting {s buf t rem outs} (run : Drains c s buf t rem outs) :
    c.step t rem = none := by
  induction run with
  | wait h => exact h
  | next _ _ ih => exact ih

/-- Draining a prefix, appending the next chunk and draining again is one
drain of the whole. -/
theorem Drains.append {s a t rem outs} (run : Drains c s a t rem outs) {b u last more}
    (rest : Drains c t (rem ++ b) u last more) :
    Drains c s (a ++ b) u last (outs ++ more) := by
  induction run with
  | wait _ => simpa using rest
  | next h _ ih =>
      rw [List.append_assoc]
      exact Drains.next (c.stable b h) (ih rest)

/-- Drain every chunk in turn, keeping the unread remainder between them. -/
inductive Feeds (c : Consumer σ α β) : σ → List α → List (List α) → σ → List α → List β → Prop
  | nil {s buf} : Feeds c s buf [] s buf []
  | cons {s buf chunk chunks t rem outs u last more}
      (head : Drains c s (buf ++ chunk) t rem outs)
      (tail : Feeds c t rem chunks u last more) :
      Feeds c s buf (chunk :: chunks) u last (outs ++ more)

/-- Any chunking of a stream is a single drain of the concatenation, provided
the consumer was waiting before the first chunk. -/
theorem Feeds.drains {s buf chunks u last more} (run : Feeds c s buf chunks u last more)
    (waiting : c.step s buf = none) : Drains c s (buf ++ chunks.flatten) u last more := by
  induction run with
  | nil => simpa using Drains.wait waiting
  | cons head _ ih =>
      have whole := head.append (ih head.waiting)
      simpa [List.append_assoc] using whole

end Consumer

end HccastWired.Foundation
