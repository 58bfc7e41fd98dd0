import Mathlib

/-!
# Delivering a payload in parts

A loop offers a sink the part of a payload behind an offset, and the sink takes
as much of it as it likes. Whatever the sink answers, what it has taken is the
payload cut at one place, as long as the loop counts what was taken.
-/

namespace HccastWired.Foundation

/-- How a loop goes on when an offer was answered. -/
inductive Verdict (ε : Type)
  | advance (count : Nat)
  | wait
  | fail (error : ε)

inductive Outcome (ε α : Type)
  | pending
  | returned (value : α)
  | raised (error : ε)

/-- What a loop has delivered, the answers it has not asked for, and how it ended;
it is pending where the answers ran out. -/
structure Delivery (ι ε A : Type) where
  pieces : List (List ι)
  left : List A
  outcome : Outcome ε Unit

namespace Delivery

variable {ι ε A : Type}

/-- The delivery behind a first piece. -/
def behind (piece : List ι) (d : Delivery ι ε A) : Delivery ι ε A :=
  { d with pieces := piece :: d.pieces }

/-- What the sink has got. -/
def taken (d : Delivery ι ε A) : List ι := d.pieces.flatten

@[simp] theorem taken_behind (piece : List ι) (d : Delivery ι ε A) :
    (d.behind piece).taken = piece ++ d.taken := rfl

@[simp] theorem outcome_behind (piece : List ι) (d : Delivery ι ε A) :
    (d.behind piece).outcome = d.outcome := rfl

@[simp] theorem left_behind (piece : List ι) (d : Delivery ι ε A) :
    (d.behind piece).left = d.left := rfl

end Delivery

section Deliver

variable {ι ε A : Type} (data : List ι) (chunk : Nat → List ι)
  (offer : Nat → List ι → A → List ι × Verdict ε)

/-- The loop: while the offset is short of the payload, a chunk is offered. -/
def deliver (offset : Nat) : List A → Delivery ι ε A
  | [] => ⟨[], [], if offset < data.length then .pending else .returned ()⟩
  | answer :: rest =>
      if offset < data.length then
        let (piece, verdict) := offer offset (chunk offset) answer
        match verdict with
        | .advance count => (deliver (offset + count) rest).behind piece
        | .wait => (deliver offset rest).behind piece
        | .fail error => ⟨[piece], rest, .raised error⟩
      else ⟨[], answer :: rest, .returned ()⟩

end Deliver

/-- The answer to the offer of a chunk is counted: the loop advances by what the
sink took, waits only where it took nothing, and fails behind a part of the chunk. -/
def Counted {ι ε : Type} (chunk : List ι) (mayWait : Bool) : List ι × Verdict ε → Prop
  | (piece, .advance count) => 0 < count ∧ count ≤ chunk.length ∧ piece = chunk.take count
  | (piece, .wait) => piece = [] ∧ mayWait = true
  | (piece, .fail _) => piece <+: chunk

/-- The chunks are cut from the payload at the offset, and all answers are counted. -/
structure Counts {ι ε A : Type} (data : List ι) (chunk : Nat → List ι)
    (offer : Nat → List ι → A → List ι × Verdict ε) (waits : A → Bool) : Prop where
  cut : ∀ offset, offset < data.length → chunk offset <+: data.drop offset
  counted : ∀ offset c answer, Counted c (waits answer) (offer offset c answer)

/-- The answer of a sink that took some of the chunk, where taking nothing fails. -/
def taking {ι ε : Type} (chunk : List ι) (count : Nat) (stuck : ε) : List ι × Verdict ε :=
  let written := (chunk.take count).length
  if written ≤ 0 then ([], .fail stuck) else (chunk.take count, .advance written)

theorem counted_taking {ι ε : Type} (chunk : List ι) (count : Nat) (stuck : ε) (mayWait : Bool) :
    Counted chunk mayWait (taking chunk count stuck) := by
  unfold taking
  dsimp only
  split
  · exact List.nil_prefix
  next hsome =>
    refine ⟨not_le.mp hsome, (List.take_prefix _ _).length_le, ?_⟩
    rw [List.length_take, ← List.take_eq_take_min]

theorem counted_fail {ι ε : Type} (chunk : List ι) (taken : Nat) (error : ε) (mayWait : Bool) :
    Counted chunk mayWait (chunk.take taken, .fail error) := List.take_prefix _ _

theorem counted_none {ι ε : Type} (chunk : List ι) (error : ε) (mayWait : Bool) :
    Counted chunk mayWait ([], .fail error) := List.nil_prefix

/-- The payload arrives in order: what is delivered is a first part of it, and all
of it where the loop returned. Each answer that did not end the loop was a wait or
has taken something, and the loop goes on as long as it has answers. -/
structure Arrives {ι ε A : Type} (payload : List ι) (waits : A → Bool) (answers : List A)
    (d : Delivery ι ε A) : Prop where
  in_order : d.taken <+: payload
  complete : d.outcome = .returned () → d.taken = payload
  progress : d.outcome = .returned () ∨ d.outcome = .pending →
    answers.length ≤ d.left.length + d.taken.length + answers.countP waits
  exhausted : d.outcome = .pending → d.left = []

/-- What a caller sees of it: the sink has a first part of the payload, all of it
where the call returned, and a call that goes on has waited or made progress at
each answer so far. -/
structure Delivers {ι ε A : Type} (payload : List ι) (waits : A → Bool) (answers : List A)
    (d : Delivery ι ε A) : Prop where
  in_order : d.taken <+: payload
  complete : d.outcome = .returned () → d.taken = payload
  progress : d.outcome = .pending → answers.length ≤ d.taken.length + answers.countP waits

theorem Arrives.delivers {ι ε A : Type} {payload : List ι} {waits : A → Bool} {answers : List A}
    {d : Delivery ι ε A} (h : Arrives payload waits answers d) :
    Delivers payload waits answers d := by
  refine ⟨h.in_order, h.complete, ?_⟩
  intro hpending
  have hprogress := h.progress (Or.inr hpending)
  rw [h.exhausted hpending, List.length_nil, Nat.zero_add] at hprogress
  exact hprogress

section Rules

variable {ι ε A : Type} {data : List ι} {chunk : Nat → List ι}
  {offer : Nat → List ι → A → List ι × Verdict ε} {waits : A → Bool}

theorem deliver_nil (offset : Nat) : deliver data chunk offer offset [] =
    ⟨[], [], if offset < data.length then .pending else .returned ()⟩ := rfl

/-- One answer of a loop that counts. -/
theorem deliver_cons (h : Counts data chunk offer waits) {offset : Nat}
    (hoffset : offset < data.length) (answer : A) (rest : List A) :
    (∃ count, 0 < count ∧ offset + count ≤ data.length ∧
      deliver data chunk offer offset (answer :: rest) =
        (deliver data chunk offer (offset + count) rest).behind
          ((data.drop offset).take count)) ∨
    (waits answer = true ∧ deliver data chunk offer offset (answer :: rest) =
      (deliver data chunk offer offset rest).behind []) ∨
    ∃ piece error, piece <+: data.drop offset ∧
      deliver data chunk offer offset (answer :: rest) = ⟨[piece], rest, .raised error⟩ := by
  have hcut := h.cut offset hoffset
  rw [deliver, if_pos hoffset]
  have hcounted := h.counted offset (chunk offset) answer
  cases hoffer : offer offset (chunk offset) answer with
  | mk piece verdict =>
      rw [hoffer] at hcounted
      cases verdict with
      | advance count =>
          left
          obtain ⟨hpos, hle, hpiece⟩ := hcounted
          have hlength := hcut.length_le
          rw [List.length_drop] at hlength
          refine ⟨count, hpos, by omega, ?_⟩
          obtain ⟨behind, hdrop⟩ := hcut
          rw [← hdrop, List.take_append_of_le_length hle, ← hpiece]
      | wait =>
          right; left
          obtain ⟨hpiece, hwaits⟩ := hcounted
          rw [hpiece]
          exact ⟨hwaits, rfl⟩
      | fail error =>
          right; right
          exact ⟨piece, error, List.IsPrefix.trans hcounted hcut, rfl⟩

/-- A piece that the loop counts comes before what the rest of the loop delivers. -/
theorem Arrives.advance {payload : List ι} {count : Nat} {answer : A} {rest : List A}
    {d : Delivery ι ε A} (hpos : 0 < count) (hle : count ≤ payload.length)
    (h : Arrives (payload.drop count) waits rest d) :
    Arrives payload waits (answer :: rest) (d.behind (payload.take count)) := by
  have hlength : (payload.take count).length = count := List.length_take_of_le hle
  have hsplit := List.take_append_drop count payload
  have hcount : rest.countP waits ≤ (answer :: rest).countP waits := by
    rw [List.countP_cons]
    exact Nat.le_add_right _ _
  constructor
  · rw [Delivery.taken_behind]
    nth_rewrite 2 [← hsplit]
    exact (List.prefix_append_right_inj _).mpr h.in_order
  · intro hreturned
    rw [Delivery.taken_behind, h.complete hreturned, hsplit]
  · intro hended
    have hprogress := h.progress hended
    rw [Delivery.taken_behind, Delivery.left_behind, List.length_append, hlength,
      List.length_cons]
    omega
  · exact h.exhausted

theorem Arrives.wait {payload : List ι} {answer : A} {rest : List A} {d : Delivery ι ε A}
    (hwaits : waits answer = true) (h : Arrives payload waits rest d) :
    Arrives payload waits (answer :: rest) (d.behind []) := by
  have hcount : (answer :: rest).countP waits = rest.countP waits + 1 :=
    List.countP_cons_of_pos hwaits
  constructor
  · exact h.in_order
  · exact h.complete
  · intro hended
    have hprogress := h.progress hended
    rw [Delivery.taken_behind, Delivery.left_behind, List.nil_append, hcount, List.length_cons]
    omega
  · exact h.exhausted

/-- A loop that failed has delivered what it counted and a part of the last chunk. -/
theorem Arrives.fail {payload piece : List ι} {answers rest : List A} {error : ε}
    (hpiece : piece <+: payload) : Arrives payload waits answers
      (⟨[piece], rest, .raised error⟩ : Delivery ι ε A) := by
  constructor
  · rw [Delivery.taken, List.flatten_singleton]
    exact hpiece
  · intro hreturned
    cases hreturned
  · rintro (hreturned | hpending)
    · cases hreturned
    · cases hpending
  · intro hpending
    cases hpending

/-- What is refused before the loop delivers nothing. -/
theorem Arrives.refused {payload : List ι} {answers rest : List A} (error : ε) :
    Arrives payload waits answers (⟨[], rest, .raised error⟩ : Delivery ι ε A) := by
  constructor
  · exact List.nil_prefix
  · intro hreturned
    cases hreturned
  · rintro (hreturned | hpending)
    · cases hreturned
    · cases hpending
  · intro hpending
    cases hpending

/-- A loop that counts what was taken delivers the rest of its payload. -/
theorem deliver_arrives (h : Counts data chunk offer waits) (offset : Nat)
    (hoffset : offset ≤ data.length) (answers : List A) :
    Arrives (data.drop offset) waits answers (deliver data chunk offer offset answers) := by
  induction answers generalizing offset with
  | nil =>
      rw [deliver_nil]
      refine ⟨List.nil_prefix, ?_, fun _ => Nat.zero_le _, fun _ => rfl⟩
      intro hreturned
      by_cases hshort : offset < data.length
      · rw [if_pos hshort] at hreturned
        cases hreturned
      · exact (List.drop_of_length_le (not_lt.mp hshort)).symm
  | cons answer rest ih =>
      by_cases hshort : offset < data.length
      · rcases deliver_cons h hshort answer rest with ⟨count, hpos, hle, heq⟩ |
          ⟨hwaits, heq⟩ | ⟨piece, error, hpiece, heq⟩
        · rw [heq]
          refine Arrives.advance hpos ?_ ?_
          · rw [List.length_drop]
            omega
          · rw [List.drop_drop]
            exact ih (offset + count) hle
        · rw [heq]
          exact (ih offset hoffset).wait hwaits
        · rw [heq]
          exact Arrives.fail hpiece
      · rw [deliver, if_neg hshort]
        refine ⟨List.nil_prefix, ?_, ?_, fun hpending => by cases hpending⟩
        · intro _
          exact (List.drop_of_length_le (not_lt.mp hshort)).symm
        · intro _
          exact (Nat.le_add_right _ _).trans (Nat.le_add_right _ _)

/-- Each answer that was asked for gives a piece. -/
theorem length_pieces_deliver (offset : Nat) (answers : List A) :
    (deliver data chunk offer offset answers).pieces.length +
      (deliver data chunk offer offset answers).left.length = answers.length := by
  induction answers generalizing offset with
  | nil => rfl
  | cons answer rest ih =>
      rw [deliver]
      split
      · cases offer offset (chunk offset) answer with
        | mk piece verdict =>
            cases verdict with
            | advance count =>
                have hrest := ih (offset + count)
                dsimp only [Delivery.behind, List.length_cons]
                omega
            | wait =>
                have hrest := ih offset
                dsimp only [Delivery.behind, List.length_cons]
                omega
            | fail error => exact Nat.add_comm 1 rest.length
      · exact Nat.zero_add _

/-- A loop fails with the error of an offer. -/
theorem deliver_raised {offset : Nat} {answers : List A} {error : ε}
    (h : (deliver data chunk offer offset answers).outcome = .raised error) :
    ∃ offset c answer piece, offer offset c answer = (piece, .fail error) := by
  induction answers generalizing offset with
  | nil =>
      rw [deliver_nil] at h
      dsimp only at h
      split at h
      · cases h
      · cases h
  | cons answer rest ih =>
      rw [deliver] at h
      split at h
      · cases hoffer : offer offset (chunk offset) answer with
        | mk piece verdict =>
            rw [hoffer] at h
            cases verdict with
            | advance count => exact ih h
            | wait => exact ih h
            | fail raised =>
                cases h
                exact ⟨_, _, _, _, hoffer⟩
      · cases h

/-- A loop that failed did so at its last answer. -/
theorem deliver_used (h : Counts data chunk offer waits) (offset : Nat)
    (hoffset : offset ≤ data.length) (answers : List A) :
    answers.length ≤ (deliver data chunk offer offset answers).left.length +
      (deliver data chunk offer offset answers).taken.length + answers.countP waits + 1 := by
  induction answers generalizing offset with
  | nil => exact Nat.zero_le _
  | cons answer rest ih =>
      have hcount : rest.countP waits ≤ (answer :: rest).countP waits := by
        rw [List.countP_cons]
        exact Nat.le_add_right _ _
      by_cases hshort : offset < data.length
      · rcases deliver_cons h hshort answer rest with ⟨count, hpos, hle, heq⟩ |
          ⟨hwaits, heq⟩ | ⟨piece, error, -, heq⟩
        · have hrest := ih (offset + count) hle
          have hpiece : ((data.drop offset).take count).length = count := by
            rw [List.length_take_of_le]
            rw [List.length_drop]
            omega
          rw [heq, Delivery.taken_behind, Delivery.left_behind, List.length_append, hpiece,
            List.length_cons]
          omega
        · have hrest := ih offset hoffset
          rw [heq, Delivery.taken_behind, Delivery.left_behind, List.nil_append,
            List.countP_cons_of_pos hwaits, List.length_cons]
          omega
        · rw [heq, List.length_cons]
          dsimp only
          omega
      · rw [deliver, if_neg hshort]
        dsimp only
        omega

end Rules

end HccastWired.Foundation
