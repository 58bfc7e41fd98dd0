import HccastWired.Protocol.ByteScanner

/-!
# Transfer boundaries do not matter

The scanner decides nothing that later bytes could change, so a reachable
parser gives the same frames and ends in the same state for every division of
its input into `feed` calls.
-/

namespace HccastWired.Protocol.FrameStreamParser

/-- Two `feed` calls of a settled parser are one call with the joined data. -/
theorem feed_feed_eq_feed_append (p : FrameStreamParser) (a b : Bytes) :
    ((p.feed a).1.feed b).1 = (p.feed (a ++ b)).1 ∧
      (p.feed a).2 ++ ((p.feed a).1.feed b).2 = (p.feed (a ++ b)).2 := by
  obtain ⟨first, hm⟩ := feed_drains p a
  obtain ⟨second, hm'⟩ := feed_drains (p.feed a).1 b
  obtain ⟨whole, hm''⟩ := feed_drains p (a ++ b)
  rw [hm] at second hm'
  have joined := first.append second
  rw [List.append_assoc] at joined
  obtain ⟨hc, hb, hf⟩ := joined.deterministic whole
  exact ⟨ext_cursor (hm'.trans hm''.symm) hc hb, hf⟩

/-- In every state a parser can reach, the division of the stream into `feed`
calls changes neither the frames nor the final state, which includes the
buffered bytes, the resynchronizing flag and the discarded count. -/
theorem feed_boundary_independent {maxFrame : Nat} {fresh : FrameStreamParser}
    (h : create maxFrame = .ok fresh) (history : List Bytes) :
    let p := (fresh.feedAll history).1
    (∀ a b : Bytes, ((p.feed a).1.feed b).1 = (p.feed (a ++ b)).1 ∧
      (p.feed a).2 ++ ((p.feed a).1.feed b).2 = (p.feed (a ++ b)).2) ∧
    ∀ xs ys : List Bytes, xs.flatten = ys.flatten → p.feedAll xs = p.feedAll ys := by
  intro p
  have hs : p.Settled := feedAll_settled (create_settled h).1 history
  exact ⟨feed_feed_eq_feed_append p, fun xs ys heq => feedAll_eq_of_flatten hs heq⟩

/-- A corrupt preamble split inside the junk and inside the header that follows it. -/
theorem feed_boundary_independent_preamble :
    ∃ fresh, create 64 = .ok fresh ∧
      (fresh.feedAll []).1.feedAll [[0xFF, 0xFF], [0xFF, 0xFF, 0, 0, 0], [16, 0, 0, 0, 1]] =
        (fresh.feedAll []).1.feedAll [[0xFF, 0xFF, 0xFF, 0xFF, 0, 0, 0, 16, 0, 0, 0, 1]] :=
  ⟨_, rfl, (@feed_boundary_independent 64 _ rfl []).2 _ _ rfl⟩

end HccastWired.Protocol.FrameStreamParser
