import HccastWired.Foundation.Consumer
import HccastWired.Protocol.StreamParser

/-!
# The parser as a byte-by-byte scanner

What `FrameStreamParser` is for, without its buffer management: a scanner that
skips one byte at a time while searching and otherwise reads whole frames. It
is a `Consumer`, and the loop of the real parser drains it exactly, although
the loop throws away a whole searched prefix at once and keeps 15 bytes.
-/

namespace HccastWired.Protocol

open Foundation FrameStreamParser

/-- The scanner's control state. -/
structure Cursor where
  searching : Bool
  skipped : Nat
  deriving DecidableEq

namespace ByteScanner

def step (maxFrame : Nat) (s : Cursor) (buf : Bytes) : Option (Cursor × Bytes × List Frame) :=
  if buf.length < HEADER_SIZE then none
  else if s.searching then
    if candidate maxFrame buf 0 then some ({ s with searching := false }, buf, [])
    else some ({ s with skipped := s.skipped + 1 }, buf.drop 1, [])
  else if !plausibleLength maxFrame (u32At buf 0) then
    some ({ s with searching := true }, buf, [])
  else if buf.length < u32At buf 0 then none
  else some (s, buf.drop (u32At buf 0), [headFrame buf])

theorem u32At_append {buf : Bytes} {offset : Nat} (ext : Bytes) (h : offset + 4 ≤ buf.length) :
    u32At (buf ++ ext) offset = u32At buf offset := by
  unfold u32At
  rw [List.drop_append_of_le_length (by omega), List.take_append_of_le_length]
  simp only [List.length_drop]
  omega

theorem magicAt_append {buf : Bytes} {offset : Nat} (ext : Bytes)
    (h : offset + 12 ≤ buf.length) : magicAt (buf ++ ext) offset = magicAt buf offset := by
  unfold magicAt
  rw [List.drop_append_of_le_length (by omega), List.take_append_of_le_length]
  simp only [List.length_drop]
  omega

theorem candidate_append {maxFrame : Nat} {buf : Bytes} {offset : Nat} (ext : Bytes)
    (h : offset + HEADER_SIZE ≤ buf.length) :
    candidate maxFrame (buf ++ ext) offset = candidate maxFrame buf offset := by
  have hsize : HEADER_SIZE = 16 := rfl
  unfold candidate
  rw [u32At_append ext (by omega), magicAt_append ext (by omega)]

theorem headFrame_append {buf : Bytes} (ext : Bytes) (h : HEADER_SIZE ≤ buf.length)
    (htotal : u32At buf 0 ≤ buf.length) : headFrame (buf ++ ext) = headFrame buf := by
  have hsize : HEADER_SIZE = 16 := rfl
  simp only [headFrame]
  rw [u32At_append ext (by omega), u32At_append ext (by omega), u32At_append ext (by omega),
    magicAt_append ext (by omega), List.take_append_of_le_length htotal]

/-- Later input only lengthens the remainder of a scanner step. -/
theorem step_stable {maxFrame : Nat} {s s' : Cursor} {buf rest : Bytes} {out : List Frame}
    (ext : Bytes) (h : step maxFrame s buf = some (s', rest, out)) :
    step maxFrame s (buf ++ ext) = some (s', rest ++ ext, out) := by
  have hsize : HEADER_SIZE = 16 := rfl
  by_cases hlen : buf.length < HEADER_SIZE
  · simp [step, hlen] at h
  have hlen' : HEADER_SIZE ≤ buf.length := Nat.le_of_not_lt hlen
  have hext : ¬ (buf ++ ext).length < HEADER_SIZE := by simp only [List.length_append]; omega
  have hword : u32At (buf ++ ext) 0 = u32At buf 0 := u32At_append ext (by omega)
  have hcand : candidate maxFrame (buf ++ ext) 0 = candidate maxFrame buf 0 :=
    candidate_append ext (by omega)
  unfold step at h ⊢
  rw [if_neg hlen] at h
  rw [if_neg hext, hcand, hword]
  split at h
  · next hs =>
    rw [if_pos hs]
    split at h
    · next hc =>
      rw [if_pos hc]
      simp only [Option.some.injEq, Prod.mk.injEq] at h ⊢
      obtain ⟨rfl, rfl, rfl⟩ := h
      exact ⟨rfl, rfl, rfl⟩
    · next hc =>
      rw [if_neg hc]
      simp only [Option.some.injEq, Prod.mk.injEq] at h ⊢
      obtain ⟨rfl, rfl, rfl⟩ := h
      exact ⟨rfl, List.drop_append_of_le_length (by omega), rfl⟩
  · next hs =>
    rw [if_neg hs]
    split at h
    · next hp =>
      rw [if_pos hp]
      simp only [Option.some.injEq, Prod.mk.injEq] at h ⊢
      obtain ⟨rfl, rfl, rfl⟩ := h
      exact ⟨rfl, rfl, rfl⟩
    · next hp =>
      rw [if_neg hp]
      split at h
      · cases h
      · next hfull =>
        have hfull' : u32At buf 0 ≤ buf.length := Nat.le_of_not_lt hfull
        rw [if_neg (by simp only [List.length_append]; omega), headFrame_append ext hlen' hfull']
        simp only [Option.some.injEq, Prod.mk.injEq] at h ⊢
        obtain ⟨rfl, rfl, rfl⟩ := h
        exact ⟨rfl, List.drop_append_of_le_length hfull', rfl⟩

end ByteScanner

/-- The scanner for one frame limit. -/
def byteScanner (maxFrame : Nat) : Consumer Cursor UInt8 Frame where
  step := ByteScanner.step maxFrame
  stable := ByteScanner.step_stable

namespace FrameStreamParser

/-- The scanner state a parser stands for. -/
def cursor (p : FrameStreamParser) : Cursor :=
  { searching := p.resynchronizing, skipped := p.discardedBytes }

/-- The parser's remaining work, as a drain of its scanner. -/
abbrev DrainsTo (p q : FrameStreamParser) (frames : List Frame) : Prop :=
  (byteScanner p.maxFrame).Drains p.cursor p.buffer q.cursor q.buffer frames

/-- A searching scanner walks over every offset that is no candidate. -/
theorem skip_drains {maxFrame : Nat} (skipped count : Nat) {buf : Bytes}
    (hlen : count + 15 ≤ buf.length)
    (hno : ∀ i < count, candidate maxFrame buf i = false) {t rem outs}
    (run : (byteScanner maxFrame).Drains ⟨true, skipped + count⟩ (buf.drop count) t rem outs) :
    (byteScanner maxFrame).Drains ⟨true, skipped⟩ buf t rem outs := by
  induction count generalizing buf skipped with
  | zero => simpa using run
  | succ count ih =>
      have hsize : HEADER_SIZE = 16 := rfl
      have hhead : candidate maxFrame buf 0 = false := hno 0 (Nat.succ_pos count)
      have hstep : (byteScanner maxFrame).step ⟨true, skipped⟩ buf =
          some (⟨true, skipped + 1⟩, buf.drop 1, []) := by
        have hlen' : ¬ buf.length < HEADER_SIZE := by omega
        simp [byteScanner, ByteScanner.step, hlen', hhead]
      refine Consumer.Drains.silent hstep (ih (skipped + 1) ?_ ?_ ?_)
      · simp only [List.length_drop]
        omega
      · intro i hi
        rw [candidate_drop]
        exact hno (1 + i) (by omega)
      · rw [List.drop_drop, Nat.add_comm 1 count,
          show skipped + 1 + count = skipped + (count + 1) by omega]
        exact run

/-- Moving to the aligned header is a drain of the skipped bytes. -/
theorem Aligned.drains {p a : FrameStreamParser} (h : Aligned p a) {t rem outs}
    (run : (byteScanner a.maxFrame).Drains a.cursor a.buffer t rem outs) :
    (byteScanner p.maxFrame).Drains p.cursor p.buffer t rem outs := by
  cases h with
  | here _ => exact run
  | @moved offset hr hfit hc hmin =>
      have hsize : HEADER_SIZE = 16 := rfl
      have hfound : (byteScanner p.maxFrame).step ⟨true, p.discardedBytes + offset⟩
          (p.buffer.drop offset) =
          some (⟨false, p.discardedBytes + offset⟩, p.buffer.drop offset, []) := by
        have hlen : ¬ (p.buffer.drop offset).length < HEADER_SIZE := by
          simp only [List.length_drop]
          omega
        have hc' : candidate p.maxFrame (p.buffer.drop offset) 0 = true := by
          rw [candidate_drop]
          exact hc
        simp only [byteScanner, ByteScanner.step, if_neg hlen, hc', if_true]
      have hskip := skip_drains p.discardedBytes offset (by omega) hmin
        (Consumer.Drains.silent hfound run)
      simpa [cursor, hr] using hskip

/-- A pass that leaves the loop leaves a scanner that waits. -/
theorem iterate_exit_drains {p q : FrameStreamParser} (h : iterate p = .exit q) :
    DrainsTo p q [] ∧ q.maxFrame = p.maxFrame := by
  have hsize : HEADER_SIZE = 16 := rfl
  rcases iterate_cases p with ⟨hlen, h'⟩ | ⟨hlen, hr, hno, h'⟩ | ⟨a, ha, hlen, h'⟩
  · obtain rfl := Iteration.exit.inj (h'.symm.trans h)
    exact ⟨.wait (by simp [byteScanner, ByteScanner.step, hlen]), rfl⟩
  · obtain rfl := Iteration.exit.inj (h'.symm.trans h)
    refine ⟨?_, rfl⟩
    have hwait : (byteScanner p.maxFrame).step
        ⟨true, p.discardedBytes + (p.buffer.length - 15)⟩
        (p.buffer.drop (p.buffer.length - 15)) = none := by
      have hshort : (p.buffer.drop (p.buffer.length - 15)).length < HEADER_SIZE := by
        simp only [List.length_drop]
        omega
      simp only [byteScanner, ByteScanner.step, if_pos hshort]
    have hskip := skip_drains p.discardedBytes (p.buffer.length - 15) (by omega)
      (fun i hi => hno i (by omega)) (Consumer.Drains.wait hwait)
    simpa [DrainsTo, cursor, discard, hr] using hskip
  · rcases readHeader_cases a with ⟨_, h''⟩ | ⟨hp, hshort, h''⟩ | ⟨_, _, h''⟩
    · rw [h', h''] at h; cases h
    · obtain rfl := Iteration.exit.inj ((h'.trans h'').symm.trans h)
      have hwait : (byteScanner a.maxFrame).step a.cursor a.buffer = none := by
        simp [byteScanner, ByteScanner.step, cursor, ha.length_le.2, hp, hshort]
      refine ⟨ha.drains (.wait hwait), ?_⟩
      cases ha <;> rfl
    · rw [h', h''] at h; cases h

/-- A pass that only switches to search mode is one scanner step. -/
theorem iterate_again_drains {p q : FrameStreamParser} (h : iterate p = .again q) {t rem outs}
    (run : (byteScanner q.maxFrame).Drains q.cursor q.buffer t rem outs) :
    (byteScanner p.maxFrame).Drains p.cursor p.buffer t rem outs := by
  obtain ⟨hr, hlen, hp, rfl⟩ := iterate_again h
  refine Consumer.Drains.silent ?_ run
  simp [byteScanner, ByteScanner.step, cursor, hr, Nat.not_lt.mpr hlen, hp]

/-- A pass that returns a frame is the scanner's walk to that frame. -/
theorem iterate_emit_drains {p q : FrameStreamParser} {frame : Frame}
    (h : iterate p = .emit frame q) {t rem outs}
    (run : (byteScanner q.maxFrame).Drains q.cursor q.buffer t rem outs) :
    (byteScanner p.maxFrame).Drains p.cursor p.buffer t rem (frame :: outs) := by
  obtain ⟨a, ha, hp, hle, rfl, rfl⟩ := iterate_emit h
  have htotal := (plausibleLength_iff.mp hp).1
  have hlen : HEADER_SIZE ≤ a.buffer.length := htotal.trans hle
  refine ha.drains (Consumer.Drains.emit ?_ run)
  simp [byteScanner, ByteScanner.step, cursor, ha.length_le.2, Nat.not_lt.mpr hlen,
    Nat.not_lt.mpr hle, hp]

/-- The loop of `feed` drains the scanner and keeps the frame limit. -/
theorem loop_drains (p : FrameStreamParser) :
    DrainsTo p (loop p).1 (loop p).2 ∧ (loop p).1.maxFrame = p.maxFrame := by
  induction p using loop.induct with
  | case1 p q h =>
      rw [loop, h]
      exact iterate_exit_drains h
  | case2 p q h ih =>
      have hmax : q.maxFrame = p.maxFrame := by
        obtain ⟨-, -, -, rfl⟩ := iterate_again h
        rfl
      rw [loop, h]
      exact ⟨iterate_again_drains h ih.1, ih.2.trans hmax⟩
  | case3 p frame q h ih =>
      have hmax : q.maxFrame = p.maxFrame := by
        obtain ⟨a, ha, -, -, -, rfl⟩ := iterate_emit h
        cases ha <;> rfl
      rw [loop, h]
      exact ⟨iterate_emit_drains h ih.1, ih.2.trans hmax⟩

/-- `feed` refines the scanner: it drains the old remainder and the new data. -/
theorem feed_drains (p : FrameStreamParser) (data : Bytes) :
    (byteScanner p.maxFrame).Drains p.cursor (p.buffer ++ data) (p.feed data).1.cursor
      (p.feed data).1.buffer (p.feed data).2 ∧ (p.feed data).1.maxFrame = p.maxFrame :=
  loop_drains { p with buffer := p.buffer ++ data }

/-- Every sequence of `feed` calls is a chunked run of the scanner. -/
theorem feedAll_feeds (p : FrameStreamParser) (chunks : List Bytes) :
    (byteScanner p.maxFrame).Feeds p.cursor p.buffer chunks (p.feedAll chunks).1.cursor
      (p.feedAll chunks).1.buffer (p.feedAll chunks).2 ∧
      (p.feedAll chunks).1.maxFrame = p.maxFrame := by
  induction chunks generalizing p with
  | nil => exact ⟨.nil, rfl⟩
  | cons data rest ih =>
      obtain ⟨head, hmax⟩ := feed_drains p data
      obtain ⟨tail, hmax'⟩ := ih (p.feed data).1
      rw [hmax] at tail hmax'
      exact ⟨.cons head tail, hmax'⟩

/-- The scanner has nothing to do between two `feed` calls. -/
def Settled (p : FrameStreamParser) : Prop :=
  (byteScanner p.maxFrame).step p.cursor p.buffer = none

theorem feed_settled (p : FrameStreamParser) (data : Bytes) : (p.feed data).1.Settled := by
  obtain ⟨run, hmax⟩ := feed_drains p data
  unfold Settled
  rw [hmax]
  exact run.waiting

theorem feedAll_settled {p : FrameStreamParser} (h : p.Settled) (chunks : List Bytes) :
    (p.feedAll chunks).1.Settled := by
  induction chunks generalizing p with
  | nil => exact h
  | cons data rest ih => exact ih (feed_settled p data)

/-- Parsers that agree on limit, cursor and buffer are equal. -/
theorem ext_cursor {p q : FrameStreamParser} (hm : p.maxFrame = q.maxFrame)
    (hc : p.cursor = q.cursor) (hb : p.buffer = q.buffer) : p = q := by
  cases p
  cases q
  simp only [cursor, Cursor.mk.injEq] at hm hc hb
  obtain ⟨rfl, rfl⟩ := hc
  subst hm hb
  rfl

/-- A settled parser's chunked run is one drain of everything it was fed. -/
theorem feedAll_drains {p : FrameStreamParser} (h : p.Settled) (chunks : List Bytes) :
    (byteScanner p.maxFrame).Drains p.cursor (p.buffer ++ chunks.flatten)
      (p.feedAll chunks).1.cursor (p.feedAll chunks).1.buffer (p.feedAll chunks).2 :=
  (feedAll_feeds p chunks).1.drains h

/-- Chunk boundaries do not matter to a settled parser. -/
theorem feedAll_eq_of_flatten {p : FrameStreamParser} (h : p.Settled) {xs ys : List Bytes}
    (heq : xs.flatten = ys.flatten) : p.feedAll xs = p.feedAll ys := by
  have hx := feedAll_drains h xs
  have hy := feedAll_drains h ys
  rw [heq] at hx
  obtain ⟨hc, hb, hf⟩ := hx.deterministic hy
  have hm := (feedAll_feeds p xs).2.trans (feedAll_feeds p ys).2.symm
  exact Prod.ext (ext_cursor hm hc hb) hf

/-- A constructed parser has an empty buffer and waits. -/
theorem create_settled {maxFrame : Nat} {p : FrameStreamParser} (h : create maxFrame = .ok p) :
    p.Settled ∧ p.maxFrame = maxFrame ∧ p.buffer = [] ∧ p.cursor = ⟨false, 0⟩ := by
  unfold create at h
  split at h
  · cases h
  · obtain rfl := Except.ok.inj h
    exact ⟨rfl, rfl, rfl, rfl⟩

end FrameStreamParser

end HccastWired.Protocol
