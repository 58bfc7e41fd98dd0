import HccastWired.Protocol.WireImage

/-!
# Every byte is accounted for

The bytes that a parser has been fed are in a frame that it has returned, are discarded
and counted, or are still in the buffer.
-/

namespace HccastWired.Protocol

open Foundation

/-- The frames stand in the bytes between two positions, one behind the other. -/
def StandIn (bytes : Bytes) (finish : Nat) : Nat → List Frame → Prop
  | start, [] => start ≤ finish
  | start, frame :: rest =>
      ∃ offset, start ≤ offset ∧
        frame.toBytes = .ok ((bytes.drop offset).take frame.totalLength) ∧
        offset + frame.totalLength ≤ bytes.length ∧
        StandIn bytes finish (offset + frame.totalLength) rest

section StandIn

variable {bytes : Bytes} {start middle finish : Nat} {frames : List Frame}

theorem StandIn.earlier {before : Nat} (h : StandIn bytes finish start frames)
    (hle : before ≤ start) : StandIn bytes finish before frames := by
  cases frames with
  | nil => exact hle.trans h
  | cons frame rest =>
      obtain ⟨offset, hstart, hslice⟩ := h
      exact ⟨offset, hle.trans hstart, hslice⟩

theorem StandIn.append {more : List Frame} (h : StandIn bytes middle start frames)
    (hmore : StandIn bytes finish middle more) : StandIn bytes finish start (frames ++ more) := by
  induction frames generalizing start with
  | nil => exact hmore.earlier h
  | cons frame rest ih =>
      obtain ⟨offset, hstart, hslice, hfits, hrest⟩ := h
      exact ⟨offset, hstart, hslice, hfits, ih hrest⟩

/-- Later bytes leave the frames where they are. -/
theorem StandIn.extend (h : StandIn bytes finish start frames) (data : Bytes) :
    StandIn (bytes ++ data) finish start frames := by
  induction frames generalizing start with
  | nil => exact h
  | cons frame rest ih =>
      obtain ⟨offset, hstart, hslice, hfits, hrest⟩ := h
      refine ⟨offset, hstart, ?_, ?_, ih hrest⟩
      · rw [List.drop_append_of_le_length (by omega), List.take_append_of_le_length]
        · exact hslice
        · rw [List.length_drop]
          omega
      · rw [List.length_append]
        omega

end StandIn

namespace FrameStreamParser

/-- What a parser owes to what it has been fed and to the frames it has returned. -/
structure Conserved (fed : Bytes) (p : FrameStreamParser) (frames : List Frame) : Prop where
  tail : p.buffer <:+ fed
  sum : p.discardedBytes + (frames.map Frame.totalLength).sum + p.buffer.length = fed.length
  stand : StandIn fed (fed.length - p.buffer.length) 0 frames

section Loop

variable {p a q : FrameStreamParser} {fed : Bytes} {frames : List Frame}

theorem headFrame_totalLength {buffer : Bytes} (hmin : HEADER_SIZE ≤ u32At buffer 0)
    (hfits : u32At buffer 0 ≤ buffer.length) :
    (headFrame buffer).totalLength = u32At buffer 0 := by
  have hsize : HEADER_SIZE = 16 := rfl
  simp only [headFrame, Frame.totalLength, List.length_drop, List.length_take]
  omega

/-- What is discarded is counted. -/
theorem Conserved.discard (h : Conserved fed p frames) {count : Nat}
    (hle : count ≤ p.buffer.length) : Conserved fed (p.discard count) frames where
  tail := (List.drop_suffix count p.buffer).trans h.tail
  sum := by
    have hsum := h.sum
    simp only [FrameStreamParser.discard, List.length_drop]
    omega
  stand := by
    have hmore : StandIn fed (fed.length - (p.discard count).buffer.length)
        (fed.length - p.buffer.length) [] := by
      simp only [StandIn, FrameStreamParser.discard, List.length_drop]
      omega
    have hall := h.stand.append hmore
    rwa [List.append_nil] at hall

theorem Conserved.aligned (h : Conserved fed p frames) (ha : Aligned p a) :
    Conserved fed a frames := by
  cases ha with
  | here _ => exact h
  | @moved offset _ hfit =>
      have hmoved := h.discard (show offset ≤ p.buffer.length by omega)
      exact ⟨hmoved.tail, hmoved.sum, hmoved.stand⟩

/-- A frame leaves the buffer as a whole. -/
theorem Conserved.emit (h : Conserved fed a frames) (hmin : HEADER_SIZE ≤ u32At a.buffer 0)
    (hfits : u32At a.buffer 0 ≤ a.buffer.length) :
    Conserved fed { a with buffer := a.buffer.drop (u32At a.buffer 0) }
      (frames ++ [headFrame a.buffer]) where
  tail := (List.drop_suffix _ a.buffer).trans h.tail
  sum := by
    have hsum := h.sum
    rw [List.map_append, List.sum_append, List.map_singleton, List.sum_singleton,
      headFrame_totalLength hmin hfits]
    simp only [List.length_drop]
    omega
  stand := by
    have hlength := headFrame_totalLength hmin hfits
    have hle := h.tail.length_le
    apply h.stand.append
    refine ⟨fed.length - a.buffer.length, Nat.le_refl _, ?_, ?_, ?_⟩
    · rw [hlength, ← List.suffix_iff_eq_drop.mp h.tail]
      exact headFrame_toBytes hmin hfits
    · rw [hlength]
      omega
    · simp only [StandIn, hlength, List.length_drop]
      omega

/-- A pass that ends the loop keeps less than a frame. -/
theorem Conserved.exit (h : Conserved fed p frames) (hexit : iterate p = .exit q) :
    Conserved fed q frames ∧ q.buffer.length < p.maxFrame ∧ q.maxFrame = p.maxFrame := by
  have hsize : HEADER_SIZE = 16 := rfl
  have hmin := p.minimum
  obtain ⟨hshort, hpass⟩ | ⟨hlen, -, -, hpass⟩ | ⟨a, ha, hlen, hpass⟩ := iterate_cases p
  · obtain rfl := Iteration.exit.inj (hpass.symm.trans hexit)
    exact ⟨h, by omega, rfl⟩
  · obtain rfl := Iteration.exit.inj (hpass.symm.trans hexit)
    refine ⟨h.discard (Nat.sub_le _ _), ?_, rfl⟩
    simp only [FrameStreamParser.discard, List.length_drop]
    omega
  · have hlimit : a.maxFrame = p.maxFrame := by cases ha <;> rfl
    obtain ⟨-, hread⟩ | ⟨hlegal, hshort, hread⟩ | ⟨-, -, hread⟩ := readHeader_cases a
    · rw [hpass, hread] at hexit
      cases hexit
    · obtain rfl := Iteration.exit.inj ((hpass.trans hread).symm.trans hexit)
      refine ⟨h.aligned ha, ?_, hlimit⟩
      have hmost := (plausibleLength_iff.mp hlegal).2
      omega
    · rw [hpass, hread] at hexit
      cases hexit

/-- The loop accounts for every byte and keeps less than a frame. -/
theorem Conserved.loop (h : Conserved fed p frames) :
    Conserved fed (loop p).1 (frames ++ (loop p).2) ∧
      (FrameStreamParser.loop p).1.buffer.length < p.maxFrame ∧
      (FrameStreamParser.loop p).1.maxFrame = p.maxFrame := by
  induction p using loop.induct generalizing frames with
  | case1 p q hexit =>
      rw [FrameStreamParser.loop, hexit]
      simp only [List.append_nil]
      exact h.exit hexit
  | case2 p q hagain ih =>
      obtain ⟨-, -, -, rfl⟩ := iterate_again hagain
      rw [FrameStreamParser.loop, hagain]
      exact ih ⟨h.tail, h.sum, h.stand⟩
  | case3 p frame q hemit ih =>
      obtain ⟨a, ha, hlegal, hfits, rfl, rfl⟩ := iterate_emit hemit
      have hlimit : a.maxFrame = p.maxFrame := by cases ha <;> rfl
      have hrest := ih ((h.aligned ha).emit (plausibleLength_iff.mp hlegal).1 hfits)
      rw [FrameStreamParser.loop, hemit]
      rw [List.append_assoc] at hrest
      rw [← hlimit]
      exact hrest

theorem Conserved.feed (h : Conserved fed p frames) (data : Bytes) :
    Conserved (fed ++ data) (p.feed data).1 (frames ++ (p.feed data).2) ∧
      (p.feed data).1.buffer.length < p.maxFrame ∧ (p.feed data).1.maxFrame = p.maxFrame := by
  have hle := h.tail.length_le
  have hfed : Conserved (fed ++ data) { p with buffer := p.buffer ++ data } frames := by
    constructor
    · obtain ⟨before, hbefore⟩ := h.tail
      refine ⟨before, ?_⟩
      change before ++ (p.buffer ++ data) = fed ++ data
      rw [← List.append_assoc, hbefore]
    · have hsum := h.sum
      simp only [List.length_append]
      omega
    · have hstay := h.stand.extend data
      have hposition : fed.length - p.buffer.length =
          (fed ++ data).length - (p.buffer ++ data).length := by
        simp only [List.length_append]
        omega
      rwa [hposition] at hstay
  exact hfed.loop

theorem Conserved.feedAll (h : Conserved fed p frames) (hshort : p.buffer.length < p.maxFrame)
    (history : List Bytes) :
    Conserved (fed ++ history.flatten) (p.feedAll history).1
        (frames ++ (p.feedAll history).2) ∧
      (p.feedAll history).1.buffer.length < p.maxFrame := by
  induction history generalizing p fed frames with
  | nil =>
      rw [FrameStreamParser.feedAll, List.flatten_nil, List.append_nil, List.append_nil]
      exact ⟨h, hshort⟩
  | cons data rest ih =>
      obtain ⟨hfeed, hkept, hlimit⟩ := h.feed data
      have hrest := ih hfeed (hlimit.symm ▸ hkept)
      rw [FrameStreamParser.feedAll, List.flatten_cons, ← List.append_assoc,
        ← List.append_assoc, ← hlimit]
      exact hrest

end Loop

/-- After any history of `feed` calls the bytes fed are those discarded, those of the
returned frames and those in the buffer; the buffer is the tail of the stream and shorter
than the longest frame; and the frames encode to slices of the stream that lie one behind
the other, before the buffered bytes. -/
theorem feed_conserves_bytes {maxFrame : Nat} {fresh : FrameStreamParser}
    (h : create maxFrame = .ok fresh) (history : List Bytes) :
    let p := (fresh.feedAll history).1
    let frames := (fresh.feedAll history).2
    history.flatten.length =
        p.discardedBytes + (frames.map Frame.totalLength).sum + p.bufferedBytes ∧
      p.buffer <:+ history.flatten ∧ p.bufferedBytes < maxFrame ∧
      StandIn history.flatten (history.flatten.length - p.bufferedBytes) 0 frames := by
  intro p frames
  obtain ⟨-, hlimit, hbuffer, hcursor⟩ := create_settled h
  have hdiscarded : fresh.discardedBytes = 0 := congrArg Cursor.skipped hcursor
  have hstart : Conserved [] fresh [] := by
    constructor
    · rw [hbuffer]
    · rw [hbuffer, hdiscarded]
      rfl
    · rw [hbuffer]
      exact Nat.le_refl 0
  have hmin := fresh.minimum
  have hsize : HEADER_SIZE = 16 := rfl
  obtain ⟨hall, hkept⟩ := hstart.feedAll (by rw [hbuffer, List.length_nil]; omega) history
  rw [List.nil_append, List.nil_append] at hall
  refine ⟨hall.sum.symm, hall.tail, ?_, hall.stand⟩
  rw [← hlimit]
  exact hkept

/-- Two junk bytes, a frame that is fed in two pieces and the beginning of another. -/
theorem feed_conserves_bytes_split :
    ∃ fresh, create 64 = .ok fresh ∧
      (let history : List Bytes := [[0xFF, 0xFF, 0, 0, 0, 17, 0, 0, 0, 1, 0x53, 0x45],
        [0x54, 0x52, 0, 0, 0, 1, 7, 0, 0]]
       let p := (fresh.feedAll history).1
       history.flatten.length = p.discardedBytes +
         ((fresh.feedAll history).2.map Frame.totalLength).sum + p.bufferedBytes) :=
  ⟨_, rfl, (@feed_conserves_bytes 64 _ rfl _).1⟩

end FrameStreamParser

end HccastWired.Protocol
