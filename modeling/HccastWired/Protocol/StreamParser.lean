import HccastWired.Protocol.Frame

/-!
# The incremental frame parser

USB transfer boundaries are not HCCAST message boundaries. `feed` accepts
fragmented and coalesced messages; on obvious corruption it scans forward for
a plausible length and a known command.
-/

namespace HccastWired.Protocol

open Foundation

/-- `_U32.unpack_from(buffer, offset)`. -/
def u32At (buffer : Bytes) (offset : Nat) : Nat :=
  BigEndian.ofBytes ((buffer.drop offset).take 4)

/-- `buffer[offset + 8 : offset + 12]`. -/
def magicAt (buffer : Bytes) (offset : Nat) : Bytes :=
  (buffer.drop (offset + 8)).take 4

/-- The parser object. The constructor's check is carried as a field. -/
structure FrameStreamParser where
  maxFrame : Nat
  minimum : HEADER_SIZE ≤ maxFrame
  buffer : Bytes := []
  resynchronizing : Bool := false
  discardedBytes : Nat := 0
  deriving DecidableEq

namespace FrameStreamParser

/-- `__init__`. -/
def create (maxFrame : Nat) : Except String FrameStreamParser :=
  if h : maxFrame < HEADER_SIZE then .error "max_frame must be at least 16"
  else .ok { maxFrame, minimum := Nat.le_of_not_lt h }

def bufferedBytes (p : FrameStreamParser) : Nat := p.buffer.length

/-- `_plausible_length`. -/
def plausibleLength (maxFrame value : Nat) : Bool :=
  decide (HEADER_SIZE ≤ value) && decide (value ≤ maxFrame)

/-- The two tests of one search offset: a sane length and a known command. -/
def candidate (maxFrame : Nat) (buffer : Bytes) (offset : Nat) : Bool :=
  plausibleLength maxFrame (u32At buffer offset) && Command.known.contains (magicAt buffer offset)

/-- `for offset in range(search_limit)`, with `count` offsets left to try. -/
def search (maxFrame : Nat) (buffer : Bytes) : Nat → Nat → Option Nat
  | _, 0 => none
  | offset, count + 1 =>
      if buffer.length - offset < HEADER_SIZE then none
      else if candidate maxFrame buffer offset then some offset
      else search maxFrame buffer (offset + 1) count

/-- Drop a junk prefix and count it. -/
def discard (p : FrameStreamParser) (count : Nat) : FrameStreamParser :=
  { p with buffer := p.buffer.drop count, discardedBytes := p.discardedBytes + count }

/-- `_resync`. Without a candidate the last 15 bytes stay: they may be the
start of a header. -/
def resync (p : FrameStreamParser) : Bool × FrameStreamParser :=
  match search p.maxFrame p.buffer 0 (max 1 (p.buffer.length + 1 - HEADER_SIZE)) with
  | some offset => (true, p.discard offset)
  | none => (false, p.discard (max 1 (p.buffer.length - (HEADER_SIZE - 1))))

/-- How one pass through the `while` body of `feed` ends. -/
inductive Iteration where
  | exit (p : FrameStreamParser)
  | again (p : FrameStreamParser)
  | emit (frame : Frame) (p : FrameStreamParser)

/-- The frame at the head of a buffer that holds all of it. -/
def headFrame (buffer : Bytes) : Frame :=
  let total := u32At buffer 0
  let magic := magicAt buffer 0
  let command := Command.fromMagic magic
  { sequence := u32At buffer 4
    command
    flags := u32At buffer 12
    payload := (buffer.take total).drop HEADER_SIZE
    rawCommand := if command = .UNK then some magic else none }

/-- The part of the body that reads an aligned header. -/
def readHeader (p : FrameStreamParser) : Iteration :=
  let totalLength := u32At p.buffer 0
  if !plausibleLength p.maxFrame totalLength then .again { p with resynchronizing := true }
  else if p.buffer.length < totalLength then .exit p
  else .emit (headFrame p.buffer) { p with buffer := p.buffer.drop totalLength }

/-- One evaluation of the loop condition and body. -/
def iterate (p : FrameStreamParser) : Iteration :=
  if p.buffer.length < HEADER_SIZE then .exit p
  else if p.resynchronizing then
    match p.resync with
    | (false, q) => .exit q
    | (true, q) => readHeader { q with resynchronizing := false }
  else readHeader p

/-- Every further pass has fewer bytes, or the same bytes in search mode. -/
def pending (p : FrameStreamParser) : Nat :=
  2 * p.buffer.length + if p.resynchronizing then 0 else 1

theorem search_some {maxFrame : Nat} {buffer : Bytes} {offset count found : Nat}
    (h : search maxFrame buffer offset count = some found) :
    offset ≤ found ∧ found + HEADER_SIZE ≤ buffer.length ∧
      candidate maxFrame buffer found = true ∧
      ∀ i, offset ≤ i → i < found → candidate maxFrame buffer i = false := by
  induction count generalizing offset with
  | zero => simp [search] at h
  | succ count ih =>
      simp only [search] at h
      split at h
      · cases h
      · next hlen =>
        split at h
        · next hc =>
          obtain rfl := Option.some.inj h
          have : HEADER_SIZE = 16 := rfl
          exact ⟨le_rfl, by omega, hc, fun i h₁ h₂ => absurd h₂ (by omega)⟩
        · next hc =>
          obtain ⟨hle, hfit, hfound, hmin⟩ := ih h
          refine ⟨by omega, hfit, hfound, fun i h₁ h₂ => ?_⟩
          rcases Nat.eq_or_lt_of_le h₁ with rfl | hlt
          · simpa using hc
          · exact hmin i hlt h₂

theorem search_none {maxFrame : Nat} {buffer : Bytes} {offset count : Nat}
    (h : search maxFrame buffer offset count = none) :
    ∀ i, offset ≤ i → i < offset + count → i + HEADER_SIZE ≤ buffer.length →
      candidate maxFrame buffer i = false := by
  induction count generalizing offset with
  | zero => intro i h₁ h₂; omega
  | succ count ih =>
      intro i h₁ h₂ hfit
      simp only [search] at h
      split at h
      · next hlen =>
        have : HEADER_SIZE = 16 := rfl
        omega
      · split at h
        · cases h
        · next hc =>
          rcases Nat.eq_or_lt_of_le h₁ with rfl | hlt
          · simpa using hc
          · exact ih h i hlt (by omega) hfit

/-- A successful search stops at the first header-sized window that passes both tests. -/
theorem resync_true {p q : FrameStreamParser} (h : p.resync = (true, q)) :
    ∃ offset, q = p.discard offset ∧ offset + HEADER_SIZE ≤ p.buffer.length ∧
      candidate p.maxFrame p.buffer offset = true ∧
      ∀ i < offset, candidate p.maxFrame p.buffer i = false := by
  unfold resync at h
  split at h
  · next offset hs =>
    obtain ⟨-, rfl⟩ := Prod.mk.inj h
    obtain ⟨-, hfit, hc, hmin⟩ := search_some hs
    exact ⟨offset, rfl, hfit, hc, fun i hi => hmin i (Nat.zero_le i) hi⟩
  · cases h

/-- A failed search leaves exactly the last 15 bytes. -/
theorem resync_false {p q : FrameStreamParser} (h : p.resync = (false, q))
    (hlen : HEADER_SIZE ≤ p.buffer.length) :
    q = p.discard (p.buffer.length - 15) ∧
      ∀ i, i + HEADER_SIZE ≤ p.buffer.length → candidate p.maxFrame p.buffer i = false := by
  have hsize : HEADER_SIZE = 16 := rfl
  unfold resync at h
  split at h
  · cases h
  · next hs =>
    obtain ⟨-, rfl⟩ := Prod.mk.inj h
    refine ⟨?_, fun i hfit => search_none hs i (Nat.zero_le i) (by omega) hfit⟩
    congr 1
    omega

theorem u32At_drop (buffer : Bytes) (count offset : Nat) :
    u32At (buffer.drop count) offset = u32At buffer (count + offset) := by
  simp [u32At, List.drop_drop]

theorem magicAt_drop (buffer : Bytes) (count offset : Nat) :
    magicAt (buffer.drop count) offset = magicAt buffer (count + offset) := by
  simp [magicAt, List.drop_drop, Nat.add_assoc]

theorem candidate_drop (maxFrame : Nat) (buffer : Bytes) (count offset : Nat) :
    candidate maxFrame (buffer.drop count) offset = candidate maxFrame buffer (count + offset) := by
  simp [candidate, u32At_drop, magicAt_drop]

theorem plausibleLength_iff {maxFrame value : Nat} :
    plausibleLength maxFrame value = true ↔ HEADER_SIZE ≤ value ∧ value ≤ maxFrame := by
  simp [plausibleLength]

/-- The parser whose header an iteration reads: the parser itself, or the one
a successful search has moved to its candidate. -/
inductive Aligned (p : FrameStreamParser) : FrameStreamParser → Prop
  | here (h : p.resynchronizing = false) : Aligned p p
  | moved {offset : Nat} (h : p.resynchronizing = true)
      (hfit : offset + HEADER_SIZE ≤ p.buffer.length)
      (hc : candidate p.maxFrame p.buffer offset = true)
      (hmin : ∀ i < offset, candidate p.maxFrame p.buffer i = false) :
      Aligned p { p.discard offset with resynchronizing := false }

/-- Everything one pass can do. -/
theorem iterate_cases (p : FrameStreamParser) :
    (p.buffer.length < HEADER_SIZE ∧ iterate p = .exit p) ∨
    (HEADER_SIZE ≤ p.buffer.length ∧ p.resynchronizing = true ∧
      (∀ i, i + HEADER_SIZE ≤ p.buffer.length → candidate p.maxFrame p.buffer i = false) ∧
      iterate p = .exit (p.discard (p.buffer.length - 15))) ∨
    ∃ a, Aligned p a ∧ HEADER_SIZE ≤ a.buffer.length ∧ iterate p = readHeader a := by
  by_cases hlen : p.buffer.length < HEADER_SIZE
  · exact Or.inl ⟨hlen, by simp [iterate, hlen]⟩
  have hlen' : HEADER_SIZE ≤ p.buffer.length := Nat.le_of_not_lt hlen
  cases hr : p.resynchronizing with
  | false =>
      exact Or.inr (Or.inr ⟨p, Aligned.here hr, hlen', by simp [iterate, hlen, hr]⟩)
  | true =>
      cases hq : p.resync with
      | mk found q =>
          cases found with
          | false =>
              obtain ⟨rfl, hnone⟩ := resync_false hq hlen'
              exact Or.inr (Or.inl ⟨hlen', rfl, hnone, by simp [iterate, hlen, hr, hq]⟩)
          | true =>
              obtain ⟨offset, rfl, hfit, hc, hmin⟩ := resync_true hq
              refine Or.inr (Or.inr ⟨_, Aligned.moved hr hfit hc hmin, ?_, ?_⟩)
              · simp only [discard, List.length_drop]
                omega
              · simp [iterate, hlen, hr, hq]

/-- The three ways of reading an aligned header. -/
theorem readHeader_cases (a : FrameStreamParser) :
    (plausibleLength a.maxFrame (u32At a.buffer 0) = false ∧
      readHeader a = .again { a with resynchronizing := true }) ∨
    (plausibleLength a.maxFrame (u32At a.buffer 0) = true ∧
      a.buffer.length < u32At a.buffer 0 ∧ readHeader a = .exit a) ∨
    (plausibleLength a.maxFrame (u32At a.buffer 0) = true ∧
      u32At a.buffer 0 ≤ a.buffer.length ∧
      readHeader a =
        .emit (headFrame a.buffer) { a with buffer := a.buffer.drop (u32At a.buffer 0) }) := by
  cases hp : plausibleLength a.maxFrame (u32At a.buffer 0) with
  | false => exact Or.inl ⟨rfl, by simp [readHeader, hp]⟩
  | true =>
      by_cases hlen : a.buffer.length < u32At a.buffer 0
      · exact Or.inr (Or.inl ⟨rfl, hlen, by simp [readHeader, hp, hlen]⟩)
      · exact Or.inr (Or.inr ⟨rfl, Nat.le_of_not_lt hlen, by simp [readHeader, hp, hlen]⟩)

/-- A successful search never ends at a header that is rejected again. -/
theorem Aligned.lengthFits {p a : FrameStreamParser} (h : Aligned p a)
    (hr : p.resynchronizing = true) : plausibleLength a.maxFrame (u32At a.buffer 0) = true := by
  cases h with
  | here h => rw [hr] at h; cases h
  | moved _ _ hc _ =>
      simp only [candidate, Bool.and_eq_true] at hc
      simpa [discard, u32At_drop] using hc.1

/-- A pass that rejects its header only switches to search mode. -/
theorem iterate_again {p q : FrameStreamParser} (h : iterate p = .again q) :
    p.resynchronizing = false ∧ HEADER_SIZE ≤ p.buffer.length ∧
      plausibleLength p.maxFrame (u32At p.buffer 0) = false ∧
      q = { p with resynchronizing := true } := by
  rcases iterate_cases p with ⟨_, h'⟩ | ⟨_, _, _, h'⟩ | ⟨a, ha, hlen, h'⟩
  · rw [h'] at h; cases h
  · rw [h'] at h; cases h
  · rw [h'] at h
    rcases readHeader_cases a with ⟨hp, h''⟩ | ⟨_, _, h''⟩ | ⟨_, _, h''⟩
    · rw [h''] at h
      cases hr : p.resynchronizing with
      | true => rw [ha.lengthFits hr] at hp; cases hp
      | false =>
          cases ha with
          | here _ => exact ⟨rfl, hlen, hp, (Iteration.again.inj h).symm⟩
          | moved hr' => rw [hr] at hr'; cases hr'
    · rw [h''] at h; cases h
    · rw [h''] at h; cases h

/-- A pass that returns a frame has removed all its bytes. -/
theorem iterate_emit {p q : FrameStreamParser} {frame : Frame} (h : iterate p = .emit frame q) :
    ∃ a, Aligned p a ∧ plausibleLength a.maxFrame (u32At a.buffer 0) = true ∧
      u32At a.buffer 0 ≤ a.buffer.length ∧ frame = headFrame a.buffer ∧
      q = { a with buffer := a.buffer.drop (u32At a.buffer 0) } := by
  rcases iterate_cases p with ⟨_, h'⟩ | ⟨_, _, _, h'⟩ | ⟨a, ha, hlen, h'⟩
  · rw [h'] at h; cases h
  · rw [h'] at h; cases h
  · rw [h'] at h
    rcases readHeader_cases a with ⟨_, h''⟩ | ⟨_, _, h''⟩ | ⟨hp, hle, h''⟩
    · rw [h''] at h; cases h
    · rw [h''] at h; cases h
    · rw [h''] at h
      obtain ⟨rfl, rfl⟩ := Iteration.emit.inj h
      exact ⟨a, ha, hp, hle, rfl, rfl⟩

theorem Aligned.length_le {p a : FrameStreamParser} (h : Aligned p a) :
    a.buffer.length ≤ p.buffer.length ∧ a.resynchronizing = false := by
  cases h with
  | here h => exact ⟨le_rfl, h⟩
  | moved => simp [discard]

theorem pending_again {p q : FrameStreamParser} (h : iterate p = .again q) :
    q.pending < p.pending := by
  obtain ⟨hr, -, -, rfl⟩ := iterate_again h
  simp [pending, hr]

theorem pending_emit {p q : FrameStreamParser} {frame : Frame} (h : iterate p = .emit frame q) :
    q.pending < p.pending := by
  obtain ⟨a, ha, hp, hle, -, rfl⟩ := iterate_emit h
  obtain ⟨hlen, hr⟩ := ha.length_le
  have hsize : HEADER_SIZE = 16 := rfl
  have htotal := (plausibleLength_iff.mp hp).1
  simp only [pending, hr, List.length_drop, Bool.false_eq_true, if_false]
  omega

/-- The `while` loop of `feed`, collecting its frames in order. -/
def loop (p : FrameStreamParser) : FrameStreamParser × List Frame :=
  match _h : iterate p with
  | .exit q => (q, [])
  | .again q => loop q
  | .emit frame q => ((loop q).1, frame :: (loop q).2)
  termination_by p.pending
  decreasing_by
    · exact pending_again _h
    · exact pending_emit _h

def feed (p : FrameStreamParser) (data : Bytes) : FrameStreamParser × List Frame :=
  loop { p with buffer := p.buffer ++ data }

/-- Successive `feed` calls, with all returned frames concatenated. -/
def feedAll (p : FrameStreamParser) : List Bytes → FrameStreamParser × List Frame
  | [] => (p, [])
  | data :: rest =>
      let tail := feedAll (p.feed data).1 rest
      (tail.1, (p.feed data).2 ++ tail.2)

end FrameStreamParser

end HccastWired.Protocol
