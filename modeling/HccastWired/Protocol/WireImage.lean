import HccastWired.Protocol.RoundTrip

/-!
# A returned frame was in the stream

The parser makes nothing up: encoding a frame that it returns gives back bytes that
stand one after the other in what it has been fed.
-/

namespace HccastWired.Protocol

open Foundation FrameStreamParser

/-- The frame's encoding stands somewhere in the bytes. -/
def Frame.Contained (frame : Frame) (bytes : Bytes) : Prop :=
  ∃ wire, frame.toBytes = .ok wire ∧ wire <:+: bytes

theorem Frame.Contained.mono {frame : Frame} {bytes bytes' : Bytes} (h : frame.Contained bytes)
    (hsub : bytes <:+: bytes') : frame.Contained bytes' := by
  obtain ⟨wire, hwire, hmem⟩ := h
  exact ⟨wire, hwire, hmem.trans hsub⟩

/-- Four bytes are the encoding of their number. -/
theorem toBytes_ofBytes (bytes : Bytes) :
    BigEndian.toBytes bytes.length (BigEndian.ofBytes bytes) = bytes := by
  induction bytes using List.reverseRecOn with
  | nil => rfl
  | append_singleton bytes b ih =>
      rw [BigEndian.ofBytes_append_singleton, List.length_append, List.length_singleton,
        BigEndian.toBytes]
      have hb : b.toNat < 256 := b.toNat_lt
      have hhigh : (BigEndian.ofBytes bytes * 256 + b.toNat) / 256 = BigEndian.ofBytes bytes := by
        omega
      have hlow : UInt8.ofNat (BigEndian.ofBytes bytes * 256 + b.toNat) = b := by
        apply UInt8.toNat_inj.mp
        rw [UInt8.toNat_ofNat']
        omega
      rw [hhigh, hlow, ih]

section Words

variable {buffer : Bytes}

theorem length_word {offset : Nat} (h : offset + 4 ≤ buffer.length) :
    ((buffer.drop offset).take 4).length = 4 := by
  simp only [List.length_take, List.length_drop]
  omega

/-- A word of a buffer fits 32 bits. -/
theorem u32At_lt (offset : Nat) : u32At buffer offset < 2 ^ 32 := by
  have hlt := BigEndian.ofBytes_lt ((buffer.drop offset).take 4)
  have hlen : ((buffer.drop offset).take 4).length ≤ 4 := List.length_take_le ..
  calc u32At buffer offset < 256 ^ ((buffer.drop offset).take 4).length := hlt
    _ ≤ 256 ^ 4 := Nat.pow_le_pow_right (by norm_num) hlen
    _ = 2 ^ 32 := by norm_num

theorem toBytes_u32At {offset : Nat} (h : offset + 4 ≤ buffer.length) :
    BigEndian.toBytes 4 (u32At buffer offset) = (buffer.drop offset).take 4 := by
  have hword := toBytes_ofBytes ((buffer.drop offset).take 4)
  rwa [length_word h] at hword

/-- The words of a header, one after the other. -/
theorem header_words (buffer : Bytes) :
    (buffer.drop 0).take 4 ++ (buffer.drop 4).take 4 ++ (buffer.drop 8).take 4 ++
      (buffer.drop 12).take 4 = buffer.take 16 := by
  have hjoin : ∀ count, buffer.take (count + 4) =
      buffer.take count ++ (buffer.drop count).take 4 := fun count => List.take_add
  rw [List.drop_zero, ← hjoin 4, ← hjoin 8, ← hjoin 12]

end Words

/-- A magic that is not unknown is the one of its command. -/
theorem Command.value_fromMagic {magic : Bytes} (h : fromMagic magic ≠ UNK) :
    (fromMagic magic).value = magic := by
  cases hfind : all.find? (fun command => command.value == magic) with
  | none => simp [fromMagic, hfind] at h
  | some command =>
      have hvalue : command.value = magic := by simpa using List.find?_some hfind
      have hcommand : fromMagic magic = command := by simp [fromMagic, hfind]
      rw [hcommand, hvalue]

/-- What is read at the head of a buffer that holds all of it encodes to what was read. -/
theorem headFrame_toBytes {buffer : Bytes} (hmin : HEADER_SIZE ≤ u32At buffer 0)
    (hfits : u32At buffer 0 ≤ buffer.length) :
    (headFrame buffer).toBytes = .ok (buffer.take (u32At buffer 0)) := by
  have hsize : HEADER_SIZE = 16 := rfl
  have hmagic : (magicAt buffer 0).length = 4 := length_word (by omega)
  have hsent : (headFrame buffer).magic = some (magicAt buffer 0) := by
    by_cases hcommand : Command.fromMagic (magicAt buffer 0) = .UNK
    · simp [headFrame, Frame.magic, hcommand]
    · simp [headFrame, Frame.magic, hcommand, Command.value_fromMagic hcommand]
  have htotal : (headFrame buffer).totalLength = u32At buffer 0 := by
    simp only [headFrame, Frame.totalLength, List.length_drop, List.length_take]
    omega
  have hpayload : buffer.take (u32At buffer 0) =
      buffer.take 16 ++ (buffer.take (u32At buffer 0)).drop 16 := by
    conv_lhs => rw [← List.take_append_drop 16 (buffer.take (u32At buffer 0))]
    rw [List.take_take, Nat.min_eq_left (by omega)]
  rw [hpayload, ← header_words buffer, Frame.toBytes, hsent]
  simp only [hmagic, ne_eq, not_true_eq_false, if_false, Frame.packHeader, htotal, u32At_lt,
    if_true]
  rw [show (headFrame buffer).sequence = u32At buffer 4 from rfl,
    show (headFrame buffer).flags = u32At buffer 12 from rfl, Nat.mod_eq_of_lt (u32At_lt 4),
    Nat.mod_eq_of_lt (u32At_lt 12), toBytes_u32At (by omega), toBytes_u32At (by omega),
    toBytes_u32At (by omega)]
  rfl

namespace FrameStreamParser

theorem Aligned.suffix {p a : FrameStreamParser} (h : Aligned p a) : a.buffer <:+ p.buffer := by
  cases h with
  | here => exact List.suffix_refl _
  | moved => exact List.drop_suffix ..

/-- A pass that ends the loop keeps a suffix of the buffer. -/
theorem iterate_exit {p q : FrameStreamParser} (h : iterate p = .exit q) :
    q.buffer <:+ p.buffer := by
  rcases iterate_cases p with ⟨_, h'⟩ | ⟨_, _, _, h'⟩ | ⟨a, ha, hlen, h'⟩
  · rw [h'] at h
    obtain rfl := Iteration.exit.inj h
    exact List.suffix_refl _
  · rw [h'] at h
    obtain rfl := Iteration.exit.inj h
    exact List.drop_suffix ..
  · rw [h'] at h
    rcases readHeader_cases a with ⟨_, h''⟩ | ⟨_, _, h''⟩ | ⟨_, _, h''⟩
    · rw [h''] at h; cases h
    · rw [h''] at h
      obtain rfl := Iteration.exit.inj h
      exact ha.suffix
    · rw [h''] at h; cases h

/-- The loop returns frames of its buffer and keeps a suffix of it. -/
theorem loop_contained (p : FrameStreamParser) :
    (loop p).1.buffer <:+ p.buffer ∧ ∀ frame ∈ (loop p).2, frame.Contained p.buffer := by
  induction p using loop.induct with
  | case1 p q h =>
      rw [loop, h]
      exact ⟨iterate_exit h, by simp⟩
  | case2 p q h ih =>
      obtain ⟨-, -, -, rfl⟩ := iterate_again h
      rw [loop, h]
      exact ih
  | case3 p frame q h ih =>
      obtain ⟨a, ha, hlegal, hfits, rfl, rfl⟩ := iterate_emit h
      have hmin := (plausibleLength_iff.mp hlegal).1
      have hrest : a.buffer.drop (u32At a.buffer 0) <:+ p.buffer :=
        (List.drop_suffix ..).trans ha.suffix
      rw [loop, h]
      refine ⟨ih.1.trans hrest, ?_⟩
      intro other hother
      rcases List.mem_cons.mp hother with rfl | hother
      · exact ⟨_, headFrame_toBytes hmin hfits,
          (List.take_prefix ..).isInfix.trans ha.suffix.isInfix⟩
      · exact (ih.2 other hother).mono hrest.isInfix

/-- What the parser keeps is a suffix of what it has received, and what it returns is
contained in it. -/
theorem feed_contained {p : FrameStreamParser} {received : Bytes} (h : p.buffer <:+ received)
    (data : Bytes) :
    (p.feed data).1.buffer <:+ received ++ data ∧
      ∀ frame ∈ (p.feed data).2, frame.Contained (received ++ data) := by
  have hall : p.buffer ++ data <:+ received ++ data := by
    obtain ⟨before, rfl⟩ := h
    exact ⟨before, List.append_assoc .. |>.symm⟩
  obtain ⟨hkept, hframes⟩ := loop_contained { p with buffer := p.buffer ++ data }
  exact ⟨hkept.trans hall, fun frame hframe => (hframes frame hframe).mono hall.isInfix⟩

end FrameStreamParser

end HccastWired.Protocol
