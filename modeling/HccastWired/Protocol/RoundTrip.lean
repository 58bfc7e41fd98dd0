import HccastWired.Protocol.Chunking

/-!
# Encoding and stream decoding are inverse

The header layout makes every encoded frame readable at the head of a buffer,
so the scanner walks over a concatenation of encodings frame by frame, also
after a junk prefix in which it can find no header.
-/

namespace HccastWired.Protocol

open Foundation FrameStreamParser

namespace Frame

/-- The frames a parser can return: words in range, and a raw magic exactly
for unknown commands. -/
def WireForm (frame : Frame) : Prop :=
  frame.sequence < 2 ^ 32 ∧ frame.flags < 2 ^ 32 ∧
    ((frame.command ≠ .UNK ∧ frame.rawCommand = none) ∨
      (frame.command = .UNK ∧
        ∃ magic, frame.rawCommand = some magic ∧ magic.length = 4 ∧ magic ∉ Command.known))

/-- The magic of a frame in wire form determines its command and raw magic. -/
theorem WireForm.magic {frame : Frame} (h : frame.WireForm) :
    ∃ magic, frame.magic = some magic ∧ magic.length = 4 ∧
      Command.fromMagic magic = frame.command ∧
      (if frame.command = .UNK then some magic else none) = frame.rawCommand := by
  obtain ⟨-, -, ⟨hc, hraw⟩ | ⟨hc, magic, hraw, hlen, hunknown⟩⟩ := h
  · exact ⟨frame.command.value, by simp [Frame.magic, hc], by simp, by simp, by simp [hc, hraw]⟩
  · exact ⟨magic, by simp [Frame.magic, hc, hraw], hlen,
      by rw [hc, Command.fromMagic_eq_UNK_iff]; exact hunknown, by simp [hc, hraw]⟩

/-- The 16 header bytes followed by the payload. -/
theorem toBytes_eq {frame : Frame} (h : frame.WireForm) (hfit : frame.totalLength < 2 ^ 32)
    {magic : Bytes} (hm : frame.magic = some magic) (hlen : magic.length = 4) :
    frame.toBytes = .ok (BigEndian.toBytes 4 frame.totalLength ++
      BigEndian.toBytes 4 frame.sequence ++ magic ++ BigEndian.toBytes 4 frame.flags ++
      frame.payload) := by
  obtain ⟨hseq, hflags, -⟩ := h
  simp only [toBytes, hm, hlen, ne_eq, not_true_eq_false, if_false, packHeader, hfit, if_true,
    Nat.mod_eq_of_lt hseq, Nat.mod_eq_of_lt hflags]
  rfl

/-- A frame whose length does not fit the 32-bit word cannot be encoded. -/
theorem toBytes_too_long {frame : Frame} (h : frame.command ≠ .UNK)
    (hlong : 2 ^ 32 ≤ frame.totalLength) : frame.toBytes = .error .structError := by
  simp only [toBytes, Frame.magic, h, ne_eq, not_false_eq_true, if_true, Command.length_value,
    not_true_eq_false, if_false, packHeader, Nat.not_lt.mpr hlong]
  rfl

end Frame

/-- The fields of a buffer that starts with a 16-byte header. -/
theorem header_fields {total sequence magic flags : Bytes} (rest : Bytes) (ht : total.length = 4)
    (hs : sequence.length = 4) (hm : magic.length = 4) (hf : flags.length = 4) :
    let buf := total ++ sequence ++ magic ++ flags ++ rest
    u32At buf 0 = BigEndian.ofBytes total ∧ u32At buf 4 = BigEndian.ofBytes sequence ∧
      magicAt buf 0 = magic ∧ u32At buf 12 = BigEndian.ofBytes flags ∧ buf.drop 16 = rest := by
  simp [u32At, magicAt, List.drop_append, ht, hs, hm, hf, List.drop_eq_nil_of_le]

/-- An encoded frame at the head of a buffer is what the parser reads there. -/
theorem read_encoded {frame : Frame} (h : frame.WireForm) (hfit : frame.totalLength < 2 ^ 32)
    {bytes : Bytes} (hb : frame.toBytes = .ok bytes) (rest : Bytes) :
    bytes.length = frame.totalLength ∧ u32At (bytes ++ rest) 0 = frame.totalLength ∧
      headFrame (bytes ++ rest) = frame ∧
      (frame.command ≠ .UNK → magicAt (bytes ++ rest) 0 ∈ Command.known) := by
  obtain ⟨magic, hmagic, hlen, hfrom, hraw⟩ := h.magic
  rw [Frame.toBytes_eq h hfit hmagic hlen] at hb
  obtain rfl := Except.ok.inj hb
  have hword : (2 : Nat) ^ 32 = 256 ^ 4 := by norm_num
  obtain ⟨ht, hs, hm, hf, hrest⟩ := header_fields (frame.payload ++ rest)
    (BigEndian.length_toBytes 4 frame.totalLength) (BigEndian.length_toBytes 4 frame.sequence)
    hlen (BigEndian.length_toBytes 4 frame.flags)
  rw [← List.append_assoc] at ht hs hm hf hrest
  rw [BigEndian.ofBytes_toBytes _ _ (hword ▸ hfit)] at ht
  rw [BigEndian.ofBytes_toBytes _ _ (hword ▸ h.1)] at hs
  rw [BigEndian.ofBytes_toBytes _ _ (hword ▸ h.2.1)] at hf
  refine ⟨?_, ht, ?_, ?_⟩
  · simp only [List.length_append, BigEndian.length_toBytes, hlen, Frame.totalLength, HEADER_SIZE]
  · have hpayload : frame.totalLength = 16 + frame.payload.length := rfl
    simp only [headFrame, ht, hs, hm, hf, hfrom, hraw]
    rw [List.drop_take, show HEADER_SIZE = 16 from rfl, hrest, hpayload, Nat.add_sub_cancel_left,
      List.take_left]
  · intro hc
    rw [hm]
    have : magic = frame.command.value := by
      simp only [Frame.magic, hc, ne_eq, not_false_eq_true, if_true, Option.some.injEq] at hmagic
      exact hmagic.symm
    exact this ▸ Command.value_mem_known hc

/-- The frames of a list fit the parser's limit and the length word. -/
def Fit (maxFrame : Nat) (frames : List Frame) : Prop :=
  ∀ frame ∈ frames, frame.WireForm ∧ frame.totalLength ≤ maxFrame ∧ frame.totalLength < 2 ^ 32

theorem encodeAll_ok {maxFrame : Nat} {frames : List Frame} (h : Fit maxFrame frames) :
    ∃ bytes, Frame.encodeAll frames = .ok bytes := by
  induction frames with
  | nil => exact ⟨[], rfl⟩
  | cons frame rest ih =>
      obtain ⟨hw, -, hfit⟩ := h frame (List.mem_cons_self ..)
      obtain ⟨magic, hmagic, hlen, -, -⟩ := hw.magic
      obtain ⟨tail, htail⟩ := ih fun f hf => h f (List.mem_cons_of_mem _ hf)
      have hhead := Frame.toBytes_eq hw hfit hmagic hlen
      exact ⟨_, by simp only [Frame.encodeAll, hhead, htail]; rfl⟩

theorem encodeAll_cons {frame : Frame} {rest : List Frame} {bytes : Bytes}
    (h : Frame.encodeAll (frame :: rest) = .ok bytes) :
    ∃ head tail, frame.toBytes = .ok head ∧ Frame.encodeAll rest = .ok tail ∧
      bytes = head ++ tail := by
  simp only [Frame.encodeAll] at h
  cases hh : frame.toBytes with
  | error e => rw [hh] at h; cases h
  | ok head =>
      cases ht : Frame.encodeAll rest with
      | error e => rw [hh, ht] at h; cases h
      | ok tail =>
          rw [hh, ht] at h
          exact ⟨head, tail, rfl, rfl, (Except.ok.inj h).symm⟩

/-- An aligned scanner reads a concatenation of encodings frame by frame. -/
theorem encodeAll_drains {maxFrame : Nat} {frames : List Frame} (h : Fit maxFrame frames)
    {bytes : Bytes} (hb : Frame.encodeAll frames = .ok bytes) (skipped : Nat) :
    (byteScanner maxFrame).Drains ⟨false, skipped⟩ bytes ⟨false, skipped⟩ [] frames := by
  induction frames generalizing bytes with
  | nil =>
      obtain rfl := Except.ok.inj hb
      exact .wait rfl
  | cons frame rest ih =>
      obtain ⟨head, tail, hh, ht, rfl⟩ := encodeAll_cons hb
      obtain ⟨hw, hmax, hfit⟩ := h frame (List.mem_cons_self ..)
      obtain ⟨hlen, htotal, hhead, -⟩ := read_encoded hw hfit hh tail
      have hrun := ih (fun f hf => h f (List.mem_cons_of_mem _ hf)) ht
      refine Consumer.Drains.emit ?_ hrun
      have hmin : HEADER_SIZE ≤ frame.totalLength := Nat.le_add_right ..
      have hsize : ¬ (head ++ tail).length < HEADER_SIZE := by
        simp only [List.length_append]
        omega
      have hlegal : plausibleLength maxFrame frame.totalLength = true :=
        plausibleLength_iff.mpr ⟨hmin, hmax⟩
      have hwhole : ¬ (head ++ tail).length < frame.totalLength := by
        simp only [List.length_append]
        omega
      have hdrop : (head ++ tail).drop frame.totalLength = tail := by
        rw [← hlen, List.drop_left]
      simp only [byteScanner, ByteScanner.step, if_neg hsize, htotal, hlegal, hhead, hdrop,
        if_neg hwhole, Bool.not_true, Bool.false_eq_true, if_false]

/-- A junk prefix without any header window is skipped byte by byte. -/
theorem junk_drains {maxFrame : Nat} {frame : Frame} {rest : List Frame}
    (h : Fit maxFrame (frame :: rest)) (hknown : frame.command ≠ .UNK) {bytes : Bytes}
    (hb : Frame.encodeAll (frame :: rest) = .ok bytes) {junk : Bytes}
    (hbad : plausibleLength maxFrame (u32At (junk ++ bytes) 0) = false)
    (hno : ∀ i < junk.length, candidate maxFrame (junk ++ bytes) i = false) :
    (byteScanner maxFrame).Drains ⟨false, 0⟩ (junk ++ bytes) ⟨false, junk.length⟩ []
      (frame :: rest) := by
  have hrun := encodeAll_drains h hb junk.length
  obtain ⟨head, tail, hh, -, rfl⟩ := encodeAll_cons hb
  obtain ⟨hw, hmax, hfit⟩ := h frame (List.mem_cons_self ..)
  obtain ⟨hlen, htotal, -, hmagic⟩ := read_encoded hw hfit hh tail
  have hmin : HEADER_SIZE ≤ frame.totalLength := Nat.le_add_right ..
  have hsize : HEADER_SIZE = 16 := rfl
  have hlong : ¬ (head ++ tail).length < HEADER_SIZE := by
    simp only [List.length_append]
    omega
  have hcandidate : candidate maxFrame (head ++ tail) 0 = true := by
    simp only [candidate, htotal, plausibleLength_iff.mpr ⟨hmin, hmax⟩, Bool.true_and,
      List.contains_iff_mem]
    exact hmagic hknown
  have hfound : (byteScanner maxFrame).step ⟨true, 0 + junk.length⟩ (head ++ tail) =
      some (⟨false, junk.length⟩, head ++ tail, []) := by
    simp only [byteScanner, ByteScanner.step, if_neg hlong, hcandidate, if_true, Nat.zero_add]
  have hskip := skip_drains 0 junk.length
    (by simp only [List.length_append] at hlong ⊢; omega) hno
    (by rw [List.drop_left]; exact Consumer.Drains.silent hfound hrun)
  refine Consumer.Drains.silent ?_ hskip
  have hall : ¬ (junk ++ (head ++ tail)).length < HEADER_SIZE := by
    simp only [List.length_append] at hlong ⊢
    omega
  simp only [byteScanner, ByteScanner.step, if_neg hall, hbad, Bool.not_false,
    Bool.false_eq_true, if_false, if_true]

/-- A fresh parser that is fed a stream its scanner drains returns those frames. -/
theorem feedAll_of_drains {maxFrame : Nat} {fresh : FrameStreamParser}
    (h : create maxFrame = .ok fresh) {stream : Bytes} {skipped : Nat} {frames : List Frame}
    (run : (byteScanner maxFrame).Drains ⟨false, 0⟩ stream ⟨false, skipped⟩ [] frames)
    {chunks : List Bytes} (hc : chunks.flatten = stream) :
    (fresh.feedAll chunks).2 = frames ∧ (fresh.feedAll chunks).1.discardedBytes = skipped ∧
      (fresh.feedAll chunks).1.bufferedBytes = 0 := by
  obtain ⟨hs, rfl, hbuf, hcur⟩ := create_settled h
  have actual := feedAll_drains hs chunks
  rw [hbuf, hcur, List.nil_append, hc] at actual
  obtain ⟨hcursor, hbuffer, hframes⟩ := actual.deterministic run
  exact ⟨hframes, congrArg Cursor.skipped hcursor, by rw [bufferedBytes, hbuffer, List.length_nil]⟩

/-- Encoding followed by stream decoding in any chunking gives back the list;
so does decoding after a junk prefix that shows no header window, and then
exactly the junk is discarded. -/
theorem decode_encode {maxFrame : Nat} {fresh : FrameStreamParser}
    (h : create maxFrame = .ok fresh) (frames : List Frame)
    (hwire : ∀ frame ∈ frames, frame.WireForm)
    (hfit : ∀ frame ∈ frames, frame.totalLength ≤ maxFrame ∧ frame.totalLength < 2 ^ 32) :
    ∃ bytes, Frame.encodeAll frames = .ok bytes ∧
      (∀ chunks : List Bytes, chunks.flatten = bytes →
        (fresh.feedAll chunks).2 = frames ∧ (fresh.feedAll chunks).1.discardedBytes = 0 ∧
          (fresh.feedAll chunks).1.bufferedBytes = 0) ∧
      ∀ junk : Bytes, junk ≠ [] →
        plausibleLength maxFrame (u32At (junk ++ bytes) 0) = false →
        (∀ i < junk.length, candidate maxFrame (junk ++ bytes) i = false) →
        (∃ frame rest, frames = frame :: rest ∧ frame.command ≠ .UNK) →
        ∀ chunks : List Bytes, chunks.flatten = junk ++ bytes →
          (fresh.feedAll chunks).2 = frames ∧
            (fresh.feedAll chunks).1.discardedBytes = junk.length ∧
            (fresh.feedAll chunks).1.bufferedBytes = 0 := by
  have hall : Fit maxFrame frames := fun frame hf =>
    ⟨hwire frame hf, (hfit frame hf).1, (hfit frame hf).2⟩
  obtain ⟨bytes, hb⟩ := encodeAll_ok hall
  refine ⟨bytes, hb, ?_, ?_⟩
  · intro chunks hc
    exact feedAll_of_drains h (encodeAll_drains hall hb 0) hc
  · rintro junk _ hbad hno ⟨frame, rest, hcons, hknown⟩ chunks hc
    subst hcons
    exact feedAll_of_drains h (junk_drains hall hknown hb hbad hno) hc

/-- A video frame behind a five-byte preamble that splits inside junk and header. -/
theorem decode_encode_preamble :
    ∃ fresh, create 32 = .ok fresh ∧
      (fresh.feedAll [[0xFF, 0xFF, 0xFF], [0xFF, 0xFF, 0, 0, 0, 17, 0, 0, 0, 7, 0x00],
        [0x44, 0x49, 0x56, 0, 0, 0, 0, 0xAB]]).2 =
        [{ sequence := 7, command := .VID, flags := 0, payload := [0xAB] }] := by
  refine ⟨_, rfl, ?_⟩
  obtain ⟨bytes, hb, -, hjunk⟩ := @decode_encode 32 _ rfl
    [{ sequence := 7, command := .VID, flags := 0, payload := [0xAB] }]
    (by simp [Frame.WireForm]) (by simp [Frame.totalLength, HEADER_SIZE])
  obtain rfl : bytes = [0, 0, 0, 17, 0, 0, 0, 7, 0x00, 0x44, 0x49, 0x56, 0, 0, 0, 0, 0xAB] :=
    (Except.ok.inj hb).symm
  exact (hjunk [0xFF, 0xFF, 0xFF, 0xFF, 0xFF] (by simp) (by decide) (by decide)
    ⟨_, _, rfl, by decide⟩ _ rfl).1

/-- The largest frame the constructor admits for a limit above the length
word: 4 GiB of payload do not fit `struct.pack`. -/
theorem encode_four_gibibytes :
    ¬ ∀ (maxFrame : Nat) (fresh : FrameStreamParser) (frames : List Frame),
      create maxFrame = .ok fresh → (∀ frame ∈ frames, frame.WireForm) →
      (∀ frame ∈ frames, frame.totalLength ≤ maxFrame) →
      ∃ bytes, Frame.encodeAll frames = .ok bytes ∧
        ∀ chunks : List Bytes, chunks.flatten = bytes → (fresh.feedAll chunks).2 = frames := by
  intro hall
  let frame : Frame :=
    { sequence := 0, command := .VID, flags := 0, payload := List.replicate (2 ^ 32) 0 }
  have hlen : frame.totalLength = 16 + 2 ^ 32 := by
    simp only [frame, Frame.totalLength, HEADER_SIZE, List.length_replicate]
  obtain ⟨bytes, hb, -⟩ := hall (16 + 2 ^ 32)
    { maxFrame := 16 + 2 ^ 32, minimum := Nat.le_add_right .. } [frame] rfl
    (fun f hf => by
      obtain rfl := List.mem_singleton.mp hf
      exact ⟨by simp only [frame]; norm_num, by simp only [frame]; norm_num,
        Or.inl ⟨by simp only [frame]; decide, rfl⟩⟩)
    (fun f hf => by
      obtain rfl := List.mem_singleton.mp hf
      exact hlen.le)
  have herror := @Frame.toBytes_too_long frame (by simp only [frame]; decide)
    (by rw [hlen]; omega)
  obtain ⟨head, tail, hh, -, -⟩ := encodeAll_cons hb
  rw [herror] at hh
  cases hh

end HccastWired.Protocol
