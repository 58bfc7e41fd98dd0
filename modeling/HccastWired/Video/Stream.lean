import HccastWired.Session.HccastSession
import HccastWired.Video.Units

/-!
# A stream of video packets

`_stream_packets` sends what the packetizer yields, frame by frame. On the other side
of the transport a parser finds exactly these frames, in whatever pieces their bytes
arrive.
-/

namespace HccastWired.Video

open Foundation Protocol Session

structure StreamStats where
  packets : Nat
  payloadBytes : Nat
  wireBytes : Nat
  elapsedS : Rat
deriving DecidableEq

/-- What a call of `send_video_packet` meets: what the reader thread has left, and what
the write gives. -/
structure Encounter where
  readerError : Option ReaderError
  stopSeen : Bool
  write : Except String Unit

/-- No error, no STOP, and a write that succeeds. -/
def Encounter.clear : Encounter := ⟨none, false, .ok ()⟩

/-- The encoder, and what the transport has been handed, the oldest first. -/
structure Outlet where
  codec : FrameCodec
  handed : List Protocol.Bytes

inductive StreamFault
  | session (fault : SessionFault)
  | annexB (error : AnnexBError)
  | value (message : String)
deriving DecidableEq

/-- `send_video_packet`. -/
def Outlet.sendVideoPacket (o : Outlet) (met : Encounter) (encodedH264 : Protocol.Bytes) :
    Except SessionFault Unit × Outlet :=
  match met.readerError with
  | some error => (.error error.raised, o)
  | none =>
      if met.stopSeen then (.error (.session "display requested STOP"), o)
      else
        match make o.codec (.vid encodedH264) with
        | (.error e, codec) => (.error (.message e), { o with codec })
        | (.ok data, codec) =>
            (met.write.mapError .transport, { codec, handed := o.handed ++ [data] })

/-- The counters of `_stream_packets`. -/
structure Counts where
  packets : Nat
  payloadBytes : Nat
  wireBytes : Nat
deriving DecidableEq

def Counts.add (c : Counts) (packet : Protocol.Bytes) : Counts :=
  ⟨c.packets + 1, c.payloadBytes + packet.length, c.wireBytes + (packet.length + 16)⟩

/-- The loop of `_stream_packets`, and whether it was left at `max_packets`. -/
def streamLoop (met : Nat → Encounter) (maxPackets : Option Int) (o : Outlet) (c : Counts) :
    List Protocol.Bytes → Except StreamFault (Counts × Bool) × Outlet
  | [] => (.ok (c, false), o)
  | packet :: rest =>
      match o.sendVideoPacket (met c.packets) packet with
      | (.error fault, o) => (.error (.session fault), o)
      | (.ok (), o) =>
          if maxPackets.any fun most => decide (most ≤ ((c.add packet).packets : Int)) then
            (.ok (c.add packet, true), o)
          else streamLoop met maxPackets o (c.add packet) rest

/-- `_stream_packets`; the clock is read first and last. -/
def streamPackets (met : Nat → Encounter) (fps : Rat) (maxPackets : Option Int)
    (started ended : Rat) (o : Outlet) (packets : Generator Protocol.Bytes AnnexBError Unit) :
    Except StreamFault StreamStats × Outlet :=
  if fps ≤ 0 then (.error (.value "fps must be positive"), o)
  else
    let stats (c : Counts) : StreamStats :=
      ⟨c.packets, c.payloadBytes, c.wireBytes, max (1 / 1000000) (ended - started)⟩
    match streamLoop met maxPackets o ⟨0, 0, 0⟩ packets.items with
    | (.error fault, o) => (.error fault, o)
    | (.ok (c, true), o) => (.ok (stats c), o)
    | (.ok (c, false), o) =>
        match packets.ending with
        | .error e => (.error (.annexB e), o)
        | .ok () => (.ok (stats c), o)

def streamH264Stream (met : Nat → Encounter) (reads : List Protocol.Bytes) (fps : Rat)
    (packetization : String) (maxPackets : Option Int) (started ended : Rat) (o : Outlet) :
    Except StreamFault StreamStats × Outlet :=
  streamPackets met fps maxPackets started ended o (packetsFromStream packetization reads)

/-! ## The frames of a stream -/

/-- The frames that carry the packets. -/
def videoFrames (codec : FrameCodec) : List Protocol.Bytes → List Frame
  | [] => []
  | packet :: rest => (Message.vid packet).frame codec packet :: videoFrames codec.next rest

section Frames

variable {codec : FrameCodec} {packets : List Protocol.Bytes}

theorem videoFrames_length : (videoFrames codec packets).length = packets.length := by
  induction packets generalizing codec with
  | nil => rfl
  | cons packet rest ih => rw [videoFrames, List.length_cons, List.length_cons, ih]

theorem videoFrames_payload : (videoFrames codec packets).map Frame.payload = packets := by
  induction packets generalizing codec with
  | nil => rfl
  | cons packet rest ih =>
      rw [videoFrames, List.map_cons, ih]
      rfl

theorem videoFrames_form {frame : Frame} (h : frame ∈ videoFrames codec packets) :
    frame.WireForm ∧ frame.command = .VID ∧ frame.flags = 0 ∧ frame.payload ∈ packets := by
  induction packets generalizing codec with
  | nil => cases h
  | cons packet rest ih =>
      rcases List.mem_cons.mp h with rfl | h
      · exact ⟨Message.frame_wireForm, rfl, rfl, List.mem_cons_self⟩
      · obtain ⟨hwire, hcommand, hflags, hpayload⟩ := ih h
        exact ⟨hwire, hcommand, hflags, List.mem_cons_of_mem _ hpayload⟩

/-- The sequence numbers are consecutive. -/
theorem videoFrames_sequence : (videoFrames codec packets).map Frame.sequence =
    (List.range packets.length).map fun i => (codec.sequence + i) % 2 ^ 32 := by
  induction packets generalizing codec with
  | nil => rfl
  | cons packet rest ih =>
      rw [videoFrames, List.map_cons, ih, List.length_cons, List.range_succ_eq_map, List.map_cons,
        List.map_map, Message.frame_sequence, Nat.add_zero, Nat.mod_eq_of_lt codec.bounded]
      congr 1
      apply List.map_congr_left
      intro i _
      rw [FrameCodec.next_sequence, Nat.mod_add_mod, Function.comp_apply]
      congr 1
      omega

end Frames

/-- A packet that fits is handed over in its frame. -/
theorem Outlet.sendVideoPacket_clear {o : Outlet} {packet : Protocol.Bytes} (hne : packet ≠ [])
    (hfits : 16 + packet.length < 2 ^ 32) :
    ∃ data, ((Message.vid packet).frame o.codec packet).toBytes = .ok data ∧
      o.sendVideoPacket .clear packet = (.ok (), ⟨o.codec.next, o.handed ++ [data]⟩) := by
  obtain ⟨data, hdata, hmake⟩ := @make_fits o.codec (.vid packet) packet (if_neg hne) hfits
  refine ⟨data, hdata, ?_⟩
  simp [sendVideoPacket, Encounter.clear, hmake, Except.mapError]

/-- A loop that nothing stops hands over all frames and counts them. -/
theorem streamLoop_clear {met : Nat → Encounter} (hclear : ∀ n, met n = .clear) {o : Outlet}
    {c : Counts} {packets : List Protocol.Bytes} (hne : ∀ packet ∈ packets, packet ≠ [])
    (hfits : ∀ packet ∈ packets, 16 + packet.length < 2 ^ 32) :
    ∃ after bytes, streamLoop met none o c packets =
        (.ok (⟨c.packets + packets.length, c.payloadBytes + packets.flatten.length,
          c.wireBytes + bytes.length⟩, false), after) ∧
      Frame.encodeAll (videoFrames o.codec packets) = .ok bytes ∧
      after.handed.flatten = o.handed.flatten ++ bytes := by
  induction packets generalizing o c with
  | nil => exact ⟨o, [], by simp [streamLoop], rfl, by simp⟩
  | cons packet rest ih =>
      obtain ⟨data, hdata, hsend⟩ := @Outlet.sendVideoPacket_clear o packet
        (hne packet List.mem_cons_self) (hfits packet List.mem_cons_self)
      obtain ⟨after, bytes, hloop, hbytes, hhanded⟩ :=
        @ih ⟨o.codec.next, o.handed ++ [data]⟩ (c.add packet)
          (fun other h => hne other (List.mem_cons_of_mem _ h))
          (fun other h => hfits other (List.mem_cons_of_mem _ h))
      have hlength : data.length = packet.length + 16 := by
        have hread := (read_encoded Message.frame_wireForm
          (hfits packet List.mem_cons_self) hdata []).1
        rw [hread, Message.frame_totalLength, Nat.add_comm]
      refine ⟨after, data ++ bytes, ?_, ?_, ?_⟩
      · rw [streamLoop, hclear, hsend]
        simp only [Option.any_none, Bool.false_eq_true, if_false]
        rw [hloop]
        simp only [Counts.add, List.length_cons, List.flatten_cons, List.length_append, hlength,
          Prod.mk.injEq, Except.ok.injEq, Counts.mk.injEq, and_true]
        omega
      · simp only [videoFrames, Frame.encodeAll, hdata]
        change (Frame.encodeAll (videoFrames o.codec.next rest)).bind _ = _
        rw [hbytes]
        rfl
      · rw [hhanded]
        simp

/-- Whatever is read from a stream with a start code, in whatever reads and under both
packetizations, arrives at a parser as video frames that are numbered consecutively and
carry the stream from its first start code on, without its empty units; the statistics
count the frames and their bytes. -/
theorem video_stream_exact {reads : List Protocol.Bytes} (hreads : ∀ chunk ∈ reads, chunk ≠ [])
    (hcode : fromFirst reads.flatten ≠ []) {packetization : String}
    (hmode : packetization = "nal" ∨ packetization = "access-unit") {fps : Rat} (hfps : 0 < fps)
    {met : Nat → Encounter} (hclear : ∀ n, met n = .clear) (codec : FrameCodec) {maxFrame : Nat}
    (hfit : ∀ packet ∈ (packetsFromStream packetization reads).items,
      16 + packet.length ≤ maxFrame ∧ 16 + packet.length < 2 ^ 32)
    {fresh : FrameStreamParser} (hfresh : FrameStreamParser.create maxFrame = .ok fresh)
    (started ended : Rat) :
    ∃ stats after frames,
      streamH264Stream met reads fps packetization none started ended ⟨codec, []⟩ =
        (.ok stats, after) ∧
      (∀ chunks : List Protocol.Bytes, chunks.flatten = after.handed.flatten →
        (fresh.feedAll chunks).2 = frames) ∧
      (∀ frame ∈ frames, frame.command = .VID ∧ frame.flags = 0) ∧
      frames.map Frame.sequence =
        (List.range frames.length).map (fun i => (codec.sequence + i) % 2 ^ 32) ∧
      (frames.map Frame.payload).flatten = (withoutEmptyUnits reads.flatten).flatten ∧
      stats.packets = frames.length ∧
      stats.payloadBytes = (frames.map Frame.payload).flatten.length ∧
      stats.wireBytes = after.handed.flatten.length := by
  obtain ⟨packets, hpackets, hflat, hne⟩ := packetsFromStream_flatten hreads hcode hmode
  rw [hpackets] at hfit
  obtain ⟨after, bytes, hloop, hbytes, hhanded⟩ := @streamLoop_clear met hclear ⟨codec, []⟩
    ⟨0, 0, 0⟩ packets hne fun packet h => (hfit packet h).2
  rw [List.flatten_nil, List.nil_append] at hhanded
  have hall : ∀ frame ∈ videoFrames codec packets,
      frame.totalLength ≤ maxFrame ∧ frame.totalLength < 2 ^ 32 := fun frame hframe =>
    hfit frame.payload (videoFrames_form hframe).2.2.2
  obtain ⟨bytes', hbytes', hdecode, -⟩ := decode_encode hfresh (videoFrames codec packets)
    (fun frame hframe => (videoFrames_form hframe).1) hall
  obtain rfl := Except.ok.inj (hbytes.symm.trans hbytes')
  refine ⟨⟨packets.length, packets.flatten.length, bytes.length,
    max (1 / 1000000) (ended - started)⟩, after, videoFrames codec packets,
    ?_, ?_, ?_, ?_, ?_, ?_, ?_, ?_⟩
  · rw [streamH264Stream, streamPackets, if_neg (not_le.mpr hfps), hpackets, hloop]
    simp only [Nat.zero_add]
  · intro chunks hchunks
    exact (hdecode chunks (hchunks.trans hhanded)).1
  · intro frame hframe
    obtain ⟨-, hcommand, hflags, -⟩ := videoFrames_form hframe
    exact ⟨hcommand, hflags⟩
  · rw [videoFrames_sequence, videoFrames_length]
  · rw [videoFrames_payload, hflat]
  · simp [videoFrames_length]
  · simp [videoFrames_payload]
  · simp [hhanded]

/-- Two reads that cut a start code; between a delimiter and a slice is an empty unit. -/
theorem video_stream_exact_two_reads :
    ∃ (stats : StreamStats) (after : Outlet) (frames : List Frame),
      streamH264Stream (fun _ => .clear) [[0x7F, 0, 0], [0, 1, 9, 0x10, 0, 0, 1, 0, 0, 1, 0x65]] 30
        "nal" none 0 1 ⟨FrameCodec.create (2 ^ 32 - 1), []⟩ = (.ok stats, after) ∧
      (frames.map Frame.payload).flatten = [0, 0, 0, 1, 9, 0x10, 0, 0, 1, 0x65] ∧
      stats.payloadBytes = 10 := by
  have hfit : ∀ packet ∈ (packetsFromStream "nal"
      [[0x7F, 0, 0], [0, 1, 9, 0x10, 0, 0, 1, 0, 0, 1, 0x65]]).items,
      16 + packet.length ≤ 64 ∧ 16 + packet.length < 2 ^ 32 := by
    decide +kernel
  obtain ⟨stats, after, frames, hstream, -, -, -, hpayload, -, hbytes, -⟩ :=
    @video_stream_exact [[0x7F, 0, 0], [0, 1, 9, 0x10, 0, 0, 1, 0, 0, 1, 0x65]] (by decide)
      (by decide) "nal" (Or.inl rfl) 30 (by norm_num) (fun _ => .clear) (fun _ => rfl)
      (FrameCodec.create (2 ^ 32 - 1)) 64 hfit _ rfl 0 1
  have hexact : (withoutEmptyUnits [0x7F, 0, 0, 0, 1, 9, 0x10, 0, 0, 1, 0, 0, 1, 0x65]).flatten =
      [0, 0, 0, 1, 9, 0x10, 0, 0, 1, 0x65] := by
    decide +kernel
  have hall := hpayload.trans hexact
  exact ⟨stats, after, frames, hstream, hall, by rw [hbytes, hall]; rfl⟩

end HccastWired.Video
