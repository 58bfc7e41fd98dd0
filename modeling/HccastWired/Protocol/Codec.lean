import HccastWired.Protocol.RoundTrip

/-!
# The frame encoder

An encoder numbers its frames with a global 32-bit counter. The number is used up
when a frame is built, before its header is packed.
-/

namespace HccastWired.Protocol

open Foundation

structure FrameCodec where
  sequence : Nat
  bounded : sequence < 2 ^ 32
deriving DecidableEq

namespace FrameCodec

/-- `__init__`. -/
def create (sequence : Nat) : FrameCodec :=
  ⟨sequence % 2 ^ 32, Nat.mod_lt _ (by norm_num)⟩

def next (codec : FrameCodec) : FrameCodec :=
  create (codec.sequence + 1)

def build (codec : FrameCodec) (command : Command) (payload : Bytes) (flags : Option Nat) :
    Frame × FrameCodec :=
  ({ sequence := codec.sequence
     command
     flags := flags.getD (if command = .SETR then 1 else 0)
     payload }, codec.next)

def encode (codec : FrameCodec) (command : Command) (payload : Bytes) (flags : Option Nat) :
    Except EncodeError Bytes × FrameCodec :=
  ((codec.build command payload flags).1.toBytes, (codec.build command payload flags).2)

@[simp] theorem create_sequence (sequence : Nat) : (create sequence).sequence = sequence % 2 ^ 32 :=
  rfl

@[simp] theorem next_sequence (codec : FrameCodec) :
    codec.next.sequence = (codec.sequence + 1) % 2 ^ 32 := rfl

end FrameCodec

structure Settings where
  mirrorResolution : Int := 1
  verticalMode : Int := 1
  verticalAutoRevolve : Int := 0
  fullMode : Int := 1
deriving DecidableEq

/-- The dimensions in the current orientation. -/
structure ScreenInfo where
  orientation : Int
  encoderWidth : Int
  encoderHeight : Int
  sourceShortSide : Int
  sourceLongSide : Int
deriving DecidableEq

/-- What a message to the display is refused with. -/
inductive MessageError
  | valueError (message : String)
  | encode (error : EncodeError)
deriving DecidableEq

/-- `struct.pack` of big-endian words, which refuses those that do not fit. -/
def packWords (values : List Int) : Except MessageError Bytes :=
  if values.all fun value => 0 ≤ value ∧ value < 2 ^ 32 then
    .ok (values.flatMap fun value => BigEndian.toBytes 4 value.toNat)
  else .error (.encode .structError)

def Settings.toPayload (s : Settings) : Except MessageError Bytes :=
  if ¬ (0 ≤ s.mirrorResolution ∧ s.mirrorResolution ≤ 3) then
    .error (.valueError "mirror_resolution must be 0..3")
  else if ¬ (0 ≤ s.verticalMode ∧ s.verticalMode ≤ 3) then
    .error (.valueError "vertical_mode must be 0..3")
  else if s.verticalAutoRevolve ≠ 0 ∧ s.verticalAutoRevolve ≠ 1 then
    .error (.valueError "vertical_auto_revolve must be 0 or 1")
  else if s.fullMode ≠ 0 ∧ s.fullMode ≠ 1 then
    .error (.valueError "full_mode must be 0 or 1")
  else packWords [s.mirrorResolution, s.verticalMode, s.verticalAutoRevolve, s.fullMode]

def ScreenInfo.toPayload (s : ScreenInfo) : Except MessageError Bytes :=
  let values :=
    [s.orientation, s.encoderWidth, s.encoderHeight, s.sourceShortSide, s.sourceLongSide]
  if s.orientation ≠ 0 ∧ s.orientation ≠ 1 then
    .error (.valueError "orientation must be 0 (portrait) or 1 (landscape)")
  else if values.any fun value => value < 0 then
    .error (.valueError "screen info values must be non-negative")
  else packWords values

/-- What a host sends. -/
inductive Message
  | setr
  | sets (settings : Settings)
  | sinf (info : ScreenInfo)
  | vid (encodedH264 : Bytes)
deriving DecidableEq

namespace Message

def command : Message → Command
  | setr => .SETR
  | sets _ => .SETS
  | sinf _ => .SINF
  | vid _ => .VID

/-- The payload, which is made and checked before the encoder is called. -/
def payload : Message → Except MessageError Bytes
  | setr => .ok [0, 0, 0, 0]
  | sets settings => settings.toPayload
  | sinf info => info.toPayload
  | vid encodedH264 =>
      if encodedH264 = [] then .error (.valueError "video payload must not be empty")
      else .ok encodedH264

def flags : Message → Option Nat
  | setr => some 1
  | _ => none

end Message

/-- `make_setr`, `make_sets`, `make_sinf` and `make_vid`. -/
def make (codec : FrameCodec) (m : Message) : Except MessageError Bytes × FrameCodec :=
  match m.payload with
  | .error e => (.error e, codec)
  | .ok payload =>
      ((codec.encode m.command payload m.flags).1.mapError .encode,
        (codec.encode m.command payload m.flags).2)

theorem packWords_length {values : List Int} {bytes : Bytes} (h : packWords values = .ok bytes) :
    bytes.length = 4 * values.length := by
  unfold packWords at h
  split at h
  · obtain rfl := Except.ok.inj h
    simp [List.length_flatMap, Nat.mul_comm]
  · cases h

/-- No payload but that of a video packet comes near the limit of a length word. -/
theorem Message.payload_length {m : Message} {bytes : Bytes} (h : m.payload = .ok bytes) :
    bytes.length ≤ 20 ∨ m.command = .VID := by
  cases m with
  | setr =>
      obtain rfl := Except.ok.inj h
      simp
  | sets settings =>
      simp only [payload, Settings.toPayload] at h
      split_ifs at h
      simp [packWords_length h]
  | sinf info =>
      simp only [payload, ScreenInfo.toPayload] at h
      split_ifs at h
      simp [packWords_length h]
  | vid encodedH264 => exact Or.inr rfl

theorem Message.command_ne_unk (m : Message) : m.command ≠ .UNK := by
  cases m <;> simp [command]

namespace Message

/-- The frame of a message, once its payload is there. -/
def frame (m : Message) (codec : FrameCodec) (payload : Bytes) : Frame :=
  (codec.build m.command payload m.flags).1

variable {m : Message} {codec : FrameCodec} {payload : Bytes}

@[simp] theorem frame_command : (m.frame codec payload).command = m.command := rfl

@[simp] theorem frame_sequence : (m.frame codec payload).sequence = codec.sequence := rfl

theorem frame_totalLength : (m.frame codec payload).totalLength = 16 + payload.length := rfl

theorem frame_wireForm : (m.frame codec payload).WireForm := by
  refine ⟨codec.bounded, ?_, Or.inl ⟨m.command_ne_unk, rfl⟩⟩
  cases m <;> simp [frame, FrameCodec.build, flags, command]

end Message

theorem make_eq {codec : FrameCodec} {m : Message} {payload : Bytes} (h : m.payload = .ok payload) :
    make codec m = ((m.frame codec payload).toBytes.mapError .encode, codec.next) := by
  rw [make, h]
  rfl

/-- A message whose frame fits the length word is packed. -/
theorem make_fits {codec : FrameCodec} {m : Message} {payload : Bytes}
    (h : m.payload = .ok payload) (hfits : 16 + payload.length < 2 ^ 32) :
    ∃ data, (m.frame codec payload).toBytes = .ok data ∧ make codec m = (.ok data, codec.next) := by
  obtain ⟨magic, hmagic, hlength, -⟩ := (@Message.frame_wireForm m codec payload).magic
  have hbytes := Frame.toBytes_eq Message.frame_wireForm hfits hmagic hlength
  refine ⟨_, hbytes, ?_⟩
  rw [make_eq h, hbytes]
  rfl

/-- A message whose frame does not fit it has used up its number. -/
theorem make_too_long {codec : FrameCodec} {m : Message} {payload : Bytes}
    (h : m.payload = .ok payload) (hlong : 2 ^ 32 ≤ 16 + payload.length) :
    make codec m = (.error (.encode .structError), codec.next) := by
  have hbytes : (m.frame codec payload).toBytes = .error .structError :=
    Frame.toBytes_too_long m.command_ne_unk hlong
  rw [make_eq h, hbytes]
  rfl

/-- A message that is packed shows the number of its frame. -/
theorem make_ok {codec : FrameCodec} {m : Message} {data : Bytes} (h : (make codec m).1 = .ok data) :
    (make codec m).2 = codec.next ∧ u32At data 4 = codec.sequence := by
  cases hp : m.payload with
  | error e =>
      rw [make, hp] at h
      cases h
  | ok payload =>
      rw [make_eq hp] at h ⊢
      refine ⟨rfl, ?_⟩
      cases hbytes : (m.frame codec payload).toBytes with
      | error e =>
          rw [hbytes] at h
          cases h
      | ok bytes =>
          rw [hbytes] at h
          obtain rfl := Except.ok.inj h
          have hfits : (m.frame codec payload).totalLength < 2 ^ 32 := by
            by_contra hlong
            rw [Frame.toBytes_too_long m.command_ne_unk (Nat.le_of_not_lt hlong)] at hbytes
            cases hbytes
          obtain ⟨-, -, hread, -⟩ := read_encoded Message.frame_wireForm hfits hbytes []
          rw [List.append_nil] at hread
          exact congrArg Frame.sequence hread

/-- A message whose frame cannot be packed is a video packet beyond the length word. -/
theorem make_refused {codec : FrameCodec} {m : Message} {payload : Bytes}
    (hp : m.payload = .ok payload) {e : MessageError} (h : (make codec m).1 = .error e) :
    m.command = .VID ∧ 2 ^ 32 ≤ (m.frame codec payload).totalLength := by
  have hlong : 2 ^ 32 ≤ (m.frame codec payload).totalLength := by
    by_contra hfits
    obtain ⟨data, -, hmake⟩ := @make_fits codec m payload hp (Nat.lt_of_not_le hfits)
    rw [hmake] at h
    cases h
  refine ⟨(Message.payload_length hp).resolve_left ?_, hlong⟩
  intro hshort
  rw [Message.frame_totalLength] at hlong
  omega

end HccastWired.Protocol
