import HccastWired.Protocol.WireImage
import HccastWired.Session.HccastSession

/-!
# A session is fail-stop

What the reader learns never goes back: an error stays in its slot and the stop event
stays set. The invariant has a part that only the reader can change and one that only
the sender can change.
-/

namespace HccastWired.Session

open Foundation Protocol

/-! ## What the trace says -/

/-- The bytes that have been received. -/
def received : List SessionEvent → Protocol.Bytes
  | [] => []
  | .received data :: older => received older ++ data
  | _ :: older => received older

namespace SessionEvent

/-- After this event no video packet is to be sent. -/
def fails : SessionEvent → Bool
  | stopHandled => true
  | setvRefused _ => true
  | readFailed _ => true
  | _ => false

/-- The event is one of the reader thread. -/
def ofReader : SessionEvent → Bool
  | received _ => true
  | event => event.fails

/-- The sequence number that the event shows or uses up. -/
def number : SessionEvent → Option Nat
  | handed data => some (u32At data 4)
  | refused frame => some frame.sequence
  | _ => none

end SessionEvent

/-- A STOP frame, an invalid SETV or a reader failure has been processed. -/
def Failed (trace : List SessionEvent) : Prop :=
  ∃ event ∈ trace, event.fails = true

/-- The last call and what had been seen before it. -/
def lastCall : List SessionEvent → Option (Request × List SessionEvent)
  | [] => none
  | .called request :: older => some (request, older)
  | _ :: older => lastCall older

/-- The sequence numbers, the newest first. -/
def numbers (trace : List SessionEvent) : List Nat :=
  trace.filterMap SessionEvent.number

/-- The message that a call sends. -/
def Request.message : Request → Protocol.Message
  | handshake => .setr
  | sendSettings settings => .sets settings
  | sendScreenInfo info => .sinf info
  | sendVideoPacket encodedH264 => .vid encodedH264

/-- The information was made from a SETV frame in the bytes. -/
def Produced (info : DeviceInfo) (bytes : Protocol.Bytes) : Prop :=
  ∃ frame, frame.command = .SETV ∧ parseSetv frame = .ok info ∧ frame.Contained bytes

/-- The numbers 0, 1, 2, … of a 32-bit counter. -/
def Counted (sequences : List Nat) : Prop :=
  sequences = (List.range sequences.length).map (· % 2 ^ 32)

section Trace

variable {event : SessionEvent} {older trace : List SessionEvent}

theorem failed_cons : Failed (event :: older) ↔ event.fails = true ∨ Failed older := by
  simp [Failed]

theorem lastCall_suffix {request : Request} {before : List SessionEvent}
    (h : lastCall trace = some (request, before)) : before <:+ trace := by
  induction trace using lastCall.induct with
  | case1 => cases h
  | case2 other older =>
      obtain ⟨-, rfl⟩ := Prod.mk.inj (Option.some.inj h)
      exact List.suffix_cons ..
  | case3 other older hother ih =>
      rw [lastCall.eq_3 _ _ hother] at h
      exact (ih h).trans (List.suffix_cons ..)

theorem Failed.mono {before : List SessionEvent} (h : Failed before) (hsub : before <:+ trace) :
    Failed trace := by
  obtain ⟨e, he, hfails⟩ := h
  exact ⟨e, hsub.subset he, hfails⟩

theorem Produced.mono {info : DeviceInfo} {bytes bytes' : Protocol.Bytes} (h : Produced info bytes)
    (hsub : bytes <:+: bytes') : Produced info bytes' := by
  obtain ⟨frame, hcommand, hinfo, hframe⟩ := h
  exact ⟨frame, hcommand, hinfo, hframe.mono hsub⟩

theorem received_cons : received older <:+: received (event :: older) := by
  cases event with
  | received data => exact (List.prefix_append ..).isInfix
  | _ => exact List.infix_rfl

theorem received_of_sender (h : event.ofReader = false) :
    received (event :: older) = received older := by
  cases event with
  | received data => cases h
  | _ => rfl

theorem lastCall_of_reader (h : event.ofReader = true) :
    lastCall (event :: older) = lastCall older := by
  cases event <;> first | rfl | cases h

theorem numbers_of_reader (h : event.ofReader = true) : numbers (event :: older) = numbers older := by
  cases event <;> first | rfl | cases h

/-- The next number of a counted list. -/
theorem Counted.snoc {sequences : List Nat} (h : Counted sequences) :
    Counted (sequences ++ [sequences.length % 2 ^ 32]) := by
  unfold Counted
  rw [List.length_append, List.length_singleton, List.range_succ, List.map_append,
    List.map_singleton, ← h]

end Trace

namespace HccastSession

/-! ## What a step leaves alone -/

/-- A step of the reader thread, of the sender or a `close`, seen from the sender. -/
structure SeenBySender (s t : HccastSession) : Prop where
  codec : t.codec = s.codec
  sender : t.sender = s.sender
  trace : t.trace = s.trace ∨ ∃ event, event.ofReader = true ∧ t.trace = event :: s.trace
  error : s.readerError.isSome → t.readerError.isSome
  stop : s.stopSeen = true → t.stopSeen = true

/-- A step of the sender, seen from the reader thread. -/
structure SeenByReader (s t : HccastSession) : Prop where
  parser : t.parser = s.parser
  deviceInfo : t.deviceInfo = s.deviceInfo
  readerError : t.readerError = s.readerError
  stopSeen : t.stopSeen = s.stopSeen
  reader : t.reader = s.reader ∨ t.reader = .testing
  trace : ∃ news, (∀ event ∈ news, event.ofReader = false) ∧ t.trace = news ++ s.trace

/-- The frames that the reader thread has still to handle. -/
def toHandle (s : HccastSession) : List Frame :=
  match s.reader with
  | .handling frames => frames
  | .settingReady frames => frames
  | _ => []

/-- What the reader thread holds comes from the bytes that it has received, and what it
has seen fail can be read. -/
structure ReaderSound (s : HccastSession) : Prop where
  buffer : s.parser.buffer <:+ received s.trace
  frames : ∀ frame ∈ s.toHandle, frame.Contained (received s.trace)
  info : ∀ info, s.deviceInfo = some info → Produced info (received s.trace)
  failed : Failed s.trace → s.readerError.isSome = true ∨ s.stopSeen = true

/-- The sender that has come to this point in its last call: a video packet that has
passed both tests was called for when nothing had failed. -/
def Follows (s : HccastSession) : Sender → Prop
  | .idle => True
  | .raising => True
  | .checking (.video payload) => ∃ before, lastCall s.trace = some (.sendVideoPacket payload, before)
  | .stopTest payload =>
      ∃ before, lastCall s.trace = some (.sendVideoPacket payload, before) ∧
        (Failed before → s.stopSeen = true)
  | .encoding m | .writing m _ =>
      ∃ request before, lastCall s.trace = some (request, before) ∧ m = request.message ∧
        ∀ payload, request = .sendVideoPacket payload → ¬ Failed before
  | _ => ∃ before, lastCall s.trace = some (.handshake, before)

/-- The frame that is numbered and not yet handed over. -/
def inHand (s : HccastSession) : Nat :=
  match s.sender with
  | .writing _ _ => 1
  | _ => 0

structure SenderSound (s : HccastSession) : Prop where
  follows : s.Follows s.sender
  counted : Counted (numbers s.trace).reverse
  sequence : s.codec.sequence = ((numbers s.trace).length + s.inHand) % 2 ^ 32
  writing : ∀ m data, s.sender = .writing m data →
    u32At data 4 = (numbers s.trace).length % 2 ^ 32
  refused : ∀ frame, .refused frame ∈ s.trace → frame.command = .VID ∧ 2 ^ 32 ≤ frame.totalLength
  silent : ∀ data older, .handed data :: older <:+ s.trace → ∀ payload before,
    lastCall older = some (.sendVideoPacket payload, before) → ¬ Failed before
  ready : ∀ info older, .ready info :: older <:+ s.trace → Produced info (received older)

theorem ReaderSound.seen {s t : HccastSession} (h : ReaderSound s) (hst : SeenByReader s t) :
    ReaderSound t := by
  obtain ⟨news, hnews, htrace⟩ := hst.trace
  have hreceived : received t.trace = received s.trace := by
    rw [htrace]
    clear htrace
    induction news with
    | nil => rfl
    | cons event news ih =>
        rw [List.cons_append, received_of_sender (hnews event List.mem_cons_self)]
        exact ih fun event he => hnews event (List.mem_cons_of_mem _ he)
  have hfailed : Failed t.trace → Failed s.trace := by
    rw [htrace]
    rintro ⟨event, he, hfails⟩
    rcases List.mem_append.mp he with he | he
    · have hreader : event.ofReader = true := by cases event <;> first | rfl | cases hfails
      rw [hnews event he] at hreader
      cases hreader
    · exact ⟨event, he, hfails⟩
  constructor
  · rw [hreceived, hst.parser]
    exact h.buffer
  · rw [hreceived]
    rcases hst.reader with hreader | hreader
    · rw [toHandle, hreader]
      exact h.frames
    · simp [toHandle, hreader]
  · rw [hreceived, hst.deviceInfo]
    exact h.info
  · intro hf
    rw [hst.readerError, hst.stopSeen]
    exact h.failed (hfailed hf)

theorem Follows.seen {s t : HccastSession} {sender : Sender} (h : s.Follows sender)
    (hcall : lastCall t.trace = lastCall s.trace) (hstop : s.stopSeen = true → t.stopSeen = true) :
    t.Follows sender := by
  cases sender with
  | idle => trivial
  | raising => trivial
  | stopTest payload =>
      obtain ⟨before, hlast, hfailed⟩ := h
      exact ⟨before, hcall.trans hlast, fun hf => hstop (hfailed hf)⟩
  | checking check =>
      cases check <;> simpa only [Follows, hcall] using h
  | _ => simpa only [Follows, hcall] using h

theorem SenderSound.seen {s t : HccastSession} (h : SenderSound s) (hst : SeenBySender s t) :
    SenderSound t := by
  have hhand : t.inHand = s.inHand := by rw [inHand, hst.sender, inHand]
  rcases hst.trace with htrace | ⟨event, hreader, htrace⟩
  · constructor
    · rw [hst.sender]
      exact h.follows.seen (by rw [htrace]) hst.stop
    · rw [htrace]
      exact h.counted
    · rw [htrace, hst.codec, hhand]
      exact h.sequence
    · rw [htrace, hst.sender]
      exact h.writing
    · rw [htrace]
      exact h.refused
    · rw [htrace]
      exact h.silent
    · rw [htrace]
      exact h.ready
  · have hnumbers : numbers t.trace = numbers s.trace := by
      rw [htrace, numbers_of_reader hreader]
    constructor
    · rw [hst.sender]
      exact h.follows.seen (by rw [htrace, lastCall_of_reader hreader]) hst.stop
    · rw [hnumbers]
      exact h.counted
    · rw [hnumbers, hst.codec, hhand]
      exact h.sequence
    · rw [hnumbers, hst.sender]
      exact h.writing
    · intro frame hframe
      rw [htrace] at hframe
      rcases List.mem_cons.mp hframe with rfl | hframe
      · cases hreader
      · exact h.refused frame hframe
    · intro data older hsuffix
      rw [htrace] at hsuffix
      rcases List.suffix_cons_iff.mp hsuffix with heq | hsuffix
      · obtain ⟨rfl, -⟩ := List.cons.inj heq
        cases hreader
      · exact h.silent data older hsuffix
    · intro info older hsuffix
      rw [htrace] at hsuffix
      rcases List.suffix_cons_iff.mp hsuffix with heq | hsuffix
      · obtain ⟨rfl, -⟩ := List.cons.inj heq
        cases hreader
      · exact h.ready info older hsuffix

/-! ## The steps of the reader thread -/

/-- What the sender sees of a step of the reader thread. -/
theorem readerStep_seen {s t : HccastSession} {read : Except String Protocol.Bytes}
    (h : s.readerStep read = some t) : SeenBySender s t := by
  unfold readerStep at h
  split at h
  · cases h
  · obtain rfl := Option.some.inj h
    exact ⟨rfl, rfl, Or.inl rfl, id, id⟩
  · split at h
    · obtain rfl := Option.some.inj h
      exact ⟨rfl, rfl, Or.inl rfl, id, id⟩
    · split at h
      · obtain rfl := Option.some.inj h
        exact ⟨rfl, rfl, Or.inl rfl, id, id⟩
      · obtain rfl := Option.some.inj h
        exact ⟨rfl, rfl, Or.inr ⟨_, rfl, rfl⟩, id, id⟩
  · obtain rfl := Option.some.inj h
    exact ⟨rfl, rfl, Or.inl rfl, id, id⟩
  · obtain rfl := Option.some.inj h
    unfold handleFrame
    split
    · split
      · exact ⟨rfl, rfl, Or.inl rfl, id, id⟩
      · exact ⟨rfl, rfl, Or.inr ⟨_, rfl, rfl⟩, fun _ => rfl, id⟩
    · exact ⟨rfl, rfl, Or.inr ⟨_, rfl, rfl⟩, id, fun _ => rfl⟩
    · exact ⟨rfl, rfl, Or.inl rfl, id, id⟩
  · obtain rfl := Option.some.inj h
    exact ⟨rfl, rfl, Or.inl rfl, id, id⟩
  · split at h
    · obtain rfl := Option.some.inj h
      exact ⟨rfl, rfl, Or.inl rfl, id, id⟩
    · obtain rfl := Option.some.inj h
      exact ⟨rfl, rfl, Or.inr ⟨_, rfl, rfl⟩, fun _ => rfl, id⟩
  · obtain rfl := Option.some.inj h
    exact ⟨rfl, rfl, Or.inl rfl, id, id⟩
  · obtain rfl := Option.some.inj h
    exact ⟨rfl, rfl, Or.inl rfl, id, fun _ => rfl⟩
  · cases h

/-- A step that changes the reader's place alone keeps what it holds. -/
theorem ReaderSound.moved {s : HccastSession} (h : ReaderSound s) {reader : Reader}
    (hframes : ∀ frame ∈ ({ s with reader := reader } : HccastSession).toHandle,
      frame ∈ s.toHandle) :
    ReaderSound { s with reader := reader } :=
  ⟨h.buffer, fun frame hframe => h.frames frame (hframes frame hframe), h.info, h.failed⟩

theorem handleFrame_sound {s : HccastSession} (h : ReaderSound s) {frame : Frame}
    {rest : List Frame} (hreader : s.reader = .handling (frame :: rest)) :
    ReaderSound (s.handleFrame frame rest) := by
  have hall : ∀ other ∈ frame :: rest, other.Contained (received s.trace) := by
    have := h.frames
    rwa [toHandle, hreader] at this
  have hrest : ∀ other ∈ rest, other.Contained (received s.trace) := fun other hother =>
    hall other (List.mem_cons_of_mem _ hother)
  unfold handleFrame
  split
  · next hcommand =>
    split
    · next info hinfo =>
      refine ⟨h.buffer, hrest, ?_, h.failed⟩
      intro info' hinfo'
      obtain rfl := Option.some.inj hinfo'
      exact ⟨frame, hcommand, hinfo, hall frame List.mem_cons_self⟩
    · exact ⟨h.buffer, hrest, h.info, fun _ => Or.inl rfl⟩
  · exact ⟨h.buffer, hrest, h.info, fun _ => Or.inr rfl⟩
  · exact ⟨h.buffer, hrest, h.info, h.failed⟩

theorem readerStep_sound {s t : HccastSession} (h : ReaderSound s) {read : Except String Protocol.Bytes}
    (hstep : s.readerStep read = some t) : ReaderSound t := by
  unfold readerStep at hstep
  split at hstep
  · cases hstep
  · obtain rfl := Option.some.inj hstep
    apply h.moved
    simp only [toHandle]
    split_ifs <;> simp
  · split at hstep
    · obtain rfl := Option.some.inj hstep
      exact h.moved (by simp [toHandle])
    · split at hstep
      · obtain rfl := Option.some.inj hstep
        exact h.moved (by simp [toHandle])
      · next data _ =>
        obtain rfl := Option.some.inj hstep
        obtain ⟨hbuffer, hframes⟩ := FrameStreamParser.feed_contained h.buffer data
        have hgrows : received s.trace <:+: received (.received data :: s.trace) := received_cons
        refine ⟨hbuffer, hframes, fun info hinfo => (h.info info hinfo).mono hgrows, ?_⟩
        intro hfailed
        rcases failed_cons.mp hfailed with hfails | hfailed
        · cases hfails
        · exact h.failed hfailed
  · obtain rfl := Option.some.inj hstep
    exact h.moved (by simp [toHandle])
  · next frame rest hreader =>
    obtain rfl := Option.some.inj hstep
    exact handleFrame_sound h hreader
  · next rest hreader =>
    obtain rfl := Option.some.inj hstep
    have hrest : ∀ frame ∈ rest, frame.Contained (received s.trace) := by
      have := h.frames
      rwa [toHandle, hreader] at this
    exact ⟨h.buffer, hrest, h.info, h.failed⟩
  · split at hstep
    · obtain rfl := Option.some.inj hstep
      exact h.moved (by simp [toHandle])
    · obtain rfl := Option.some.inj hstep
      exact ⟨h.buffer, by simp [toHandle], h.info, fun _ => Or.inl rfl⟩
  · obtain rfl := Option.some.inj hstep
    exact ⟨h.buffer, by simp [toHandle], h.info, h.failed⟩
  · obtain rfl := Option.some.inj hstep
    exact ⟨h.buffer, by simp [toHandle], h.info, fun _ => Or.inr rfl⟩
  · cases hstep

/-! ## The steps of the sender -/

theorem writing_of_inHand {s : HccastSession} (h : s.inHand = 0) (m : Protocol.Message) (data : Protocol.Bytes) :
    s.sender ≠ .writing m data := by
  intro hwriting
  rw [inHand, hwriting] at h
  cases h

/-- A step that shows at most an event without a number. -/
theorem SenderSound.add {s t : HccastSession} (h : SenderSound s) (hhand : s.inHand = 0)
    (hhand' : t.inHand = 0) (hcodec : t.codec = s.codec) {event : SessionEvent}
    (htrace : t.trace = event :: s.trace) (hnumber : event.number = none)
    (hready : ∀ info, event = .ready info → Produced info (received s.trace))
    (hfollows : t.Follows t.sender) : SenderSound t := by
  have hnumbers : numbers t.trace = numbers s.trace := by
    rw [htrace, numbers, List.filterMap_cons_none hnumber, numbers]
  constructor
  · exact hfollows
  · rw [hnumbers]
    exact h.counted
  · rw [hnumbers, hcodec, hhand', ← hhand]
    exact h.sequence
  · intro m data hwriting
    exact absurd hwriting (writing_of_inHand hhand' m data)
  · intro frame hframe
    rw [htrace] at hframe
    rcases List.mem_cons.mp hframe with rfl | hframe
    · cases hnumber
    · exact h.refused frame hframe
  · intro data older hsuffix
    rw [htrace] at hsuffix
    rcases List.suffix_cons_iff.mp hsuffix with heq | hsuffix
    · obtain ⟨rfl, -⟩ := List.cons.inj heq
      cases hnumber
    · exact h.silent data older hsuffix
  · intro info older hsuffix
    rw [htrace] at hsuffix
    rcases List.suffix_cons_iff.mp hsuffix with heq | hsuffix
    · obtain ⟨rfl, rfl⟩ := List.cons.inj heq
      exact hready info rfl
    · exact h.ready info older hsuffix

/-- A step of the sender without an event. -/
theorem SenderSound.move {s t : HccastSession} (h : SenderSound s) (hhand : s.inHand = 0)
    (hhand' : t.inHand = 0) (hcodec : t.codec = s.codec) (htrace : t.trace = s.trace)
    (hfollows : t.Follows t.sender) : SenderSound t := by
  constructor
  · exact hfollows
  · rw [htrace]
    exact h.counted
  · rw [htrace, hcodec, hhand', ← hhand]
    exact h.sequence
  · intro m data hwriting
    exact absurd hwriting (writing_of_inHand hhand' m data)
  · rw [htrace]
    exact h.refused
  · rw [htrace]
    exact h.silent
  · rw [htrace]
    exact h.ready

/-- A call that ends without having numbered a frame. -/
theorem SenderSound.ends {s : HccastSession} (h : SenderSound s) (hhand : s.inHand = 0)
    {event : SessionEvent} (hnumber : event.number = none)
    (hready : ∀ info, event = .ready info → Produced info (received s.trace)) :
    SenderSound (s.returns event) :=
  h.add hhand rfl rfl rfl hnumber hready trivial

/-- The counter after its next number. -/
theorem SenderSound.numbered {s : HccastSession} (h : SenderSound s) (hhand : s.inHand = 0) :
    s.codec.sequence = (numbers s.trace).length % 2 ^ 32 ∧
      s.codec.next.sequence = ((numbers s.trace).length + 1) % 2 ^ 32 := by
  have hsequence := h.sequence
  rw [hhand, Nat.add_zero] at hsequence
  refine ⟨hsequence, ?_⟩
  rw [FrameCodec.next_sequence, hsequence, Nat.mod_add_mod]

theorem encodeStep_sound {s : HccastSession} (h : SenderSound s) {m : Protocol.Message}
    (hat : s.sender = .encoding m) : SenderSound (s.encodeStep m) := by
  have hhand : s.inHand = 0 := by rw [inHand, hat]
  have hfollows := h.follows
  rw [hat] at hfollows
  obtain ⟨hsequence, hnext⟩ := h.numbered hhand
  unfold encodeStep
  split
  · next data _ hmake =>
    obtain ⟨hcodec, hnumber⟩ := make_ok hmake
    constructor
    · exact hfollows
    · exact h.counted
    · exact (congrArg FrameCodec.sequence hcodec).trans hnext
    · intro m' data' hwriting
      obtain ⟨rfl, rfl⟩ := Sender.writing.inj hwriting
      exact hnumber.trans hsequence
    · exact h.refused
    · exact h.silent
    · exact h.ready
  · next e payload hmake hpayload =>
    obtain ⟨hcommand, hlong⟩ := make_refused hpayload hmake
    have hcodec : (make s.codec m).2 = s.codec.next := by rw [make_eq hpayload]
    constructor
    · trivial
    · change Counted (s.codec.sequence :: numbers s.trace).reverse
      rw [List.reverse_cons, hsequence, ← List.length_reverse]
      exact h.counted.snoc
    · exact (congrArg FrameCodec.sequence hcodec).trans hnext
    · intro m' data' hwriting
      cases hwriting
    · intro frame hframe
      rcases List.mem_cons.mp hframe with heq | hframe
      · cases heq
      rcases List.mem_cons.mp hframe with heq | hframe
      · obtain rfl := SessionEvent.refused.inj heq
        exact ⟨hcommand, hlong⟩
      · exact h.refused frame hframe
    · intro data older hsuffix
      rcases List.suffix_cons_iff.mp hsuffix with heq | hsuffix
      · cases heq
      rcases List.suffix_cons_iff.mp hsuffix with heq | hsuffix
      · cases heq
      · exact h.silent data older hsuffix
    · intro info older hsuffix
      rcases List.suffix_cons_iff.mp hsuffix with heq | hsuffix
      · cases heq
      rcases List.suffix_cons_iff.mp hsuffix with heq | hsuffix
      · cases heq
      · exact h.ready info older hsuffix
  · exact h.ends hhand rfl (by simp)

/-- Handing a frame over shows its number, and no video packet is handed over in a call
that was made after a failure. -/
theorem SenderSound.hands {s t : HccastSession} (h : SenderSound s) {m : Protocol.Message} {data : Protocol.Bytes}
    (hat : s.sender = .writing m data) (hcodec : t.codec = s.codec)
    (htrace : t.trace = .handed data :: s.trace) (hhand : t.inHand = 0)
    (hfollows : t.Follows t.sender) : SenderSound t := by
  have hnumber := h.writing m data hat
  have hlast := h.follows
  rw [hat] at hlast
  have hnumbers : numbers t.trace = u32At data 4 :: numbers s.trace := by
    rw [htrace]
    rfl
  constructor
  · exact hfollows
  · rw [hnumbers, List.reverse_cons, hnumber, ← List.length_reverse]
    exact h.counted.snoc
  · have hsequence := h.sequence
    rw [inHand, hat] at hsequence
    rw [hnumbers, hcodec, hhand, hsequence]
    rfl
  · intro m' data' hwriting
    exact absurd hwriting (writing_of_inHand hhand m' data')
  · intro frame hframe
    rw [htrace] at hframe
    rcases List.mem_cons.mp hframe with heq | hframe
    · cases heq
    · exact h.refused frame hframe
  · intro data' older hsuffix payload before hcall
    rw [htrace] at hsuffix
    rcases List.suffix_cons_iff.mp hsuffix with heq | hsuffix
    · obtain ⟨-, rfl⟩ := List.cons.inj heq
      obtain ⟨request, before', hlast, -, hclear⟩ := hlast
      obtain ⟨rfl, rfl⟩ := Prod.mk.inj (Option.some.inj (hlast.symm.trans hcall))
      exact hclear payload rfl
    · exact h.silent data' older hsuffix payload before hcall
  · intro info older hsuffix
    rw [htrace] at hsuffix
    rcases List.suffix_cons_iff.mp hsuffix with heq | hsuffix
    · cases heq
    · exact h.ready info older hsuffix

theorem callStep_sound {s t : HccastSession} (h : SenderSound s)
    {request : Request} (hstep : s.callStep request = some t) : SenderSound t := by
  unfold callStep at hstep
  split at hstep
  · next hidle =>
    have hhand : s.inHand = 0 := by rw [inHand, hidle]
    obtain rfl := Option.some.inj hstep
    refine h.add hhand ?_ rfl rfl rfl (by simp) ?_
    · cases request <;> simp [inHand]
    · cases request with
      | sendVideoPacket payload => exact ⟨s.trace, rfl⟩
      | handshake => exact ⟨s.trace, rfl⟩
      | sendSettings settings => exact ⟨_, s.trace, rfl, rfl, by simp⟩
      | sendScreenInfo info => exact ⟨_, s.trace, rfl, rfl, by simp⟩
  · cases hstep

theorem senderStep_sound {s t : HccastSession} (hr : ReaderSound s) (h : SenderSound s)
    {inTime : Bool} {write : Except String Unit} (hstep : s.senderStep inTime write = some t) :
    SenderSound t := by
  have hfollows := h.follows
  unfold senderStep at hstep
  split at hstep
  · cases hstep
  · next hat =>
    rw [hat] at hfollows
    obtain rfl := Option.some.inj hstep
    exact h.move (by rw [inHand, hat]) rfl rfl rfl hfollows
  · next hat =>
    rw [hat] at hfollows
    have hhand : s.inHand = 0 := by rw [inHand, hat]
    split at hstep
    · obtain rfl := Option.some.inj hstep
      exact h.move hhand rfl rfl rfl hfollows
    · obtain rfl := Option.some.inj hstep
      exact h.ends hhand rfl (by simp)
  · next check hat =>
    rw [hat] at hfollows
    have hhand : s.inHand = 0 := by rw [inHand, hat]
    split at hstep
    · obtain rfl := Option.some.inj hstep
      exact h.move hhand rfl rfl rfl trivial
    · next herror =>
      obtain rfl := Option.some.inj hstep
      cases check with
      | request =>
          obtain ⟨before, hlast⟩ := hfollows
          exact h.move hhand rfl rfl rfl ⟨_, before, hlast, rfl, by simp⟩
      | info => exact h.move hhand rfl rfl rfl hfollows
      | video payload =>
          -- An error is not there, so that only a STOP can have come before the call.
          obtain ⟨before, hlast⟩ := hfollows
          refine h.move hhand rfl rfl rfl ⟨before, hlast, ?_⟩
          intro hfailed
          exact (hr.failed (hfailed.mono (lastCall_suffix hlast))).resolve_left herror
  · next hat =>
    obtain ⟨error, -, rfl⟩ := Option.map_eq_some_iff.mp hstep
    exact h.ends (by rw [inHand, hat]) rfl (by simp)
  · next payload hat =>
    rw [hat] at hfollows
    have hhand : s.inHand = 0 := by rw [inHand, hat]
    split at hstep
    · obtain rfl := Option.some.inj hstep
      exact h.ends hhand rfl (by simp)
    · next hstop =>
      obtain rfl := Option.some.inj hstep
      obtain ⟨before, hlast, hfailed⟩ := hfollows
      refine h.move hhand rfl rfl rfl ⟨_, before, hlast, rfl, ?_⟩
      intro payload' _ hbefore
      exact hstop (hfailed hbefore)
  · next m hat =>
    obtain rfl := Option.some.inj hstep
    exact encodeStep_sound h hat
  · next m data hat =>
    rw [hat] at hfollows
    let handed : HccastSession := { s.see (.handed data) with sender := .idle }
    have hhanded : SenderSound handed := h.hands hat rfl rfl rfl trivial
    obtain rfl := Option.some.inj hstep
    split
    · exact hhanded.ends rfl rfl (by simp)
    · split
      · next hsetr =>
        -- Only a handshake sends a SETR.
        obtain ⟨request, before, hlast, hmessage, -⟩ := hfollows
        refine h.hands hat rfl rfl rfl ⟨before, ?_⟩
        rw [hsetr] at hmessage
        cases request with
        | handshake => exact hlast
        | _ => cases hmessage
      · exact hhanded.ends rfl rfl (by simp)
  · next hat =>
    rw [hat] at hfollows
    obtain rfl := Option.some.inj hstep
    refine h.move (by rw [inHand, hat]) ?_ rfl rfl ?_
    · simp only [inHand]
      split_ifs <;> rfl
    · simp only
      split_ifs <;> exact hfollows
  · next hat =>
    rw [hat] at hfollows
    have hhand : s.inHand = 0 := by rw [inHand, hat]
    split at hstep
    · split at hstep
      · obtain rfl := Option.some.inj hstep
        exact h.move hhand rfl rfl rfl hfollows
      · cases hstep
    · obtain rfl := Option.some.inj hstep
      exact h.move hhand rfl rfl rfl hfollows
  · next hat =>
    have hhand : s.inHand = 0 := by rw [inHand, hat]
    split at hstep
    · obtain rfl := Option.some.inj hstep
      exact h.ends hhand rfl (by simp)
    · next info hinfo =>
      obtain rfl := Option.some.inj hstep
      refine h.ends hhand rfl ?_
      intro info' heq
      obtain rfl := SessionEvent.ready.inj heq
      exact hr.info info hinfo

theorem encodeStep_seen (s : HccastSession) (m : Protocol.Message) : SeenByReader s (s.encodeStep m) := by
  unfold encodeStep
  split
  · exact ⟨rfl, rfl, rfl, rfl, Or.inl rfl, [], by simp, rfl⟩
  · exact ⟨rfl, rfl, rfl, rfl, Or.inl rfl, [_, _], by simp [SessionEvent.ofReader,
      SessionEvent.fails], rfl⟩
  · exact ⟨rfl, rfl, rfl, rfl, Or.inl rfl, [_], by simp [SessionEvent.ofReader,
      SessionEvent.fails], rfl⟩

theorem returns_seen (s : HccastSession) {event : SessionEvent} (h : event.ofReader = false) :
    SeenByReader s (s.returns event) :=
  ⟨rfl, rfl, rfl, rfl, Or.inl rfl, [event], by simpa using h, rfl⟩

/-- What the reader thread sees of a step of the sender. -/
theorem senderStep_seen {s t : HccastSession} {inTime : Bool} {write : Except String Unit}
    (hstep : s.senderStep inTime write = some t) : SeenByReader s t := by
  have hmoved : ∀ sender, SeenByReader s { s with sender := sender } := fun sender =>
    ⟨rfl, rfl, rfl, rfl, Or.inl rfl, [], by simp, rfl⟩
  have hhanded : ∀ data event, event.ofReader = false →
      SeenByReader s ((s.see (.handed data)).returns event) := fun data event hevent =>
    ⟨rfl, rfl, rfl, rfl, Or.inl rfl, [event, .handed data],
      List.forall_mem_cons.mpr ⟨hevent, List.forall_mem_cons.mpr ⟨rfl, by simp⟩⟩, rfl⟩
  unfold senderStep at hstep
  split at hstep
  · cases hstep
  · obtain rfl := Option.some.inj hstep
    refine ⟨rfl, rfl, rfl, rfl, ?_, [], by simp, rfl⟩
    simp only
    split_ifs
    · exact Or.inr rfl
    · exact Or.inl rfl
  · split at hstep
    · obtain rfl := Option.some.inj hstep
      exact hmoved _
    · obtain rfl := Option.some.inj hstep
      exact returns_seen s rfl
  · split at hstep
    · obtain rfl := Option.some.inj hstep
      exact hmoved _
    · obtain rfl := Option.some.inj hstep
      exact hmoved _
  · obtain ⟨error, -, rfl⟩ := Option.map_eq_some_iff.mp hstep
    exact returns_seen s rfl
  · split at hstep
    · obtain rfl := Option.some.inj hstep
      exact returns_seen s rfl
    · obtain rfl := Option.some.inj hstep
      exact hmoved _
  · obtain rfl := Option.some.inj hstep
    exact encodeStep_seen s _
  · next m data _ =>
    obtain rfl := Option.some.inj hstep
    split
    · exact hhanded data _ rfl
    · split
      · exact ⟨rfl, rfl, rfl, rfl, Or.inl rfl, [.handed data],
          by simp [SessionEvent.ofReader, SessionEvent.fails], rfl⟩
      · exact hhanded data _ rfl
  · obtain rfl := Option.some.inj hstep
    exact hmoved _
  · split at hstep
    · split at hstep
      · obtain rfl := Option.some.inj hstep
        exact hmoved _
      · cases hstep
    · obtain rfl := Option.some.inj hstep
      exact hmoved _
  · split at hstep
    · obtain rfl := Option.some.inj hstep
      exact returns_seen s rfl
    · obtain rfl := Option.some.inj hstep
      exact returns_seen s rfl

/-! ## Every run -/

/-- Both parts of the invariant. -/
structure Sound (s : HccastSession) : Prop where
  reader : ReaderSound s
  sender : SenderSound s

theorem fresh_sound : Sound fresh := by
  constructor
  · constructor
    · exact List.nil_suffix
    · simp [fresh, toHandle]
    · simp [fresh]
    · simp [fresh, Failed]
  · constructor
    · trivial
    · rfl
    · rfl
    · simp [fresh]
    · simp [fresh]
    · simp [fresh]
    · simp [fresh]

theorem step_sound {s t : HccastSession} {a : SessionAction} (h : Sound s)
    (hstep : sessionSystem.step s a = some t) : Sound t := by
  cases a with
  | reader read => exact ⟨readerStep_sound h.reader hstep, h.sender.seen (readerStep_seen hstep)⟩
  | call request =>
      refine ⟨h.reader.seen ?_, callStep_sound h.sender hstep⟩
      change s.callStep request = some t at hstep
      unfold callStep at hstep
      split at hstep
      · obtain rfl := Option.some.inj hstep
        exact ⟨rfl, rfl, rfl, rfl, Or.inl rfl, [_], by simp [SessionEvent.ofReader,
          SessionEvent.fails], rfl⟩
      · cases hstep
  | sender inTime write =>
      exact ⟨h.reader.seen (senderStep_seen hstep), senderStep_sound h.reader h.sender hstep⟩
  | close =>
      obtain rfl := Option.some.inj hstep
      exact ⟨h.reader.seen ⟨rfl, rfl, rfl, rfl, Or.inl rfl, [], by simp, rfl⟩,
        h.sender.seen ⟨rfl, rfl, Or.inl rfl, id, id⟩⟩

end HccastSession

/-- In every run of the two threads a handshake returns only what was made from a SETV
frame that has been received, a video packet is not handed over in a call made after a
STOP, an invalid SETV or a reader failure, and the frames are numbered 0, 1, 2, … in
order; a number is used up without a frame only by a video packet that the length word
cannot hold. -/
theorem session_fail_stop {s : HccastSession}
    (run : sessionSystem.Reaches System.Any HccastSession.fresh s) :
    (∀ info older, .ready info :: older <:+ s.trace → Produced info (received older)) ∧
    (∀ data older, .handed data :: older <:+ s.trace → ∀ payload before,
      lastCall older = some (.sendVideoPacket payload, before) → ¬ Failed before) ∧
    Counted (numbers s.trace).reverse ∧
    ∀ frame, .refused frame ∈ s.trace → frame.command = .VID ∧ 2 ^ 32 ≤ frame.totalLength := by
  have sound : s.Sound := run.invariant (P := HccastSession.Sound)
    (fun _ _ _ h _ hstep => HccastSession.step_sound h hstep)
    HccastSession.fresh_sound
  exact ⟨sound.sender.ready, sound.sender.silent, sound.sender.counted, sound.sender.refused⟩

/-- A video packet is handed over, the reader fails and the next packet is refused. -/
theorem session_fail_stop_reader_failure :
    ∃ s, sessionSystem.Reaches System.Any HccastSession.fresh s ∧
      numbers s.trace = [0] ∧ Failed s.trace ∧ Counted (numbers s.trace).reverse := by
  have run : sessionSystem.Reaches System.Any HccastSession.fresh _ :=
    @System.reaches_of_exec _ _ sessionSystem
      [.call .handshake, .sender true (.ok ()), .sender false (.ok ()), .reader (.ok []),
        .call (.sendVideoPacket [0x65]), .sender true (.ok ()), .sender true (.ok ()),
        .sender true (.ok ()), .sender true (.ok ()), .reader (.error "unplugged"),
        .reader (.ok []), .call (.sendVideoPacket [0x41]), .sender true (.ok ()),
        .sender true (.ok ())] _ _ rfl
  exact ⟨_, run, rfl, ⟨_, List.mem_cons_of_mem _ (List.mem_cons_of_mem _ List.mem_cons_self), rfl⟩,
    (session_fail_stop run).2.2.1⟩

/-- The numbers of the frames that were handed over, the newest first. -/
def handedNumbers (trace : List SessionEvent) : List Nat :=
  trace.filterMap fun event =>
    match event with
    | .handed data => some (u32At data 4)
    | _ => none

namespace HccastSession

/-- A session in which nothing is going on and nothing has failed. -/
structure Quiet (s : HccastSession) : Prop where
  sender : s.sender = .idle
  error : s.readerError = none
  stop : s.stopSeen = false

/-- A call of `send_video_packet` up to its encoder. -/
theorem Quiet.reaches_encoder {s : HccastSession} (h : Quiet s) (payload : Protocol.Bytes) :
    sessionSystem.exec s [.call (.sendVideoPacket payload), .sender true (.ok ()),
      .sender true (.ok ())] =
      some { s with
        sender := .encoding (.vid payload)
        trace := .called (.sendVideoPacket payload) :: s.trace } := by
  simp [System.exec, sessionSystem, step, callStep, senderStep, h.sender, h.error, h.stop]

/-- A packet that does not fit the length word uses up a number. -/
theorem Quiet.refuses {s : HccastSession} (h : Quiet s) {payload : Protocol.Bytes}
    (hlong : 2 ^ 32 ≤ 16 + payload.length) :
    ∃ t, sessionSystem.Reaches System.Any s t ∧ Quiet t ∧
      t.codec = s.codec.next ∧ handedNumbers t.trace = handedNumbers s.trace := by
  have hpayload : (Protocol.Message.vid payload).payload = .ok payload := by
    rw [Protocol.Message.payload, if_neg]
    rintro rfl
    simp at hlong
  refine ⟨_, (System.reaches_of_exec (h.reaches_encoder payload)).tail
    ⟨.sender true (.ok ()), trivial, rfl⟩, ?_⟩
  rw [encodeStep, make_too_long hpayload hlong, hpayload]
  exact ⟨⟨rfl, h.error, h.stop⟩, rfl, rfl⟩

/-- A packet that fits is handed over under the next number. -/
theorem Quiet.hands {s : HccastSession} (h : Quiet s) {payload : Protocol.Bytes} (hne : payload ≠ [])
    (hfits : 16 + payload.length < 2 ^ 32) :
    ∃ t, sessionSystem.Reaches System.Any s t ∧ Quiet t ∧
      t.codec = s.codec.next ∧ handedNumbers t.trace = s.codec.sequence :: handedNumbers s.trace := by
  have hpayload : (Protocol.Message.vid payload).payload = .ok payload := if_neg hne
  obtain ⟨data, -, hmake⟩ := @make_fits s.codec _ _ hpayload hfits
  have hnumber : u32At data 4 = s.codec.sequence :=
    (make_ok (congrArg Prod.fst hmake)).2
  refine ⟨{ s with
    codec := s.codec.next
    sender := .idle
    trace := .done :: .handed data :: .called (.sendVideoPacket payload) :: s.trace },
    ((System.reaches_of_exec (h.reaches_encoder payload)).tail
      ⟨.sender true (.ok ()), trivial, rfl⟩).tail ⟨.sender true (.ok ()), trivial, ?_⟩,
    ⟨rfl, h.error, h.stop⟩, rfl, ?_⟩
  · simp [encodeStep, hmake, sessionSystem, step, senderStep, see, returns]
  · simp [handedNumbers, hnumber]

end HccastSession

/-- After a video packet of 4 GiB the first frame that is handed over has the number 1. -/
theorem oversize_packet_leaves_gap :
    ¬ ∀ s, sessionSystem.Reaches System.Any HccastSession.fresh s →
      Counted (handedNumbers s.trace).reverse := by
  intro hall
  have hfresh : HccastSession.fresh.Quiet := ⟨rfl, rfl, rfl⟩
  obtain ⟨refused, hrun, hquiet, hcodec, htrace⟩ :=
    @HccastSession.Quiet.refuses _ hfresh (List.replicate (2 ^ 32) 0)
      (by rw [List.length_replicate]; omega)
  obtain ⟨sent, hrun', -, -, htrace'⟩ := @HccastSession.Quiet.hands _ hquiet [0x65] (by simp)
    (by simp)
  have hcounted := hall sent (hrun.trans hrun')
  rw [htrace', hcodec, htrace] at hcounted
  revert hcounted
  unfold Counted
  decide

end HccastWired.Session
