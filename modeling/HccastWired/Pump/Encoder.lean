import HccastWired.Pump.Transports

/-!
# The pump between the encoder and the gadget

It reads a chunk, writes all of it, flushes, and reads the next one. What was read
and written is kept in a trace.
-/

namespace HccastWired.Pump

open Foundation

/-- What a stream raises: a broken pipe, an `OSError` or a `ValueError`, which the
pump catches, or anything else. -/
inductive StreamError
  | caught (message : String)
  | other (message : String)
deriving DecidableEq, Repr

inductive StreamRead
  | chunk (bytes : Bytes)
  | none
  | raised (error : StreamError)
deriving DecidableEq, Repr

inductive StreamWrite
  | count (written : Nat)
  | none
  | raised (taken : Nat) (error : StreamError)
deriving DecidableEq, Repr

inductive PumpEvent
  | read (chunk : Bytes)
  | wrote (piece : Bytes)
  | flushed
deriving DecidableEq, Repr

/-- The trace of a pump and its end: a reason, or what it did not catch. -/
structure PumpRun where
  events : List PumpEvent
  outcome : Outcome String String

namespace Encoder

/-- The end of the pump on an error. -/
def onError : StreamError → Outcome String String
  | .caught _ => .returned "stream-pipe"
  | .other message => .raised message

/-- The end of the pump behind the last chunk, by the exit code of the producer. -/
def onEnd : Except StreamError (Option Int) → Outcome String String
  | .ok none => .returned "encoder-eof"
  | .ok (some _) => .returned "encoder-exited"
  | .error error => onError error

/-- The body of the inner loop; its failure is the end of the pump. -/
def offer (_ : Nat) (chunk : Bytes) : StreamWrite → Bytes × Verdict (Outcome String String)
  | .count written => taking chunk written (.returned "stream-pipe")
  | .none => ([], .fail (.returned "stream-pipe"))
  | .raised taken error => (chunk.take taken, .fail (onError error))

/-- The inner loop over one chunk. -/
def writeChunk (chunk : Bytes) (writes : List StreamWrite) :
    Delivery UInt8 (Outcome String String) StreamWrite :=
  deliver chunk (fun offset => chunk.drop offset) offer 0 writes

def PumpRun.behind (events : List PumpEvent) (r : PumpRun) : PumpRun :=
  { r with events := events ++ r.events }

/-- The trace of a chunk that was read and written in pieces. -/
def chunkEvents (chunk : Bytes) (pieces : List Bytes) : List PumpEvent :=
  .read chunk :: pieces.map .wrote

/-- `_pump_binary`; `poll` is what `producer_poll` gives behind the last chunk. -/
def pumpBinary (poll : Except StreamError (Option Int)) :
    List StreamRead → List StreamWrite → List (Except StreamError Unit) → PumpRun
  | [], _, _ => ⟨[], .pending⟩
  | .none :: _, _, _ => ⟨[], onEnd poll⟩
  | .raised error :: _, _, _ => ⟨[], onError error⟩
  | .chunk chunk :: reads, writes, flushes =>
      if chunk = [] then ⟨[], onEnd poll⟩
      else
        let d := writeChunk chunk writes
        let events := chunkEvents chunk d.pieces
        match d.outcome with
        | .pending => ⟨events, .pending⟩
        | .raised reason => ⟨events, reason⟩
        | .returned () =>
            match flushes with
            | [] => ⟨events, .pending⟩
            | .error error :: _ => ⟨events, onError error⟩
            | .ok () :: flushes =>
                PumpRun.behind (events ++ [.flushed]) (pumpBinary poll reads d.left flushes)

/-! ## The trace -/

/-- The bytes of the chunks that were read. -/
def readBytes (events : List PumpEvent) : Bytes :=
  events.flatMap fun e => match e with
    | .read chunk => chunk
    | _ => []

/-- The bytes that the writer took. -/
def wroteBytes (events : List PumpEvent) : Bytes :=
  events.flatMap fun e => match e with
    | .wrote piece => piece
    | _ => []

def isWrite : PumpEvent → Bool
  | .wrote _ => true
  | _ => false

def isRead : PumpEvent → Bool
  | .read _ => true
  | _ => false

def isFlush : PumpEvent → Bool
  | .flushed => true
  | _ => false

/-- The writes take in order what is owed, and nothing is owed at a read or at a
flush. -/
def Ordered : Bytes → List PumpEvent → Prop
  | _, [] => True
  | owed, .read chunk :: rest => owed = [] ∧ Ordered chunk rest
  | owed, .wrote piece :: rest => ∃ later, owed = piece ++ later ∧ Ordered later rest
  | owed, .flushed :: rest => owed = [] ∧ Ordered [] rest

section Trace

variable {owed : Bytes} {events before : List PumpEvent} {e : PumpEvent}

theorem Ordered.in_order (h : Ordered owed events) (hbefore : before <+: events) :
    wroteBytes before <+: owed ++ readBytes before := by
  induction before generalizing owed events with
  | nil => exact List.nil_prefix
  | cons first before ih =>
      obtain ⟨behind, rfl⟩ := hbefore
      rw [List.cons_append] at h
      cases first with
      | read chunk =>
          obtain ⟨rfl, hrest⟩ := h
          exact ih hrest (List.prefix_append _ _)
      | wrote piece =>
          obtain ⟨later, rfl, hrest⟩ := h
          have hlater := ih hrest (List.prefix_append _ _)
          rw [List.append_assoc]
          exact (List.prefix_append_right_inj piece).mpr hlater
      | flushed =>
          obtain ⟨rfl, hrest⟩ := h
          exact ih hrest (List.prefix_append _ _)

/-- Nothing is owed where the trace goes on with no write. -/
theorem Ordered.next (h : Ordered owed events) (hbefore : before ++ [e] <+: events)
    (he : isWrite e = false) : wroteBytes before = owed ++ readBytes before := by
  induction before generalizing owed events with
  | nil =>
      obtain ⟨behind, rfl⟩ := hbefore
      cases e with
      | read chunk => rw [show owed = [] from h.1]; rfl
      | flushed => rw [show owed = [] from h.1]; rfl
      | wrote piece => cases he
  | cons first before ih =>
      obtain ⟨behind, rfl⟩ := hbefore
      rw [List.cons_append, List.cons_append] at h
      cases first with
      | read chunk =>
          obtain ⟨rfl, hrest⟩ := h
          exact ih hrest (List.prefix_append _ _)
      | wrote piece =>
          obtain ⟨later, rfl, hrest⟩ := h
          have hlater := ih hrest (List.prefix_append _ _)
          rw [List.append_assoc]
          exact congrArg (piece ++ ·) hlater
      | flushed =>
          obtain ⟨rfl, hrest⟩ := h
          exact ih hrest (List.prefix_append _ _)

theorem ordered_writes {pieces : List Bytes} {later : Bytes} (h : Ordered later events) :
    Ordered (pieces.flatten ++ later) (pieces.map .wrote ++ events) := by
  induction pieces with
  | nil => exact h
  | cons piece rest ih =>
      refine ⟨rest.flatten ++ later, ?_, ih⟩
      rw [List.flatten_cons, List.append_assoc]

theorem ordered_chunk {chunk later : Bytes} {pieces : List Bytes}
    (hchunk : pieces.flatten ++ later = chunk) (h : Ordered later events) :
    Ordered [] (chunkEvents chunk pieces ++ events) := by
  refine ⟨rfl, ?_⟩
  rw [← hchunk]
  exact ordered_writes h

theorem wroteBytes_writes (pieces : List Bytes) :
    wroteBytes (pieces.map .wrote) = pieces.flatten := by
  rw [wroteBytes, List.flatMap_map]
  exact List.flatMap_id

theorem readBytes_writes (pieces : List Bytes) : readBytes (pieces.map .wrote) = [] := by
  rw [readBytes, List.flatMap_map]
  exact List.flatMap_eq_nil_iff.mpr fun _ _ => rfl

theorem countP_writes (pieces : List Bytes) :
    (pieces.map PumpEvent.wrote).countP isWrite = pieces.length := by
  rw [List.countP_map]
  exact List.countP_eq_length.mpr fun _ _ => rfl

end Trace

/-! ## What the pump delivers -/

theorem offer_counts (chunk : Bytes) :
    Counts chunk (fun offset => chunk.drop offset) offer (fun _ => false) := by
  constructor
  · exact fun offset _ => List.prefix_refl _
  · intro offset c answer
    cases answer with
    | count written => exact counted_taking _ _ _ _
    | none => exact counted_none _ _ _
    | raised taken error => exact counted_fail _ _ _ _

theorem writeChunk_arrives (chunk : Bytes) (writes : List StreamWrite) :
    Arrives chunk (fun _ => false) writes (writeChunk chunk writes) :=
  deliver_arrives (offer_counts chunk) 0 (Nat.zero_le _) writes

/-- The pump has stopped without success. -/
def Stopped (outcome : Outcome String String) : Prop :=
  outcome = .returned "stream-pipe" ∨ ∃ message, outcome = .raised message

theorem stopped_onError (error : StreamError) : Stopped (onError error) := by
  cases error with
  | caught message => exact Or.inl rfl
  | other message => exact Or.inr ⟨message, rfl⟩

/-- Where the inner loop fails, the pump stops without success. -/
theorem writeChunk_raised {chunk : Bytes} {writes : List StreamWrite}
    {outcome : Outcome String String} (h : (writeChunk chunk writes).outcome = .raised outcome) :
    Stopped outcome := by
  obtain ⟨offset, c, answer, piece, hoffer⟩ := deliver_raised h
  cases answer with
  | none =>
      cases hoffer
      exact Or.inl rfl
  | raised taken error =>
      cases hoffer
      exact stopped_onError error
  | count written =>
      simp only [offer, taking] at hoffer
      split at hoffer
      · cases hoffer
        exact Or.inl rfl
      · cases hoffer

section Run

variable {poll : Except StreamError (Option Int)} {chunk : Bytes} {reads : List StreamRead}
  {writes : List StreamWrite} {flushes : List (Except StreamError Unit)}

/-- What the pump does with a chunk: it stops behind what it wrote, or all of it was
written and flushed. -/
theorem pumpBinary_chunk (poll : Except StreamError (Option Int)) (reads : List StreamRead)
    (writes : List StreamWrite) (flushes : List (Except StreamError Unit)) (hchunk : chunk ≠ []) :
    (∃ outcome, pumpBinary poll (.chunk chunk :: reads) writes flushes =
        ⟨chunkEvents chunk (writeChunk chunk writes).pieces, outcome⟩ ∧
      (Stopped outcome ∨ outcome = .pending ∧
        ((writeChunk chunk writes).outcome = .pending ∨ flushes = []))) ∨
    ∃ rest, flushes = .ok () :: rest ∧ (writeChunk chunk writes).outcome = .returned () ∧
      pumpBinary poll (.chunk chunk :: reads) writes flushes =
        PumpRun.behind (chunkEvents chunk (writeChunk chunk writes).pieces ++ [.flushed])
          (pumpBinary poll reads (writeChunk chunk writes).left rest) := by
  rw [pumpBinary, if_neg hchunk]
  cases houtcome : (writeChunk chunk writes).outcome with
  | pending =>
      left
      refine ⟨.pending, ?_, Or.inr ⟨rfl, Or.inl rfl⟩⟩
      simp only [houtcome]
  | raised outcome =>
      left
      refine ⟨outcome, ?_, Or.inl (writeChunk_raised houtcome)⟩
      simp only [houtcome]
  | returned value =>
      cases flushes with
      | nil =>
          left
          refine ⟨.pending, ?_, Or.inr ⟨rfl, Or.inr rfl⟩⟩
          simp only [houtcome]
      | cons flush rest =>
          cases flush with
          | error error =>
              left
              refine ⟨onError error, ?_, Or.inl (stopped_onError error)⟩
              simp only [houtcome]
          | ok value =>
              right
              refine ⟨rest, rfl, rfl, ?_⟩
              simp only [houtcome]

theorem Stopped.ne_returned {outcome : Outcome String String} (h : Stopped outcome)
    {reason : String} (hreason : reason ≠ "stream-pipe") : outcome ≠ .returned reason := by
  rintro rfl
  rcases h with heq | ⟨message, heq⟩
  · cases heq
    exact hreason rfl
  · cases heq

theorem Stopped.ne_pending {outcome : Outcome String String} (h : Stopped outcome) :
    outcome ≠ .pending := by
  rintro rfl
  rcases h with heq | ⟨message, heq⟩
  · cases heq
  · cases heq

/-- The pump writes what it read, in its order. -/
theorem pumpBinary_ordered : Ordered [] (pumpBinary poll reads writes flushes).events := by
  induction reads generalizing writes flushes with
  | nil => trivial
  | cons answer reads ih =>
      cases answer with
      | none => trivial
      | raised error => trivial
      | chunk chunk =>
          by_cases hchunk : chunk = []
          · rw [pumpBinary, if_pos hchunk]
            trivial
          have harrives := writeChunk_arrives chunk writes
          rcases pumpBinary_chunk poll reads writes flushes hchunk with ⟨outcome, heq, -⟩ | ⟨rest, -, hreturned, heq⟩
          · rw [heq]
            obtain ⟨later, hlater⟩ := harrives.in_order
            have hordered : Ordered [] (chunkEvents chunk (writeChunk chunk writes).pieces ++ []) :=
              ordered_chunk hlater trivial
            rw [List.append_nil] at hordered
            exact hordered
          · rw [heq]
            have hall : (writeChunk chunk writes).taken ++ [] = chunk := by
              rw [List.append_nil, harrives.complete hreturned]
            rw [PumpRun.behind, List.append_assoc]
            exact ordered_chunk hall ⟨rfl, ih⟩

theorem readBytes_append (xs ys : List PumpEvent) :
    readBytes (xs ++ ys) = readBytes xs ++ readBytes ys := List.flatMap_append

theorem wroteBytes_append (xs ys : List PumpEvent) :
    wroteBytes (xs ++ ys) = wroteBytes xs ++ wroteBytes ys := List.flatMap_append

/-- The events of a chunk: one read, and a write for each piece. -/
theorem countP_chunk (pieces : List Bytes) (chunk : Bytes) :
    (chunkEvents chunk pieces).countP isRead = 1 ∧
      (chunkEvents chunk pieces).countP isWrite = pieces.length ∧
      (chunkEvents chunk pieces).countP isFlush = 0 := by
  have hnone : ∀ {p : PumpEvent → Bool}, (∀ piece, p (.wrote piece) = false) →
      (pieces.map PumpEvent.wrote).countP p = 0 := by
    intro p hp
    rw [List.countP_map]
    exact List.countP_eq_zero.mpr fun piece _ => by simp [hp piece]
  refine ⟨?_, countP_writes pieces, ?_⟩
  · change (PumpEvent.read chunk :: pieces.map PumpEvent.wrote).countP isRead = 1
    rw [List.countP_cons_of_pos rfl, hnone fun _ => rfl]
  · change (PumpEvent.read chunk :: pieces.map PumpEvent.wrote).countP isFlush = 0
    rw [List.countP_cons_of_neg Bool.false_ne_true, hnone fun _ => rfl]

/-- What a chunk adds to the trace. -/
theorem chunk_trace (chunk : Bytes) (pieces : List Bytes) (behind : List PumpEvent) :
    readBytes (chunkEvents chunk pieces ++ behind) = chunk ++ readBytes behind ∧
      wroteBytes (chunkEvents chunk pieces ++ behind) = pieces.flatten ++ wroteBytes behind ∧
      (chunkEvents chunk pieces ++ behind).countP isWrite =
        pieces.length + behind.countP isWrite := by
  refine ⟨?_, ?_, ?_⟩
  · rw [readBytes_append]
    change chunk ++ readBytes (pieces.map .wrote) ++ _ = _
    rw [readBytes_writes, List.append_nil]
  · rw [wroteBytes_append]
    change [] ++ wroteBytes (pieces.map .wrote) ++ _ = _
    rw [wroteBytes_writes, List.nil_append]
  · rw [List.countP_append]
    change (pieces.map PumpEvent.wrote).countP isWrite + _ = _
    rw [countP_writes]

/-- A reason that reports success comes behind all that was read. -/
theorem pumpBinary_success {reason : String} (hreason : reason ≠ "stream-pipe")
    (h : (pumpBinary poll reads writes flushes).outcome = .returned reason) :
    wroteBytes (pumpBinary poll reads writes flushes).events =
      readBytes (pumpBinary poll reads writes flushes).events := by
  induction reads generalizing writes flushes with
  | nil => rfl
  | cons answer reads ih =>
      cases answer with
      | none => rfl
      | raised error => rfl
      | chunk chunk =>
          by_cases hchunk : chunk = []
          · rw [pumpBinary, if_pos hchunk]
            rfl
          rcases pumpBinary_chunk poll reads writes flushes hchunk with
            ⟨outcome, heq, hstopped | ⟨hpending, -⟩⟩ | ⟨rest, -, hreturned, heq⟩
          · rw [heq] at h
            exact absurd h (hstopped.ne_returned hreason)
          · rw [heq, hpending] at h
            cases h
          · rw [heq] at h ⊢
            have hrest := ih h
            have hall := (writeChunk_arrives chunk writes).complete hreturned
            rw [Delivery.taken] at hall
            simp only [PumpRun.behind, List.append_assoc]
            obtain ⟨hread, hwrote, -⟩ := chunk_trace chunk (writeChunk chunk writes).pieces
              ([.flushed] ++ (pumpBinary poll reads (writeChunk chunk writes).left rest).events)
            rw [hread, hwrote, hall]
            exact congrArg (chunk ++ ·) hrest

/-- Each write but the last one has taken bytes. -/
theorem pumpBinary_progress :
    (pumpBinary poll reads writes flushes).events.countP isWrite ≤
      (wroteBytes (pumpBinary poll reads writes flushes).events).length + 1 := by
  induction reads generalizing writes flushes with
  | nil => exact Nat.zero_le _
  | cons answer reads ih =>
      cases answer with
      | none => exact Nat.zero_le _
      | raised error => exact Nat.zero_le _
      | chunk chunk =>
          by_cases hchunk : chunk = []
          · rw [pumpBinary, if_pos hchunk]
            exact Nat.zero_le _
          have hpieces : (writeChunk chunk writes).pieces.length +
              (writeChunk chunk writes).left.length = writes.length :=
            length_pieces_deliver 0 writes
          have hnone : writes.countP (fun _ => false) = 0 :=
            List.countP_eq_zero.mpr fun _ _ => Bool.false_ne_true
          rcases pumpBinary_chunk poll reads writes flushes hchunk with ⟨outcome, heq, -⟩ | ⟨rest, -, hreturned, heq⟩
          · have hused := deliver_used (offer_counts chunk) 0 (Nat.zero_le _) writes
            change writes.length ≤ (writeChunk chunk writes).left.length +
              (writeChunk chunk writes).taken.length + _ + 1 at hused
            rw [hnone, Delivery.taken] at hused
            obtain ⟨-, hwrote, hcount⟩ := chunk_trace chunk (writeChunk chunk writes).pieces []
            rw [List.append_nil, List.countP_nil] at hcount
            rw [List.append_nil] at hwrote
            rw [heq, hwrote, hcount, List.length_append]
            omega
          · have hprogress := (writeChunk_arrives chunk writes).progress (Or.inl hreturned)
            rw [hnone, Delivery.taken] at hprogress
            have hrest := @ih (writeChunk chunk writes).left rest
            obtain ⟨-, hwrote, hcount⟩ := chunk_trace chunk (writeChunk chunk writes).pieces
              ([.flushed] ++ (pumpBinary poll reads (writeChunk chunk writes).left rest).events)
            rw [heq]
            simp only [PumpRun.behind, List.append_assoc]
            rw [hwrote, hcount, List.length_append]
            change _ + (pumpBinary poll reads (writeChunk chunk writes).left rest).events.countP
                isWrite ≤
              _ + (wroteBytes (pumpBinary poll reads (writeChunk chunk writes).left
                rest).events).length + 1
            omega

/-- Each chunk of the trace has bytes. -/
theorem pumpBinary_reads {c : Bytes} (h : .read c ∈ (pumpBinary poll reads writes flushes).events) :
    c ≠ [] := by
  induction reads generalizing writes flushes with
  | nil => cases h
  | cons answer reads ih =>
      cases answer with
      | none => cases h
      | raised error => cases h
      | chunk chunk =>
          by_cases hchunk : chunk = []
          · rw [pumpBinary, if_pos hchunk] at h
            cases h
          have htrace : ∀ {events : List PumpEvent},
              .read c ∈ chunkEvents chunk (writeChunk chunk writes).pieces ++ events →
              c = chunk ∨ .read c ∈ events := by
            intro events hmem
            rcases List.mem_append.mp hmem with hmem | hmem
            · rcases List.mem_cons.mp hmem with heq | hmem
              · cases heq
                exact Or.inl rfl
              · obtain ⟨piece, -, heq⟩ := List.mem_map.mp hmem
                cases heq
            · exact Or.inr hmem
          rcases pumpBinary_chunk poll reads writes flushes hchunk with ⟨outcome, heq, -⟩ | ⟨rest, -, -, heq⟩
          · rw [heq] at h
            rcases @htrace [] (by rw [List.append_nil]; exact h) with rfl | hmem
            · exact hchunk
            · cases hmem
          · rw [heq, PumpRun.behind, List.append_assoc] at h
            rcases htrace h with rfl | hmem
            · exact hchunk
            · rcases List.mem_cons.mp hmem with heq | hmem
              · cases heq
              · exact ih hmem

/-- The pump goes on as long as the reader, the writer and the flushes answer. -/
theorem pumpBinary_pending (h : (pumpBinary poll reads writes flushes).outcome = .pending) :
    (pumpBinary poll reads writes flushes).events.countP isRead = reads.length ∨
      (pumpBinary poll reads writes flushes).events.countP isWrite = writes.length ∨
      (pumpBinary poll reads writes flushes).events.countP isFlush = flushes.length := by
  have hended : onEnd poll ≠ .pending := by
    intro hpending
    cases poll with
    | error error => exact (stopped_onError error).ne_pending hpending
    | ok code => cases code <;> cases hpending
  induction reads generalizing writes flushes with
  | nil => exact Or.inl rfl
  | cons answer reads ih =>
      cases answer with
      | none => exact absurd h hended
      | raised error => exact absurd h (stopped_onError error).ne_pending
      | chunk chunk =>
          by_cases hchunk : chunk = []
          · rw [pumpBinary, if_pos hchunk] at h
            exact absurd h hended
          have hpieces : (writeChunk chunk writes).pieces.length +
              (writeChunk chunk writes).left.length = writes.length :=
            length_pieces_deliver 0 writes
          have hwrites := countP_writes (writeChunk chunk writes).pieces
          rcases pumpBinary_chunk poll reads writes flushes hchunk with
            ⟨outcome, heq, hstopped | ⟨-, hleft⟩⟩ | ⟨rest, hflushes, -, heq⟩
          · rw [heq] at h
            exact absurd h hstopped.ne_pending
          · rw [heq]
            rcases hleft with hpending | hnone
            · have hexhausted := (writeChunk_arrives chunk writes).exhausted hpending
              rw [hexhausted, List.length_nil, Nat.add_zero] at hpieces
              exact Or.inr (Or.inl (hwrites.trans hpieces))
            · right; right
              rw [hnone]
              exact (countP_chunk _ _).2.2
          · rw [heq] at h ⊢
            have hbehind := ih h
            have hcounts := countP_chunk (writeChunk chunk writes).pieces chunk
            simp only [PumpRun.behind, List.countP_append, hcounts, hflushes, List.length_cons]
            change 1 + 0 + _ = _ ∨ _ + 0 + _ = _ ∨ 0 + 1 + _ = _
            omega

end Run

end Encoder

end HccastWired.Pump
