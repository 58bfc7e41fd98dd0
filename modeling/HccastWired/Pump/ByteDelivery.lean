import HccastWired.Pump.Encoder
import HccastWired.Pump.RescueFrame

/-!
# The byte pumps deliver what they were given

One statement for the four loops. The payload of a writer is its argument; the
payload of the pump between the encoder and the gadget is what it has read so far.
-/

namespace HccastWired.Pump

open Foundation

open Encoder (readBytes wroteBytes isRead isWrite isFlush)

/-- A run of the pump writes in order what it has read. It reads the next chunk and
flushes only with nothing left to write, and ends in success only where all it read
was written. Each write but the last has taken bytes, and a pump that goes on has
used up the answers of the reader, of the writer or of the flushes. -/
structure PumpDelivers (reads : List StreamRead) (writes : List StreamWrite)
    (flushes : List (Except StreamError Unit)) (r : PumpRun) : Prop where
  in_order : ∀ before, before <+: r.events → wroteBytes before <+: readBytes before
  continues : ∀ before e, before ++ [e] <+: r.events → isWrite e = false →
    wroteBytes before = readBytes before
  success : ∀ reason, r.outcome = .returned reason → reason ≠ "stream-pipe" →
    wroteBytes r.events = readBytes r.events
  progress : r.events.countP isWrite ≤ (wroteBytes r.events).length + 1
  advances : ∀ chunk, .read chunk ∈ r.events → chunk ≠ []
  exhausted : r.outcome = .pending → r.events.countP isRead = reads.length ∨
    r.events.countP isWrite = writes.length ∨ r.events.countP isFlush = flushes.length

theorem pumpBinary_delivers (poll : Except StreamError (Option Int)) (reads : List StreamRead)
    (writes : List StreamWrite) (flushes : List (Except StreamError Unit)) :
    PumpDelivers reads writes flushes (Encoder.pumpBinary poll reads writes flushes) := by
  constructor
  · intro before hbefore
    exact Encoder.pumpBinary_ordered.in_order hbefore
  · intro before e hbefore he
    exact Encoder.pumpBinary_ordered.next hbefore he
  · intro reason hreturned hreason
    exact Encoder.pumpBinary_success hreason hreturned
  · exact Encoder.pumpBinary_progress
  · intro chunk hread
    exact Encoder.pumpBinary_reads hread
  · exact Encoder.pumpBinary_pending

end HccastWired.Pump
