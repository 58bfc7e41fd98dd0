import HccastWired.Pump.Transports

/-!
# The frame writer of the rescue display

The descriptor does not block, so a write may find it full; the writer then waits
until the event loop finds the descriptor writable, or its time is up.
-/

namespace HccastWired.Pump

open Foundation

/-- How `await writable` ends. -/
inductive WritableWait
  | writable
  | timedOut
  | cancelled
  | raised (message : String)
deriving DecidableEq, Repr

/-- What `os.write` does on a descriptor that does not block, with the wait behind
a write that would. -/
inductive FrameWrite
  | count (written : Nat)
  | blockingIOError (wait : WritableWait)
  | osError (taken : Nat) (message : String)
deriving DecidableEq, Repr

inductive FrameError
  | value (message : String)
  | brokenPipe (message : String)
  | os (message : String)
  | timeout
  | cancelled
  | raised (message : String)
deriving DecidableEq, Repr

namespace RescueFrame

/-- `FRAME_BYTES`. -/
def frameBytes : Nat := 1280 * 720 * 4

/-- The body of the loop. -/
def offer (_ : Nat) (chunk : Bytes) : FrameWrite → Bytes × Verdict FrameError
  | .count count => taking chunk count (.brokenPipe "Rescue pipe stopped accepting bytes")
  | .blockingIOError .writable => ([], .wait)
  | .blockingIOError .timedOut => ([], .fail .timeout)
  | .blockingIOError .cancelled => ([], .fail .cancelled)
  | .blockingIOError (.raised message) => ([], .fail (.raised message))
  | .osError taken message => (chunk.take taken, .fail (.os message))

/-- `write_frame`; what is not `bytes` is `none`. -/
def writeFrame (frame : Option Bytes) (setBlocking : Except String Unit)
    (answers : List FrameWrite) : Delivery UInt8 FrameError FrameWrite :=
  match frame with
  | none =>
      ⟨[], answers, .raised (.value "The raw worker requires one complete 1280x720 BGRx frame")⟩
  | some frame =>
      if frame.length ≠ frameBytes then
        ⟨[], answers, .raised (.value "The raw worker requires one complete 1280x720 BGRx frame")⟩
      else
        match setBlocking with
        | .error message => ⟨[], answers, .raised (.os message)⟩
        | .ok () =>
            deliver frame (fun offset => viewSlice frame offset (offset + 65536)) offer 0 answers

/-- The writer waits for the descriptor, and is woken because that is writable. -/
def waits : FrameWrite → Bool
  | .blockingIOError .writable => true
  | _ => false

theorem offer_counts (frame : Bytes) :
    Counts frame (fun offset => viewSlice frame offset (offset + 65536)) offer waits := by
  constructor
  · exact fun offset _ => viewSlice_prefix frame offset _
  · intro offset chunk answer
    cases answer with
    | count count => exact counted_taking _ _ _ _
    | osError taken message => exact counted_fail _ _ _ _
    | blockingIOError wait =>
        cases wait with
        | writable => exact ⟨rfl, rfl⟩
        | timedOut => exact counted_none _ _ _
        | cancelled => exact counted_none _ _ _
        | raised message => exact counted_none _ _ _

theorem writeFrame_delivers (frame : Option Bytes) (setBlocking : Except String Unit)
    (answers : List FrameWrite) :
    Delivers (frame.getD []) waits answers (writeFrame frame setBlocking answers) := by
  unfold writeFrame
  cases frame with
  | none => exact (Arrives.refused _).delivers
  | some frame =>
      dsimp only
      split
      · exact (Arrives.refused _).delivers
      cases setBlocking with
      | error message => exact (Arrives.refused _).delivers
      | ok _ => exact (deliver_arrives (offer_counts frame) 0 (Nat.zero_le _) answers).delivers

end RescueFrame

end HccastWired.Pump
