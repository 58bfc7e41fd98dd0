import HccastWired.Foundation.Base64
import HccastWired.Foundation.Delivery

/-!
# The writers of the USB transports

Both cut their data into chunks and count what the endpoint took. What the kernel
and the USB library answer is a list; a call that raises may have taken bytes.
-/

namespace HccastWired.Pump

open Foundation

inductive PumpError
  | functionFs (message : String)
  | transport (message : String)
deriving DecidableEq, Repr

/-- `view[start : stop]`, with a start inside the data. -/
def viewSlice (data : Bytes) (start : Nat) (stop : Int) : Bytes :=
  let stop := if stop < 0 then stop + data.length else stop
  (data.take stop.toNat).drop start

theorem viewSlice_prefix (data : Bytes) (start : Nat) (stop : Int) :
    viewSlice data start stop <+: data.drop start := by
  unfold viewSlice
  dsimp only
  rw [List.drop_take]
  exact List.take_prefix _ _

/-- What `os.write` does: it takes bytes and returns their number, would block, or
raises. -/
inductive OsWrite
  | count (written : Nat)
  | blockingIOError (message : String)
  | osError (taken : Nat) (message : String)
deriving DecidableEq, Repr

structure FunctionFsTransport where
  inFd : Option Nat
  writeChunk : Int
deriving DecidableEq, Repr

namespace FunctionFsTransport

/-- The body of the loop. -/
def offer (_ : Nat) (chunk : Bytes) : OsWrite → Bytes × Verdict PumpError
  | .count written =>
      taking chunk written (.functionFs "FunctionFS bulk IN write made no progress")
  | .blockingIOError message =>
      ([], .fail (.functionFs ("FunctionFS bulk IN write failed: " ++ message)))
  | .osError taken message =>
      (chunk.take taken, .fail (.functionFs ("FunctionFS bulk IN write failed: " ++ message)))

def write (t : FunctionFsTransport) (data : Bytes) (answers : List OsWrite) :
    Delivery UInt8 PumpError OsWrite :=
  match t.inFd with
  | none => ⟨[], answers, .raised (.functionFs "FunctionFS transport is closed")⟩
  | some _ =>
      deliver data (fun offset => viewSlice data offset (offset + t.writeChunk)) offer 0 answers

/-- No answer of the kernel makes the writer wait. -/
theorem offer_counts (data : Bytes) (writeChunk : Int) :
    Counts data (fun offset => viewSlice data offset (offset + writeChunk)) offer
      (fun _ => false) := by
  constructor
  · exact fun offset _ => viewSlice_prefix data offset _
  · intro offset chunk answer
    cases answer with
    | count written => exact counted_taking _ _ _ _
    | blockingIOError message => exact counted_none _ _ _
    | osError taken message => exact counted_fail _ _ _ _

theorem write_delivers (t : FunctionFsTransport) (data : Bytes) (answers : List OsWrite) :
    Delivers data (fun _ => false) answers (t.write data answers) := by
  unfold write
  cases t.inFd with
  | none => exact (Arrives.refused _).delivers
  | some fd =>
      exact (deliver_arrives (offer_counts data t.writeChunk) 0 (Nat.zero_le _) answers).delivers

end FunctionFsTransport

/-- What a write to a bulk endpoint does. -/
inductive BulkWrite
  | count (written : Nat)
  | none
  | exception (taken : Nat) (message : String)
deriving DecidableEq, Repr

/-- The endpoint as far as the writer reads it. -/
structure BulkOut where
  wMaxPacketSize : Option Int
deriving DecidableEq, Repr

structure HostUsbTransport where
  epOut : Option BulkOut
  writeChunk : Int
deriving DecidableEq, Repr

namespace HostUsbTransport

/-- The error of an offer that raised. -/
def failedAt (offset : Nat) (message : String) : PumpError :=
  .transport ("USB bulk OUT failed at offset " ++ toString offset ++ ": " ++ message)

/-- The body of the loop; `int(None)` raises like the write. -/
def offer (offset : Nat) (chunk : Bytes) : BulkWrite → Bytes × Verdict PumpError
  | .count written => taking chunk written (.transport "USB bulk OUT made no progress")
  | .none =>
      ([], .fail (failedAt offset ("int() argument must be a string, a bytes-like object or a " ++
        "real number, not 'NoneType'")))
  | .exception taken message => (chunk.take taken, .fail (failedAt offset message))

/-- An empty packet ends data of whole packets. -/
def wantsEmptyPacket (endpoint : BulkOut) (data : Bytes) : Bool :=
  let maxPacket := endpoint.wMaxPacketSize.getD 512
  decide (data ≠ []) && decide (maxPacket ≠ 0) && decide ((data.length : Int) % maxPacket = 0)

/-- The empty packet; what is raised there is logged. -/
def writeEmptyPacket (d : Delivery UInt8 PumpError BulkWrite) : Delivery UInt8 PumpError BulkWrite :=
  match d.left with
  | [] => { d with outcome := .pending }
  | _ :: rest => { d with left := rest }

def write (t : HostUsbTransport) (data : Bytes) (answers : List BulkWrite) :
    Delivery UInt8 PumpError BulkWrite :=
  match t.epOut with
  | none => ⟨[], answers, .raised (.transport "USB transport is closed")⟩
  | some endpoint =>
      let d :=
        deliver data (fun offset => viewSlice data offset (offset + t.writeChunk)) offer 0 answers
      match d.outcome with
      | .returned () => if wantsEmptyPacket endpoint data then writeEmptyPacket d else d
      | _ => d

theorem offer_counts (data : Bytes) (writeChunk : Int) :
    Counts data (fun offset => viewSlice data offset (offset + writeChunk)) offer
      (fun _ => false) := by
  constructor
  · exact fun offset _ => viewSlice_prefix data offset _
  · intro offset chunk answer
    cases answer with
    | count written => exact counted_taking _ _ _ _
    | none => exact counted_none _ _ _
    | exception taken message => exact counted_fail _ _ _ _

/-- The empty packet is one more answer, and no byte. -/
theorem writeEmptyPacket_delivers {data : Bytes} {answers : List BulkWrite}
    {d : Delivery UInt8 PumpError BulkWrite} (h : Arrives data (fun _ => false) answers d)
    (hreturned : d.outcome = .returned ()) :
    Delivers data (fun _ => false) answers (writeEmptyPacket d) := by
  have hprogress := h.progress (Or.inl hreturned)
  have hcomplete := h.complete hreturned
  unfold writeEmptyPacket
  split
  next hnone =>
    refine ⟨h.in_order, fun _ => hcomplete, fun _ => ?_⟩
    rw [hnone, List.length_nil, Nat.zero_add] at hprogress
    exact hprogress
  next rest _ =>
    refine ⟨h.in_order, fun _ => hcomplete, ?_⟩
    intro hpending
    rw [show Delivery.outcome _ = d.outcome from rfl, hreturned] at hpending
    cases hpending

theorem write_delivers (t : HostUsbTransport) (data : Bytes) (answers : List BulkWrite) :
    Delivers data (fun _ => false) answers (t.write data answers) := by
  unfold write
  cases t.epOut with
  | none => exact (Arrives.refused _).delivers
  | some endpoint =>
      have harrives := deliver_arrives (offer_counts data t.writeChunk) 0 (Nat.zero_le _) answers
      dsimp only
      split
      next hreturned =>
        split
        · exact writeEmptyPacket_delivers harrives hreturned
        · exact harrives.delivers
      · exact harrives.delivers

end HostUsbTransport

end HccastWired.Pump
