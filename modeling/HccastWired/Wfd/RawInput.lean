import HccastWired.Foundation.System
import HccastWired.Telemetry.CohortProbes

/-!
# Raw frames from the pipe

The streaming thread asks for data; each call reads one frame from the pipe, in pieces,
and pushes it. The main loop can stop the worker between any two steps of a call.
-/

namespace HccastWired.Wfd

open Foundation Telemetry

/-- The size of a frame, within the bounds that `main` checks. -/
structure Geometry where
  width : Nat
  height : Nat
  width_bounds : 16 ≤ width ∧ width ≤ 1920
  height_bounds : 16 ≤ height ∧ height ≤ 1080

/-- The bytes of one frame; the product fits a `gsize`. -/
def Geometry.size (g : Geometry) : Nat := g.width * g.height * 4

theorem Geometry.size_pos (g : Geometry) : 0 < g.size := by
  obtain ⟨hwidth, -⟩ := g.width_bounds
  obtain ⟨hheight, -⟩ := g.height_bounds
  have := Nat.mul_pos (Nat.lt_of_lt_of_le (by decide) hwidth) (Nat.lt_of_lt_of_le (by decide) hheight)
  exact Nat.mul_pos this (by decide)

/-- The bytes that will come out of the pipe, and how many have. -/
structure Pipe where
  byte : Nat → UInt8
  taken : Nat

def slice (byte : Nat → UInt8) (position length : Nat) : List UInt8 :=
  (List.range length).map fun i => byte (position + i)

theorem slice_append (byte : Nat → UInt8) (position m n : Nat) :
    slice byte position m ++ slice byte (position + m) n = slice byte position (m + n) := by
  unfold slice
  rw [List.range_add, List.map_append, List.map_map]
  congr 1
  apply List.map_congr_left
  intro i _
  simp [Nat.add_assoc]

@[simp] theorem length_slice (byte : Nat → UInt8) (position length : Nat) :
    (slice byte position length).length = length := by
  simp [slice]

def Pipe.read (p : Pipe) (amount : Nat) : List UInt8 × Pipe :=
  (slice p.byte p.taken amount, { p with taken := p.taken + amount })

inductive PollResult
  | interrupted
  | timeout
  | failed
  | ready (errorOrInvalid : Bool)
deriving DecidableEq

inductive ReadResult
  | again
  | failed
  | endOfFile
  | bytes (amount : Nat)
deriving DecidableEq

inductive Flow
  | ok
  | flushing
  | other
deriving DecidableEq

/-- Where a call of `raw_need_data` is, with what it has read of its frame. -/
inductive Pc
  | idle
  | looping (frame : List UInt8)
  | polling (frame : List UInt8)
  | reading (frame : List UInt8)
  | unmapped (frame : List UInt8)
  | cutShort
  | beginning (frame : List UInt8)
  | windowEnded
  | pushing (sequence : UInt64) (frame : List UInt8)
  | pushed (sequence : UInt64) (flow : Flow)
  | answered (flow : Flow)
deriving DecidableEq

/-- A buffer in `appsrc`, with the position in the pipe of its first byte. -/
structure Pushed where
  position : Nat
  bytes : List UInt8
deriving DecidableEq

/-- The fields of the worker that the call uses; `cut` is set when the input itself has cut
a frame short. -/
structure RawInput where
  pipe : Pipe
  metrics : Metrics
  pc : Pc := .idle
  stopping : Bool := false
  inputFailed : Nat := 0
  calibrationEos : Nat := 0
  rawPushed : UInt64 := 0
  failureSources : Nat := 0
  pushes : List Pushed := []
  cut : Bool := false

/-- What the streaming thread does next with what it is told, or what others do meanwhile. -/
inductive Action
  | need (allocated : Bool)
  | test
  | poll (result : PollResult)
  | read (result : ReadResult)
  | finishLoop
  | reportCut
  | rawBegin (nowUs : UInt64) (stamped : Bool)
  | endWindow
  | push (flow : Flow)
  | rawResult
  | report
  | inputFailure
  | stop
  | calibrationProgress
  | probe (nowUs : UInt64) (call : ProbeCall)
deriving DecidableEq

/-- The sequence that `pb_wfd_telemetry_raw_begin` returns, if it returns true. -/
def admits (c : CohortMetrics) (nowUs : UInt64) : Option UInt64 :=
  if !c.enabled then some 0
  else
    match (c.clock.cohortAdmit nowUs).2 with
    | .eos => none
    | .cohort => some c.nextSequence
    | .warmup => some c.nextSequence

/-- The calls that the other threads make. -/
def elsewhere : ProbeCall → Bool
  | .rawBegin _ => false
  | .rawResult _ _ => false
  | _ => true

namespace RawInput

/-- The input has failed for the first time: the failure is queued for the main loop. -/
def fail (w : RawInput) (reason : Nat) : RawInput :=
  if w.inputFailed = 0 then
    { w with inputFailed := reason, failureSources := w.failureSources + 1 }
  else w

/-- The start of a call. -/
def need (w : RawInput) (allocated : Bool) : RawInput :=
  if w.calibrationEos ≠ 0 then w
  else if allocated then { w with pc := .looping [] }
  else w.fail 1

/-- The loop is left by the input. -/
def leave (w : RawInput) (frame : List UInt8) : RawInput :=
  { w with pc := .unmapped frame, cut := w.cut || decide (frame ≠ []) }

def afterPoll (w : RawInput) (frame : List UInt8) : PollResult → RawInput
  | .interrupted => { w with pc := .looping frame }
  | .timeout => { w with pc := .looping frame }
  | .failed => w.leave frame
  | .ready true => w.leave frame
  | .ready false => { w with pc := .reading frame }

/-- `read` gives no more than was asked for. -/
def afterRead (w : RawInput) (size : Nat) (frame : List UInt8) : ReadResult → Option RawInput
  | .again => some { w with pc := .looping frame }
  | .failed => some (w.leave frame)
  | .endOfFile => some (w.leave frame)
  | .bytes amount =>
      if 0 < amount ∧ amount ≤ size - frame.length then
        some { w with
          pipe := (w.pipe.read amount).2, pc := .looping (frame ++ (w.pipe.read amount).1) }
      else none

/-- The end of a call. -/
def answer (w : RawInput) : Flow → RawInput
  | .ok => { w with pc := .idle, rawPushed := w.rawPushed + 1 }
  | .flushing => { w with pc := .idle }
  | .other => if w.stopping then { w with pc := .idle } else { w.fail 2 with pc := .idle }

/-- One step; `none` when the call is not there. -/
def step (g : Geometry) (w : RawInput) : Action → Option RawInput
  | .need allocated => if w.pc = .idle then some (w.need allocated) else none
  | .test =>
      match w.pc with
      | .looping frame =>
          if frame.length < g.size ∧ w.stopping = false then some { w with pc := .polling frame }
          else some { w with pc := .unmapped frame }
      | _ => none
  | .poll result =>
      match w.pc with
      | .polling frame => some (w.afterPoll frame result)
      | _ => none
  | .read result =>
      match w.pc with
      | .reading frame => w.afterRead g.size frame result
      | _ => none
  | .finishLoop =>
      match w.pc with
      | .unmapped frame =>
          if frame.length ≠ g.size ∨ w.stopping = true then some { w with pc := .cutShort }
          else some { w with pc := .beginning frame }
      | _ => none
  | .reportCut =>
      if w.pc = .cutShort then
        if w.stopping then some { w with pc := .idle } else some { w.fail 1 with pc := .idle }
      else none
  | .rawBegin nowUs stamped =>
      match w.pc with
      | .beginning frame =>
          let metrics := w.metrics.call nowUs (.rawBegin stamped)
          match admits w.metrics.cohort nowUs with
          | some sequence => some { w with metrics, pc := .pushing sequence frame }
          | none => some { w with metrics, pc := .windowEnded }
      | _ => none
  | .endWindow =>
      if w.pc = .windowEnded then some { w with calibrationEos := 1, pc := .idle } else none
  | .push flow =>
      match w.pc with
      | .pushing sequence frame =>
          some { w with
            pushes := w.pushes ++ [⟨w.pipe.taken - frame.length, frame⟩]
            pc := .pushed sequence flow }
      | _ => none
  | .rawResult =>
      match w.pc with
      | .pushed sequence flow =>
          some { w with
            metrics := w.metrics.call 0 (.rawResult sequence (decide (flow = .ok)))
            pc := .answered flow }
      | _ => none
  | .report =>
      match w.pc with
      | .answered flow => some (w.answer flow)
      | _ => none
  | .inputFailure =>
      if w.failureSources = 0 then none
      else some { w with failureSources := w.failureSources - 1, stopping := true }
  | .stop => some { w with stopping := true }
  | .calibrationProgress =>
      some (if w.calibrationEos = 1 then { w with calibrationEos := 2 } else w)
  | .probe nowUs call =>
      if elsewhere call then some { w with metrics := w.metrics.call nowUs call } else none

end RawInput

/-- The call and everything that goes on beside it. -/
def rawSystem (g : Geometry) : System RawInput Action where
  step := RawInput.step g

end HccastWired.Wfd
