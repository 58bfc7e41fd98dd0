import HccastWired.Foundation.PyValue

/-!
# The receipt of the measured cohort

The object `local_frame_accounting` that the native worker prints and the
measurement reads, field by field. Its `version` and `scope` are constants.
-/

namespace HccastWired.Telemetry

open Foundation

/-- The boundaries between the probes, in pipeline order. -/
inductive Boundary
  | appsrc
  | sourceToRate
  | rateToScale
  | scale
  | scaleToConvert
  | convert
  | convertToQueue
  | queue
  | queueToEncoder
deriving DecidableEq, Repr

namespace Boundary

def all : List Boundary :=
  [appsrc, sourceToRate, rateToScale, scale, scaleToConvert, convert, convertToQueue, queue,
    queueToEncoder]

theorem mem_all (b : Boundary) : b ∈ all := by
  cases b <;> decide

theorem all_nodup : all.Nodup := by
  decide

instance : Fintype Boundary := ⟨⟨all, all_nodup⟩, mem_all⟩

/-- `boundary_names`. -/
def name : Boundary → String
  | appsrc => "appsrc"
  | sourceToRate => "source_to_rate"
  | rateToScale => "rate_to_scale"
  | scale => "scale"
  | scaleToConvert => "scale_to_convert"
  | convert => "convert"
  | convertToQueue => "convert_to_queue"
  | queue => "queue"
  | queueToEncoder => "queue_to_encoder"

end Boundary

/-- `encoder_sink_to_src_us`. -/
structure TimingReceipt where
  available : Bool
  ambiguous : Bool
  entered : Int
  exited : Int
  matched : Int
  invalid : Int
  unmatched : Int
  trackingEvicted : Int
  discontinuities : Int
  lastUs : Option Int
  maxUs : Option Int
  meanUs : Option Rat
  oldestPendingAgeUs : Option Int
deriving DecidableEq

/-- `local_frame_accounting`. -/
structure Cohort where
  enabled : Bool
  complete : Bool
  closed : Bool
  encoderSrcEosSeen : Bool
  encoderOutputKeyUnknown : Bool
  requestedWarmupUs : Int
  requestedDurationUs : Int
  invalidReason : Option String
  streamingUs : Option Int
  epoch : Option Int
  startedUs : Option Int
  endedUs : Option Int
  closedUs : Option Int
  sourceSeqFirst : Option Int
  sourceSeqEndExclusive : Option Int
  acceptedSourceFrames : Int
  rejectedSourceFrames : Int
  emittedWireFrames : Int
  rateSourceFramesDropped : Int
  rateFramesDuplicated : Int
  encodedFrames : Option Int
  timing : TimingReceipt
  boundaryFramesDropped : Boundary → Int
  pipelineFramesDropped : Option Int
deriving DecidableEq

namespace Cohort

/-- `sum(drops.values()) + rate_source_frames_dropped`. -/
def droppedTotal (c : Cohort) : Int :=
  (Boundary.all.map c.boundaryFramesDropped).sum + c.rateSourceFramesDropped

/-- The sources that reached the rate converter and survived it. -/
def survivingSource (c : Cohort) : Int :=
  c.acceptedSourceFrames - c.boundaryFramesDropped .appsrc - c.boundaryFramesDropped .sourceToRate -
    c.rateSourceFramesDropped

/-- The sequence range is present and as long as the accepted count. -/
def rangeMatches (c : Cohort) : Bool :=
  match c.sourceSeqFirst, c.sourceSeqEndExclusive with
  | some first, some last => decide (last - first = c.acceptedSourceFrames)
  | _, _ => false

/-- The counts of a complete cohort that `_cohort` refuses. -/
def countsInvalid (c : Cohort) : Bool :=
  decide (c.acceptedSourceFrames = 0) || decide (c.rejectedSourceFrames ≠ 0) || !c.rangeMatches ||
    decide (c.survivingSource < 0) ||
    (decide (c.survivingSource = 0) && decide (c.rateFramesDuplicated ≠ 0)) ||
    decide (c.pipelineFramesDropped ≠ some c.droppedTotal) ||
    decide (c.acceptedSourceFrames + c.rateFramesDuplicated ≠
      c.emittedWireFrames + c.droppedTotal) ||
    decide (c.timing.entered ≠ c.emittedWireFrames)

/-- The conditions that `countsInvalid` refuses the failure of. -/
structure CountsAgree (c : Cohort) : Prop where
  accepted : c.acceptedSourceFrames ≠ 0
  rejected : c.rejectedSourceFrames = 0
  range : ∃ first last, c.sourceSeqFirst = some first ∧ c.sourceSeqEndExclusive = some last ∧
    last - first = c.acceptedSourceFrames
  survivors : 0 ≤ c.survivingSource
  duplicated : c.survivingSource = 0 → c.rateFramesDuplicated = 0
  total : c.pipelineFramesDropped = some c.droppedTotal
  conserved : c.acceptedSourceFrames + c.rateFramesDuplicated =
    c.emittedWireFrames + c.droppedTotal
  entered : c.timing.entered = c.emittedWireFrames

theorem rangeMatches_iff {c : Cohort} : c.rangeMatches = true ↔
    ∃ first last, c.sourceSeqFirst = some first ∧ c.sourceSeqEndExclusive = some last ∧
      last - first = c.acceptedSourceFrames := by
  unfold rangeMatches
  cases c.sourceSeqFirst with
  | none => simp
  | some first => cases c.sourceSeqEndExclusive <;> simp

theorem countsInvalid_eq_false_iff {c : Cohort} : c.countsInvalid = false ↔ c.CountsAgree := by
  simp only [countsInvalid, Bool.or_eq_false_iff, Bool.and_eq_false_iff, decide_eq_false_iff_not,
    Bool.not_eq_false', not_not, not_lt, rangeMatches_iff]
  constructor
  · rintro ⟨⟨⟨⟨⟨⟨⟨haccepted, hrejected⟩, hrange⟩, hsurvivors⟩, hduplicated⟩, htotal⟩, hconserved⟩,
      hentered⟩
    exact ⟨haccepted, hrejected, hrange, hsurvivors,
      fun hzero => hduplicated.resolve_left fun hne => hne hzero, htotal, hconserved, hentered⟩
  · rintro ⟨haccepted, hrejected, hrange, hsurvivors, hduplicated, htotal, hconserved, hentered⟩
    refine ⟨⟨⟨⟨⟨⟨⟨haccepted, hrejected⟩, hrange⟩, hsurvivors⟩, ?_⟩, htotal⟩, hconserved⟩, hentered⟩
    by_cases hzero : c.survivingSource = 0
    · exact Or.inr (hduplicated hzero)
    · exact Or.inl hzero

end Cohort

end HccastWired.Telemetry
