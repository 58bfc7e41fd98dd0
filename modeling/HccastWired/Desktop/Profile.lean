import HccastWired.Foundation.PyValue

/-!
# Display profiles

A profile is a record that has passed its own checks, so that a saved one is
accepted when it is loaded again.
-/

namespace HccastWired.Desktop

open Foundation

structure ProfileFields where
  sourceWidth : Int
  sourceHeight : Int
  contentFps : Int
  wireWidth : Int
  wireHeight : Int
  wireFps : Int
  bitrateKbps : Int
  scale : Number
  rotation : Int
deriving DecidableEq

/-- What a check raises: `ValueError`, or the `OverflowError` of an integer that is too
large for a `float`. -/
inductive CheckError
  | value (message : Message)
  | overflow
deriving DecidableEq

/-- `str(error)`. -/
def CheckError.text : CheckError → String
  | value message => message
  | overflow => "int too large to convert to float"

/-- Modes are looked up in the list of the supported ones. -/
instance lawfulBEq_mode : LawfulBEq (Int × Int × Int) := inferInstance

namespace ProfileFields

def resolutions : List (Int × Int) :=
  [(640, 360), (960, 540), (1280, 720), (1920, 1080)]

def wireModes : List (Int × Int × Int) :=
  [(1280, 720, 30), (1920, 1080, 30)]

def scales : List Rat :=
  [1, 5 / 4, 3 / 2, 2]

/-- `__post_init__`, after the checks of the types. -/
def check (p : ProfileFields) : Except CheckError Unit := do
  if (p.sourceWidth, p.sourceHeight) ∉ resolutions then
    throw (.value ⟨"Choose a supported 16:9 desktop resolution", by decide⟩)
  if p.contentFps ∉ [5, 10, 15, 24, 30] then
    throw (.value ⟨"Content frame rate must be 5, 10, 15, 24 or 30", by decide⟩)
  if (p.wireWidth, p.wireHeight, p.wireFps) ∉ wireModes then
    throw (.value ⟨"Requested receiver mode must be 720p30 or 1080p30", by decide⟩)
  if ¬ (512 ≤ p.bitrateKbps ∧ p.bitrateKbps ≤ 8000) then
    throw (.value ⟨"Bitrate must be between 512 and 8000 kb/s", by decide⟩)
  -- `math.isfinite` needs the scale as a `float`
  if p.scale.overflows then throw .overflow
  if ¬ p.scale.toRat.any (· ∈ scales) then
    throw (.value ⟨"Scale must be 1, 1.25, 1.5 or 2", by decide⟩)
  if p.rotation ∉ [0, 90, 180, 270] then
    throw (.value ⟨"Rotation must be 0, 90, 180 or 270 degrees", by decide⟩)

def valid (p : ProfileFields) : Bool :=
  p.check.isOk

def toDict (p : ProfileFields) : PyValue :=
  .dict [("source_width", .int p.sourceWidth), ("source_height", .int p.sourceHeight),
    ("content_fps", .int p.contentFps), ("wire_width", .int p.wireWidth),
    ("wire_height", .int p.wireHeight), ("wire_fps", .int p.wireFps),
    ("bitrate_kbps", .int p.bitrateKbps), ("scale", .number p.scale), ("rotation", .int p.rotation)]

end ProfileFields

abbrev Profile := { p : ProfileFields // p.valid = true }

namespace Profile

/-- `Profile()`. -/
def default : Profile :=
  ⟨⟨1280, 720, 30, 1280, 720, 30, 4096, .float 2, 0⟩, by decide +kernel⟩

def names : List String :=
  ["source_width", "source_height", "content_fps", "wire_width", "wire_height", "wire_fps",
    "bitrate_kbps", "scale", "rotation"]

/-- A field whose type has to be `int`. -/
def integer (value : PyValue) (name : String) : Except CheckError Int :=
  match value.get name with
  | some (.number (.int n)) => .ok n
  | _ => .error (.value ⟨name ++ " must be an integer", by simp [String.append_eq_empty_iff]⟩)

/-- A scale that is no number fails the same check as one that is not finite. -/
def scaleOf (value : PyValue) : Number :=
  match value.get "scale" with
  | some (.number x) => x
  | _ => .nan

def ofFields (p : ProfileFields) : Except CheckError Profile :=
  match h : p.check with
  | .ok _ => .ok ⟨p, by rw [ProfileFields.valid, h]; rfl⟩
  | .error e => .error e

def fromDict (value : PyValue) : Except CheckError Profile := do
  if ¬ value.hasKeys names then
    throw (.value ⟨"A complete profile with only supported fields is required", by decide⟩)
  let sourceWidth ← integer value "source_width"
  let sourceHeight ← integer value "source_height"
  let contentFps ← integer value "content_fps"
  let wireWidth ← integer value "wire_width"
  let wireHeight ← integer value "wire_height"
  let wireFps ← integer value "wire_fps"
  let bitrateKbps ← integer value "bitrate_kbps"
  let rotation ← integer value "rotation"
  ofFields ⟨sourceWidth, sourceHeight, contentFps, wireWidth, wireHeight, wireFps, bitrateKbps,
    scaleOf value, rotation⟩

def toDict (p : Profile) : PyValue :=
  p.1.toDict

theorem ofFields_val (p : Profile) : ofFields p.1 = .ok p := by
  have hok : p.1.check.isOk = true := p.2
  unfold ofFields
  split
  · rfl
  · next e he =>
      rw [he] at hok
      cases hok

/-- A saved profile loads as itself. -/
theorem fromDict_toDict (p : Profile) : fromDict p.toDict = .ok p := by
  rw [← ofFields_val p]
  rfl

theorem toDict_unique (p : Profile) : p.toDict.unique = true := by
  simp [toDict, ProfileFields.toDict, PyValue.unique, PyValue.uniqueFields]

theorem printable_int {n : Int} (h : n.natAbs ≤ 8000) : (Number.int n).printable = true := by
  have hpow : 10 ^ 4 ≤ 10 ^ Number.maxDigits := Nat.pow_le_pow_right (by decide) (by decide)
  simp only [Number.printable, decide_eq_true_eq]
  omega

theorem printable_scale {x : Number} (h : x.toRat.any (· ∈ ProfileFields.scales) = true) :
    x.printable = true := by
  cases x with
  | int n =>
      have hmem : (n : Rat) ∈ ProfileFields.scales := by simpa [Number.toRat] using h
      have hbounds : (0 : Rat) ≤ n ∧ (n : Rat) ≤ 2 := by
        simp only [ProfileFields.scales, List.mem_cons, List.not_mem_nil, or_false] at hmem
        rcases hmem with hn | hn | hn | hn <;> rw [hn] <;> constructor <;> norm_num
      have hzero : (0 : Int) ≤ n := by exact_mod_cast hbounds.1
      have htwo : n ≤ 2 := by exact_mod_cast hbounds.2
      exact printable_int (by omega)
  | float q => rfl
  | infinite negative => cases h
  | nan => cases h

/-- Every number of a profile has a decimal text. -/
theorem check_printable {p : ProfileFields} (h : p.check = .ok ()) : p.toDict.printable = true := by
  simp only [ProfileFields.check, bind, Except.bind, pure, Except.pure, throw, throwThe,
    MonadExceptOf.throw] at h
  repeat' split at h
  all_goals cases h
  rename_i hresolution hfps hwire hbitrate _ hscale hrotation
  simp only [Decidable.not_not, ProfileFields.resolutions, ProfileFields.wireModes, List.mem_cons,
    List.not_mem_nil, or_false, Prod.mk.injEq] at hresolution hfps hwire hbitrate hrotation hscale
  simp only [ProfileFields.toDict, PyValue.printable, PyValue.printableFields, Bool.and_true,
    Bool.and_eq_true]
  exact ⟨printable_int (by omega), printable_int (by omega), printable_int (by omega),
    printable_int (by omega), printable_int (by omega), printable_int (by omega),
    printable_int (by omega), printable_scale hscale, printable_int (by omega)⟩

theorem toDict_printable (p : Profile) : p.toDict.printable = true := by
  have hok : p.1.check.isOk = true := p.2
  cases hcheck : p.1.check with
  | ok _ => exact check_printable hcheck
  | error e =>
      rw [hcheck] at hok
      cases hok

end Profile

end HccastWired.Desktop
