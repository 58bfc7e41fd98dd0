import HccastWired.Foundation.PyValue

/-!
# The journal of the advanced helper

One record of the CPU policy transaction, of the boot trial and of the last
confirmed profile, and the checks it has to pass when it is loaded.
-/

namespace HccastWired.Advanced

open Foundation

def stockMhz : Int := 2400

def maxMhz : Int := 2700

def confirmSeconds : Number := .int 120

def maxTrialSeconds : Number := .int (4 * 60 * 60)

def governors : List String :=
  ["ondemand", "schedutil", "conservative", "powersave", "performance"]

/-- The two policy fields that are written. -/
structure CpuValues where
  governor : String
  maxKhz : Int
deriving DecidableEq

inductive CpuState
  | applying
  | applied
  | restored
deriving DecidableEq

structure Cpu where
  state : CpuState
  bootId : String
  baseline : CpuValues
  before : CpuValues
  target : CpuValues
deriving DecidableEq

inductive TrialState
  | staging
  | requested
  | active
  | confirmed
  | rollbackRequested
  | manualRecoveryRequired
  | restored
deriving DecidableEq

structure Trial where
  id : String
  state : TrialState
  originBootId : String
  mhz : Int
  baseline : String
  candidate : String
  configSha256 : String
  candidateSha256 : String
  platformId : String
  baselineBits : Int
  cleanupConflict : Option Bool
  requestedS : Option Number
  activeBootId : Option String
  startedS : Option Number
  deadlineS : Option Number
  reason : Option String
  rebootRequestedBootId : Option String
deriving DecidableEq

structure Profile where
  mhz : Int
  configSha256 : String
  platformId : String
  trialId : String
deriving DecidableEq

structure Record where
  cpu : Option Cpu
  trial : Option Trial
  profile : Option Profile
deriving DecidableEq

/-- `{"api_version": 1}`. -/
def Record.empty : Record :=
  ⟨none, none, none⟩

section Text

/-- `re.fullmatch(r"[A-Za-z0-9-]{1,64}", value)`. -/
def token (s : String) : Bool :=
  1 ≤ s.toList.length && s.toList.length ≤ 64 && s.toList.all fun c => c.isAlphanum || c = '-'

/-- `re.fullmatch(r"[a-f0-9]{64}", value)`. -/
def digest (s : String) : Bool :=
  s.toList.length = 64 && s.toList.all fun c => c ∈ Sha256.hexDigits

/-- `value.encode("ascii")`. -/
def encode (s : String) : Option Bytes :=
  Json.asciiBytes s.toList

def trialSuffix (mhz : Int) : List Char :=
  "\n# PanelBridge trial; normal config is unchanged\n[all]\narm_freq=".toList ++
    Json.dumpsInt mhz ++ ['\n']

/-- The whole alternate configuration of a trial. -/
def candidateOf (baseline : String) (mhz : Int) : String :=
  String.ofList (baseline.toList ++ trialSuffix mhz)

def CpuState.text : CpuState → String
  | applying => "applying"
  | applied => "applied"
  | restored => "restored"

def CpuState.ofText (text : String) : Option CpuState :=
  [applying, applied, restored].find? fun s => s.text = text

def TrialState.text : TrialState → String
  | staging => "staging"
  | requested => "requested"
  | active => "active"
  | confirmed => "confirmed"
  | rollbackRequested => "rollback_requested"
  | manualRecoveryRequired => "manual_recovery_required"
  | restored => "restored"

def TrialState.ofText (text : String) : Option TrialState :=
  [staging, requested, active, confirmed, rollbackRequested, manualRecoveryRequired, restored].find?
    fun s => s.text = text

theorem CpuState.ofText_text (s : CpuState) : ofText s.text = some s := by
  cases s <;> decide

theorem TrialState.ofText_text (s : TrialState) : ofText s.text = some s := by
  cases s <;> decide

end Text

section Save

def CpuValues.toDict (v : CpuValues) : PyValue :=
  .ofFields [("governor", some (.str v.governor)), ("max_khz", some (.int v.maxKhz))]

def Cpu.toDict (c : Cpu) : PyValue :=
  .ofFields [("baseline", some c.baseline.toDict), ("before", some c.before.toDict),
    ("boot_id", some (.str c.bootId)), ("state", some (.str c.state.text)),
    ("target", some c.target.toDict)]

/-- The dict, with its keys sorted. A field that no step has set is not there. -/
def Trial.fields (t : Trial) : List (String × Option PyValue) :=
  [("active_boot_id", t.activeBootId.map .str), ("baseline", some (.str t.baseline)),
    ("baseline_bits", some (.int t.baselineBits)), ("candidate", some (.str t.candidate)),
    ("candidate_sha256", some (.str t.candidateSha256)),
    ("cleanup_conflict", t.cleanupConflict.map .bool),
    ("config_sha256", some (.str t.configSha256)), ("deadline_s", t.deadlineS.map .number),
    ("id", some (.str t.id)), ("mhz", some (.int t.mhz)),
    ("origin_boot_id", some (.str t.originBootId)), ("platform_id", some (.str t.platformId)),
    ("reason", t.reason.map .str),
    ("reboot_requested_boot_id", t.rebootRequestedBootId.map .str),
    ("requested_s", t.requestedS.map .number), ("started_s", t.startedS.map .number),
    ("state", some (.str t.state.text))]

def Trial.toDict (t : Trial) : PyValue :=
  .ofFields t.fields

def Profile.toDict (p : Profile) : PyValue :=
  .ofFields [("config_sha256", some (.str p.configSha256)), ("mhz", some (.int p.mhz)),
    ("platform_id", some (.str p.platformId)), ("trial_id", some (.str p.trialId))]

def Record.toDict (r : Record) : PyValue :=
  .ofFields [("api_version", some (.int 1)), ("cpu", r.cpu.map Cpu.toDict),
    ("profile", r.profile.map Profile.toDict), ("trial", r.trial.map Trial.toDict)]

end Save

section Load

def CpuValues.ofDict (v : PyValue) : Option CpuValues :=
  if v.hasKeys ["governor", "max_khz"] then do
    let governor ← v.text "governor"
    let maxKhz ← v.integer "max_khz"
    some ⟨governor, maxKhz⟩
  else none

def CpuValues.valid (v : CpuValues) : Bool :=
  v.governor ∈ governors && 0 < v.maxKhz && v.maxKhz ≤ stockMhz * 1000

def Cpu.ofDict (v : PyValue) : Option Cpu := do
  let state ← (v.text "state").bind CpuState.ofText
  let bootId ← v.text "boot_id"
  let baseline ← (v.get "baseline").bind CpuValues.ofDict
  let before ← (v.get "before").bind CpuValues.ofDict
  let target ← (v.get "target").bind CpuValues.ofDict
  some ⟨state, bootId, baseline, before, target⟩

def Cpu.valid (c : Cpu) : Bool :=
  token c.bootId && c.baseline.valid && c.before.valid && c.target.valid

/-- `trial.get("cleanup_conflict", False)`, which has to be a `bool`. -/
def cleanupConflictOf (v : PyValue) : Option (Option Bool) :=
  match v.get "cleanup_conflict" with
  | none => some none
  | some (.bool b) => some (some b)
  | some _ => none

/-- The fields that a trial always has are required; any other counts if it has its type. -/
def Trial.ofDict (v : PyValue) : Option Trial := do
  let state ← (v.text "state").bind TrialState.ofText
  let id ← v.text "id"
  let originBootId ← v.text "origin_boot_id"
  let mhz ← v.integer "mhz"
  let baselineBits ← v.integer "baseline_bits"
  let platformId ← v.text "platform_id"
  let cleanupConflict ← cleanupConflictOf v
  let baseline ← v.text "baseline"
  let candidate ← v.text "candidate"
  let configSha256 ← v.text "config_sha256"
  let candidateSha256 ← v.text "candidate_sha256"
  some
    { id, state, originBootId, mhz, baseline, candidate, configSha256, candidateSha256, platformId,
      baselineBits, cleanupConflict
      requestedS := v.numeric "requested_s"
      activeBootId := v.text "active_boot_id"
      startedS := v.numeric "started_s"
      deadlineS := v.numeric "deadline_s"
      reason := v.text "reason"
      rebootRequestedBootId := v.text "reboot_requested_boot_id" }

/-- A time that was read from the clock. -/
def instant (x : Number) : Bool :=
  x.isFinite && (Number.int 0).le x

def Trial.texts (t : Trial) : Bool :=
  match encode t.baseline, encode t.candidate with
  | some baseline, some candidate =>
      baseline.length ≤ 65536 && Sha256.hexdigest baseline = t.configSha256 &&
        Sha256.hexdigest candidate = t.candidateSha256 &&
        t.candidate = candidateOf t.baseline t.mhz
  | _, _ => false

/-- The times of a trial that is running. -/
def Trial.running (t : Trial) : Bool :=
  match t.activeBootId, t.startedS, t.deadlineS with
  | some boot, some started, some deadline =>
      token boot && instant started && instant deadline &&
        deadline.eq (started.add confirmSeconds)
  | _, _, _ => false

def Trial.valid (t : Trial) : Bool :=
  token t.id && token t.originBootId && stockMhz < t.mhz && t.mhz ≤ maxMhz &&
    t.baselineBits = 0 && t.platformId ≠ "" && t.texts &&
    (t.state ≠ .requested || t.requestedS.any instant) &&
    (!(t.state = .active || t.state = .confirmed) || t.running)

def Profile.ofDict (v : PyValue) : Option Profile := do
  let mhz ← v.integer "mhz"
  let configSha256 ← v.text "config_sha256"
  let platformId ← v.text "platform_id"
  let trialId ← v.text "trial_id"
  some ⟨mhz, configSha256, platformId, trialId⟩

def Profile.valid (p : Profile) : Bool :=
  stockMhz < p.mhz && p.mhz ≤ maxMhz && digest p.configSha256 && token p.trialId &&
    p.platformId ≠ ""

def Record.valid (r : Record) : Bool :=
  r.cpu.all Cpu.valid && r.trial.all Trial.valid && r.profile.all Profile.valid

/-- A field that is missing, or has its shape. -/
def optionalField {α : Type} (v : PyValue) (key : String) (ofDict : PyValue → Option α) :
    Option (Option α) :=
  match v.get key with
  | none => some none
  | some w => (ofDict w).map some

def Record.ofDict (v : PyValue) : Option Record := do
  let cpu ← optionalField v "cpu" Cpu.ofDict
  let trial ← optionalField v "trial" Trial.ofDict
  let profile ← optionalField v "profile" Profile.ofDict
  some ⟨cpu, trial, profile⟩

end Load

section RoundTrip

theorem CpuValues.ofDict_toDict (v : CpuValues) : ofDict v.toDict = some v := by
  simp [ofDict, toDict, PyValue.hasKeys, PyValue.text, PyValue.integer, PyValue.get,
    PyValue.ofFields, List.lookup]

theorem Cpu.ofDict_toDict (c : Cpu) : ofDict c.toDict = some c := by
  simp [ofDict, toDict, PyValue.text, PyValue.get_ofFields, List.lookup, CpuState.ofText_text,
    CpuValues.ofDict_toDict]

theorem Profile.ofDict_toDict (p : Profile) : ofDict p.toDict = some p := by
  simp [ofDict, toDict, PyValue.text, PyValue.integer, PyValue.get_ofFields, List.lookup]

theorem text_map {v : PyValue} {key : String} {s : Option String}
    (h : v.get key = s.map .str) : v.text key = s := by
  rw [PyValue.text, h]
  cases s <;> rfl

theorem numeric_map {v : PyValue} {key : String} {x : Option Number}
    (h : v.get key = x.map .number) : v.numeric key = x := by
  rw [PyValue.numeric, h]
  cases x <;> rfl

theorem cleanupConflictOf_map {v : PyValue} {b : Option Bool}
    (h : v.get "cleanup_conflict" = b.map .bool) : cleanupConflictOf v = some b := by
  rw [cleanupConflictOf, h]
  cases b <;> rfl

theorem Trial.toDict_get (t : Trial) (key : String) :
    t.toDict.get key = (t.fields.lookup key).join :=
  PyValue.get_ofFields (by simp [fields])

theorem Trial.ofDict_toDict (t : Trial) : ofDict t.toDict = some t := by
  have hget := t.toDict_get
  have hconflict : cleanupConflictOf t.toDict = some t.cleanupConflict :=
    cleanupConflictOf_map (by rw [hget]; simp [fields, List.lookup])
  have hrequested : t.toDict.numeric "requested_s" = t.requestedS :=
    numeric_map (by rw [hget]; simp [fields, List.lookup])
  have hstarted : t.toDict.numeric "started_s" = t.startedS :=
    numeric_map (by rw [hget]; simp [fields, List.lookup])
  have hdeadline : t.toDict.numeric "deadline_s" = t.deadlineS :=
    numeric_map (by rw [hget]; simp [fields, List.lookup])
  have hactive : t.toDict.text "active_boot_id" = t.activeBootId :=
    text_map (by rw [hget]; simp [fields])
  have hreason : t.toDict.text "reason" = t.reason :=
    text_map (by rw [hget]; simp [fields, List.lookup])
  have hreboot : t.toDict.text "reboot_requested_boot_id" = t.rebootRequestedBootId :=
    text_map (by rw [hget]; simp [fields, List.lookup])
  simp only [ofDict, hconflict, hrequested, hstarted, hdeadline, hactive, hreason, hreboot]
  simp [PyValue.text, PyValue.integer, hget, fields, List.lookup, TrialState.ofText_text]

theorem optionalField_map {α : Type} {v : PyValue} {key : String} {toDict : α → PyValue}
    {ofDict : PyValue → Option α} {a : Option α} (h : v.get key = a.map toDict)
    (hback : ∀ a, ofDict (toDict a) = some a) : optionalField v key ofDict = some a := by
  rw [optionalField, h]
  cases a with
  | none => rfl
  | some a => simp [hback]

/-- What is saved is read back as the same record. -/
theorem Record.ofDict_toDict (r : Record) : ofDict r.toDict = some r := by
  have hget : ∀ key, r.toDict.get key = _ := fun key => PyValue.get_ofFields (by simp)
  have hcpu : optionalField r.toDict "cpu" Cpu.ofDict = some r.cpu :=
    optionalField_map (by rw [hget]; simp [List.lookup]) Cpu.ofDict_toDict
  have htrial : optionalField r.toDict "trial" Trial.ofDict = some r.trial :=
    optionalField_map (by rw [hget]; simp [List.lookup]) Trial.ofDict_toDict
  have hprofile : optionalField r.toDict "profile" Profile.ofDict = some r.profile :=
    optionalField_map (by rw [hget]; simp [List.lookup]) Profile.ofDict_toDict
  simp [ofDict, hcpu, htrial, hprofile]

theorem CpuValues.toDict_unique (v : CpuValues) : v.toDict.unique = true := by
  refine PyValue.ofFields_unique (by simp) ?_
  simp [PyValue.unique]

theorem Cpu.toDict_unique (c : Cpu) : c.toDict.unique = true := by
  refine PyValue.ofFields_unique (by simp) ?_
  simp [PyValue.unique, CpuValues.toDict_unique]

theorem Profile.toDict_unique (p : Profile) : p.toDict.unique = true := by
  refine PyValue.ofFields_unique (by simp) ?_
  simp [PyValue.unique]

theorem Trial.toDict_unique (t : Trial) : t.toDict.unique = true := by
  refine PyValue.ofFields_unique (by simp [fields]) ?_
  simp [fields, PyValue.unique]
  rintro v (⟨-, rfl⟩ | ⟨-, rfl⟩) <;> rfl

theorem Record.toDict_unique (r : Record) : r.toDict.unique = true := by
  refine PyValue.ofFields_unique (by simp) ?_
  simp [PyValue.unique, Cpu.toDict_unique, Trial.toDict_unique, Profile.toDict_unique]

end RoundTrip

end HccastWired.Advanced
