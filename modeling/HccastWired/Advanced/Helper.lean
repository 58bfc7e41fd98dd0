import HccastWired.Advanced.World

/-!
# The advanced helper

CPU policy transactions and boot trials. A record is changed in memory and then
saved; every operation runs under the transaction's lock.
-/

namespace HccastWired.Advanced

open Foundation

variable (enc : Encoding)

section Config

def safeMode : String :=
  "PANELBRIDGE_SAFE_MODE"

def baselineName : String :=
  "PANELBRIDGE_BASELINE.txt"

def alternateAssets : List String :=
  ["autoboot.txt", "boot.img", "tryboot.img", "boot.sig", "tryboot.sig"]

def unsupportedLayout (message : String) : AdvancedError :=
  .helper "UnsupportedLayout" message

/-- The verified simple layout without secure boot. -/
def BootFacts.simple (f : BootFacts) : Bool :=
  f.layoutVerified && f.secureBoot = some false && f.bootRamdisk = some false &&
    f.abBoot = some false

/-- `str.splitlines` of an ASCII text. -/
def splitlines (text : List Char) : List (List Char) :=
  text.splitOnP fun c => c ∈ ['\n', '\r', '\x0b', '\x0c', '\x1c', '\x1d', '\x1e']

def isSpace (c : Char) : Bool :=
  c ∈ [' ', '\t', '\n', '\r', '\x0b', '\x0c', '\x1c', '\x1d', '\x1e', '\x1f']

def strip (text : List Char) : List Char :=
  ((text.dropWhile isSpace).reverse.dropWhile isSpace).reverse

/-- The part before the first separator. -/
def before (separator : Char) (text : List Char) : List Char :=
  text.takeWhile (· ≠ separator)

def forbidden : List String :=
  ["over_voltage", "force_turbo", "temp_", "sdram_", "gpu_", "core_freq", "h264_freq", "isp_freq",
    "v3d_freq", "hevc_freq", "program_", "otp", "boot_ramdisk", "tryboot", "boot_partition",
    "os_prefix", "arm_freq_min", "initial_turbo", "kernel_watchdog", "set_reboot", "eeprom",
    "erase_eeprom"]

/-- A line that is not an unsupported trial or tuning directive. -/
def supportedLine (line : List Char) : Bool :=
  let line := (strip (before '#' line)).map Char.toLower
  let key := strip (before '=' line)
  !("include".toList.isPrefixOf line || forbidden.any (fun f => f.toList.isPrefixOf key) ||
    ["[tryboot", "[partition", "[boot_partition"].any (fun f => f.toList.isPrefixOf line) ||
    (key = "arm_freq".toList && line ≠ "arm_freq=2400".toList) || '\x00' ∈ line)

def supportedConfig (text : List Char) : Bool :=
  (splitlines text).all supportedLine

def noAssets : List String → HelperCall Unit
  | [] => pure ()
  | name :: rest => do
      let asset ← bootRead name
      if asset.isSome then
        throw (unsupportedLayout "Existing alternate boot assets require a separate recovery design")
      noAssets rest

/-- `_config`: the normal configuration, as bytes and as text. -/
def config (facts : BootFacts) : HelperCall (Bytes × List Char) := do
  if ¬ facts.simple then
    throw (unsupportedLayout "Verified simple non-secure boot layout is required")
  noAssets alternateAssets
  let raw ← bootRead "config.txt"
  match raw with
  | none => throw (unsupportedLayout "Normal boot configuration is missing or too large")
  | some raw =>
      if 65536 < raw.length then
        throw (unsupportedLayout "Normal boot configuration is missing or too large")
      else match Json.asciiText raw with
        | none => throw (unsupportedLayout "Only plain ASCII boot configuration is supported")
        | some text =>
            if supportedConfig text then pure (raw, text)
            else throw (unsupportedLayout
              "Boot configuration contains unsupported trial or tuning directives")

/-- `except (HelperError, OSError)` around a step that answers otherwise. -/
def orElse {α : Type} (x : HelperCall α) (a : α) : HelperCall α :=
  tryCatch x fun e => if e.caught then pure a else throw e

/-- `_matches`. -/
def fileMatches (name : String) (expected : Option Bytes) : HelperCall Bool :=
  orElse (do
    let content ← bootRead name
    pure (content = expected)) false

/-- `_normal_baseline_verified`. -/
def normalBaselineVerified (facts : BootFacts) (trial : Trial) : HelperCall Bool := do
  let ok ←
    if facts.platformId ≠ trial.platformId then pure false
    else orElse (do
      let (raw, _) ← config facts
      pure (some raw = encode trial.baseline)) false
  note (.verified ok)
  pure ok

end Config

section Result

structure TrialResult where
  state : TrialState
  trialId : Option String
  mhz : Option Int
  reason : Option String
  normalRebootRequired : Bool
  manualRecoveryRequired : Bool
  cleanupConflict : Bool

/-- `record.get("trial", {}).get("state", "restored")`. -/
def Record.trialState (r : Record) : TrialState :=
  (r.trial.map Trial.state).getD .restored

def Record.cpuState (r : Record) : CpuState :=
  (r.cpu.map Cpu.state).getD .restored

def Record.withTrial (r : Record) (t : Trial) : Record :=
  { r with trial := some t }

/-- The trial in another state, and why. -/
def Trial.retreat (t : Trial) (state : TrialState) (reason : String) : Trial :=
  { t with state := state, reason := some reason }

def result (r : Record) : TrialResult where
  state := r.trialState
  trialId := r.trial.map Trial.id
  mhz := r.trial.map Trial.mhz
  reason := r.trial.bind Trial.reason
  normalRebootRequired := r.trialState = .rollbackRequested
  manualRecoveryRequired := r.trialState = .manualRecoveryRequired
  cleanupConflict := (r.trial.bind Trial.cleanupConflict).getD false

end Result

section Cpu

/-- Every field holds a value that the transaction knows. -/
def Cpu.knows (c : Cpu) (current : CpuValues) : Bool :=
  [CpuField.governor, .maxKhz].all fun field =>
    current.at field ∈ [c.before.at field, c.target.at field, c.baseline.at field]

def Record.cpuRestored (r : Record) (c : Cpu) : Record :=
  { r with cpu := some { c with state := .restored } }

/-- `_restore_cpu`; the record as it leaves it. -/
def restoreCpuIn (r : Record) : HelperCall Record :=
  match r.cpu with
  | none => pure r
  | some cpu =>
      if cpu.state = .restored then pure r
      else do
        let facts ← observe
        -- runtime values do not survive a reboot
        if facts.bootId ≠ cpu.bootId then do
          save enc (r.cpuRestored cpu)
          pure (r.cpuRestored cpu)
        else do
          let current ← cpuSnapshot
          let current ← Call.ofExcept (cpuValues current)
          if ¬ cpu.knows current then
            throw (.helper "Conflict" "CPU policy changed outside the app; preserving current values")
          if current.maxKhz ≠ cpu.baseline.maxKhz then writeCpu .maxKhz cpu.baseline
          if current.governor ≠ cpu.baseline.governor then writeCpu .governor cpu.baseline
          let restored ← cpuSnapshot
          let restored ← Call.ofExcept (cpuValues restored)
          if restored ≠ cpu.baseline then
            throw (.helper "CPUVerifyFailed" "CPU baseline restoration did not read back correctly")
          save enc (r.cpuRestored cpu)
          pure (r.cpuRestored cpu)

def unavailable : AdvancedError :=
  .helper "Unavailable" "CPU tuning requires a normal stock boot outside safe mode"

/-- The first policy of the boot is kept through repeated settings. -/
def cpuBaseline (old : Option Cpu) (facts : BootFacts) (current : CpuValues) :
    Except AdvancedError CpuValues :=
  match old with
  | none => .ok current
  | some old =>
      if old.state ≠ .restored ∧ old.bootId = facts.bootId then
        if old.state ≠ .applied ∨ current ≠ old.target then
          .error (.helper "Conflict"
            "Restore the pending or externally changed CPU transaction first")
        else .ok old.baseline
      else .ok current

/-- The requested policy, if the snapshot offers it. -/
def cpuTarget (snapshot : CpuSnapshot) : Option String → Option Int → Option CpuValues
  | some governor, some capMhz =>
      if governor ∈ governors ∧ governor ∈ snapshot.limits.governors ∧
          snapshot.limits.minKhz ≤ capMhz * 1000 ∧
          capMhz * 1000 ≤ snapshot.limits.hardwareMaxKhz then some ⟨governor, capMhz * 1000⟩
      else none
  | _, _ => none

/-- Write the target and read it back. -/
def applyCpu (cpu : Cpu) : HelperCall Unit := do
  writeCpu .maxKhz cpu.target
  writeCpu .governor cpu.target
  let applied ← cpuSnapshot
  let applied ← Call.ofExcept (cpuValues applied)
  if applied ≠ cpu.target then
    throw (.helper "CPUVerifyFailed" "CPU settings did not read back correctly")

/-- `set_cpu`. -/
def setCpu (governor : Option String) (capMhz : Option Int) : HelperCall CpuValues := do
  let facts ← observe
  let r ← load enc
  if facts.tryboot ∨ facts.configuredMhz ≠ stockMhz then throw unavailable
  let safe ← bootRead safeMode
  if safe.isSome then throw unavailable
  if r.trialState ≠ .restored then
    throw (.helper "Busy" "Finish boot trial restoration before CPU tuning")
  let snapshot ← cpuSnapshot
  let current ← Call.ofExcept (cpuValues snapshot)
  match cpuTarget snapshot governor capMhz with
  | none =>
      throw (.helper "InvalidCPU" "Select an available governor and supported stock CPU cap")
  | some target => do
      let baseline ← Call.ofExcept (cpuBaseline r.cpu facts current)
      let cpu : Cpu := ⟨.applying, facts.bootId, baseline, current, target⟩
      save enc { r with cpu := some cpu }
      tryCatch (applyCpu cpu) fun e =>
        if e.caught then do
          let _ ← restoreCpuIn enc { r with cpu := some cpu }
          throw (.helper "CPUApplyFailed" "CPU setting failed and the saved baseline was restored")
        else throw e
      save enc { r with cpu := some { cpu with state := .applied } }
      pure target

/-- `restore_cpu`. -/
def restoreCpu : HelperCall Unit := do
  let r ← load enc
  let _ ← restoreCpuIn enc r

end Cpu

section Trial

def requiredReadiness : List String :=
  ["cooling_verified", "supply_verified", "recovery_verified", "stock_load_verified",
    "backup_verified", "semantics_reviewed"]

def ready (readiness : Option PyValue) (facts : BootFacts) (configHash : String) : Bool :=
  readiness.any fun v =>
    requiredReadiness.all (fun key => v.get key = some (.bool true)) &&
      v.get "boot_id" = some (.str facts.bootId) &&
      v.get "platform_id" = some (.str facts.platformId) && facts.platformId ≠ "" &&
      v.get "config_sha256" = some (.str configHash)

/-- The last confirmed step of this configuration and platform. -/
def previousMhz (profile : Option Profile) (configHash platformId : String) : Int :=
  match profile with
  | some p => if p.configSha256 = configHash ∧ p.platformId = platformId then p.mhz else stockMhz
  | none => stockMhz

/-- The record of a new trial. -/
def stagedTrial (id : String) (facts : BootFacts) (mhz : Int) (baseline : Bytes)
    (text : List Char) : Trial where
  id := id
  state := .staging
  originBootId := facts.bootId
  mhz := mhz
  baseline := String.ofList text
  candidate := candidateOf (String.ofList text) mhz
  configSha256 := Sha256.hexdigest baseline
  candidateSha256 := Sha256.hexdigest ((encode (candidateOf (String.ofList text) mhz)).getD [])
  platformId := facts.platformId
  baselineBits := 0
  cleanupConflict := none
  requestedS := none
  activeBootId := none
  startedS := none
  deadlineS := none
  reason := none
  rebootRequestedBootId := none

/-- Put the files of a staged trial in place and ask for one alternate boot. -/
def requestTrial (r : Record) (facts : BootFacts) (trial : Trial) (baseline : Bytes)
    (existing : Option Bytes) : HelperCall TrialResult := do
  if existing.isNone then bootWrite baselineName baseline none
  bootWrite "tryboot.txt" ((encode trial.candidate).getD []) none
  let normal ← bootRead "config.txt"
  if normal ≠ some baseline then
    throw (.helper "Conflict" "Normal configuration changed during trial staging; reboot cancelled")
  health 0
  let again ← observe
  if again ≠ facts then
    throw (.helper "Conflict" "Boot facts changed during trial staging; reboot cancelled")
  let now ← clock
  let requested := { trial with state := .requested, requestedS := some now }
  save enc (r.withTrial requested)
  reboot true
  pure (result (r.withTrial requested))

def stockBaselineRequired (message : String) : AdvancedError :=
  .helper "StockBaselineRequired" message

/-- Everything a trial needs is in place: its baseline, and the retained copy of it. -/
def trialReady (r : Record) (facts : BootFacts) (mhz : Option Int) :
    HelperCall (Int × Bytes × List Char × Option Bytes) := do
  if facts.tryboot ∨ facts.configuredMhz ≠ stockMhz then
    throw (stockBaselineRequired "Begin each trial from a verified normal stock boot")
  let safe ← bootRead safeMode
  if safe.isSome then
    throw (.helper "SafeMode" "Remove the boot safe-mode flag before starting a trial")
  if r.trialState ≠ .restored then
    throw (.helper "Busy" "An unfinished boot transaction must be restored first")
  if r.cpuState ≠ .restored then
    throw (stockBaselineRequired "Restore runtime CPU policy before a boot trial")
  let (baseline, text) ← config facts
  let raw ← readinessRead
  let readiness ← Call.ofExcept (json enc raw)
  if ¬ ready readiness facts (Sha256.hexdigest baseline) then
    throw (.helper "ReadinessRequired"
      "Trusted cooling, supply, stock-load and recovery evidence is required")
  let snapshot ← cpuSnapshot
  let cpu ← Call.ofExcept (cpuValues snapshot)
  if cpu.maxKhz ≠ stockMhz * 1000 then
    throw (stockBaselineRequired "Current CPU cap must match the measured stock baseline")
  health 0
  match mhz with
  | none =>
      throw (.helper "InvalidFrequency"
        "Use at most 50 MHz above the last confirmed step, up to 2700 MHz")
  | some mhz =>
      if ¬ (stockMhz < mhz ∧ mhz ≤ min maxMhz
          (previousMhz r.profile (Sha256.hexdigest baseline) facts.platformId + 50)) then
        throw (.helper "InvalidFrequency"
          "Use at most 50 MHz above the last confirmed step, up to 2700 MHz")
      else do
        let tryboot ← bootRead "tryboot.txt"
        if tryboot.isSome then
          throw (.helper "Conflict"
            "Existing tryboot configuration is not owned by this transaction")
        let existing ← bootRead baselineName
        if existing.isSome ∧ (existing ≠ some baseline ∨
            r.trial.map Trial.baseline ≠ some (String.ofList text)) then
          throw (.helper "Conflict"
            "Boot baseline changed; preserve and review it before another trial")
        pure (mhz, baseline, text, existing)

/-- `start_trial`. -/
def startTrial (mhz : Option Int) : HelperCall TrialResult := do
  let facts ← observe
  let r ← load enc
  let (mhz, baseline, text, existing) ← trialReady enc r facts mhz
  let id ← newId
  let trial := stagedTrial id facts mhz baseline text
  save enc (r.withTrial trial)
  requestTrial enc r facts trial baseline existing

/-- `_manual_recovery`. -/
def manualRecovery (r : Record) (trial : Trial) : HelperCall TrialResult := do
  let trial := trial.retreat .manualRecoveryRequired "normal-baseline-unverified"
  save enc (r.withTrial trial)
  pure (result (r.withTrial trial))

/-- The trial with a normal boot asked for. -/
def Trial.request (t : Trial) (bootId reason : String) : Trial :=
  { t.retreat .rollbackRequested reason with rebootRequestedBootId := some bootId }

/-- The mark is taken back, as no boot was asked for. -/
def Trial.unmark (t : Trial) : Trial :=
  { t with rebootRequestedBootId := none }

/-- Record the retreat, then ask for a normal boot, once in each boot. -/
def requestReboot (r : Record) (facts : BootFacts) (trial : Trial) (reason : String) :
    HelperCall TrialResult := do
  save enc (r.withTrial (trial.request facts.bootId reason))
  if trial.rebootRequestedBootId ≠ some facts.bootId then do
    let again ← observe
    let ok ←
      if again ≠ facts then pure false
      else normalBaselineVerified facts (trial.request facts.bootId reason)
    if ok then do
      reboot false
      pure (result (r.withTrial (trial.request facts.bootId reason)))
    else manualRecovery enc r (trial.request facts.bootId reason).unmark
  else pure (result (r.withTrial (trial.request facts.bootId reason)))

/-- The normal boot has been observed. -/
def finishRestore (r : Record) (facts : BootFacts) (trial : Trial) (reason : String) :
    HelperCall TrialResult := do
  if facts.configuredMhz ≠ stockMhz then
    throw (.helper "BaselineUnverified"
      "Verify a new normal stock boot before completing restoration")
  health trial.baselineBits
  let trial := trial.retreat .restored reason
  save enc (r.withTrial trial)
  pure (result (r.withTrial trial))

/-- Remove the candidate, if nobody has changed it. -/
def removeCandidate (trial : Trial) : HelperCall Bool :=
  orElse (do
    bootRemove "tryboot.txt" (encode trial.candidate)
    pure false) true

def unmanagedTrial (message : String) : AdvancedError :=
  .helper "UnmanagedTrial" message

/-- `_rollback`. -/
def rollbackIn (r : Record) (facts : BootFacts) (reason : String) : HelperCall TrialResult := do
  let r ← restoreCpuIn enc r
  match r.trial with
  | none =>
      if facts.tryboot then
        throw (unmanagedTrial "Current tryboot has no app restoration record")
      else pure (result r)
  | some trial => do
      let conflict ← removeCandidate trial
      let trial := { trial with cleanupConflict := some conflict }
      let ok ← normalBaselineVerified facts trial
      if ¬ ok then manualRecovery enc r trial
      else if facts.tryboot ∨ (facts.bootId = trial.originBootId ∧ trial.state ≠ .staging) then
        requestReboot enc r facts trial reason
      else finishRestore enc r facts trial reason

/-- `rollback`. -/
def rollback : HelperCall TrialResult := do
  let r ← load enc
  let facts ← observe
  rollbackIn enc r facts "requested"

/-- The trial is the running boot, and its deadline has not passed. -/
def superviseTrial (r : Record) (facts : BootFacts) (trial : Trial) : HelperCall TrialResult := do
  if trial.activeBootId ≠ some facts.bootId then rollbackIn enc r facts "unexpected-boot"
  else do
    let started := trial.startedS.getD (.int 0)
    let deadline :=
      if trial.state = .confirmed then started.add maxTrialSeconds
      else trial.deadlineS.getD (.int 0)
    let now ← clock
    if deadline.le now then rollbackIn enc r facts "deadline"
    else do
      let now ← clock
      if now.lt started then rollbackIn enc r facts "deadline"
      else pure (result r)

def Trial.started (t : Trial) (bootId : String) (now : Number) : Trial :=
  { t with
    state := .active
    activeBootId := some bootId
    startedS := some now
    deadlineS := some (now.add confirmSeconds) }

/-- The first look at the trial boot starts its confirmation time. -/
def activateTrial (r : Record) (facts : BootFacts) (trial : Trial) : HelperCall TrialResult := do
  if trial.state = .requested then do
    let now ← clock
    let active := trial.started facts.bootId now
    save enc (r.withTrial active)
    superviseTrial enc (r.withTrial active) facts active
  else superviseTrial enc r facts trial

/-- The step of the guardian in the trial boot. -/
def guardTrialBoot (r : Record) (facts : BootFacts) (trial : Trial) : HelperCall TrialResult := do
  if facts.bootId = trial.originBootId ∨ facts.configuredMhz ≠ trial.mhz ∨
      facts.platformId ≠ trial.platformId then
    rollbackIn enc r facts "boot-mismatch"
  else do
    let normal ← fileMatches "config.txt" (encode trial.baseline)
    if ¬ normal then rollbackIn enc r facts "boot-mismatch"
    else do
      let candidate ← fileMatches "tryboot.txt" (encode trial.candidate)
      if ¬ candidate then rollbackIn enc r facts "boot-mismatch"
      else do
        let healthy ← orElse (do
          health trial.baselineBits
          pure true) false
        if ¬ healthy then rollbackIn enc r facts "health"
        else activateTrial enc r facts trial

/-- The reboot into the trial has been asked for within the last thirty seconds. -/
def inGrace (facts : BootFacts) (trial : Trial) : HelperCall Bool := do
  if trial.state = .requested ∧ ¬ facts.tryboot ∧ facts.bootId = trial.originBootId then do
    let now ← clock
    let age := seconds now - seconds (trial.requestedS.getD (.int 0))
    pure (0 ≤ age ∧ age < 30)
  else pure false

/-- The step of the guardian with an unfinished trial. -/
def guardTrial (r : Record) (facts : BootFacts) (trial : Trial) : HelperCall TrialResult := do
  let ok ← normalBaselineVerified facts trial
  if ¬ ok then rollbackIn enc r facts "normal-baseline-unverified"
  else do
    let grace ← inGrace facts trial
    if grace then pure (result r)
    else if ¬ facts.tryboot ∨
        trial.state ∈ [TrialState.staging, .rollbackRequested, .manualRecoveryRequired] then
      rollbackIn enc r facts "normal-baseline"
    else guardTrialBoot enc r facts trial

/-- The step of the guardian without one. -/
def guardIdle (r : Record) (facts : BootFacts) : HelperCall TrialResult := do
  if facts.tryboot then
    throw (unmanagedTrial "Current tryboot has no active app restoration record")
  if r.cpu.any fun c => c.state = .applying then do
    let r ← restoreCpuIn enc r
    pure (result r)
  else pure (result r)

/-- `guardian`. -/
def guardian : HelperCall TrialResult := do
  let facts ← observe
  let r ← load enc
  let safe ← bootRead safeMode
  if safe.isSome then rollbackIn enc r facts "safe-mode"
  else match r.trial with
    | none => guardIdle enc r facts
    | some trial =>
        if trial.state = .restored then
          if trial.cleanupConflict = some true then rollbackIn enc r facts "cleanup-conflict"
          else guardIdle enc r facts
        else guardTrial enc r facts trial

/-- The record with the trial confirmed and its profile saved. -/
def Record.confirm (r : Record) (trial : Trial) : Record :=
  { r with
    trial := some { trial with state := .confirmed }
    profile := some ⟨trial.mhz, trial.configSha256, trial.platformId, trial.id⟩ }

def confirmationRejected : AdvancedError :=
  .helper "ConfirmationRejected"
    "Current healthy trial and timely visible confirmation are required"

/-- `confirm_trial`. -/
def confirmTrial (trialId : Option String) (visible : Bool) : HelperCall TrialResult := do
  let facts ← observe
  let r ← load enc
  match r.trial with
  | none => throw confirmationRejected
  | some trial => do
      if ¬ visible ∨ trialId ≠ some trial.id ∨ trial.state ≠ .active ∨ ¬ facts.tryboot ∨
          trial.activeBootId ≠ some facts.bootId ∨ facts.configuredMhz ≠ trial.mhz ∨
          facts.platformId ≠ trial.platformId then throw confirmationRejected
      let safe ← bootRead safeMode
      if safe.isSome then throw confirmationRejected
      let now ← clock
      if (trial.deadlineS.getD (.int 0)).le now then throw confirmationRejected
      let ok ← normalBaselineVerified facts trial
      if ¬ ok then throw confirmationRejected
      let candidate ← fileMatches "tryboot.txt" (encode trial.candidate)
      if ¬ candidate then throw confirmationRejected
      health trial.baselineBits
      save enc (r.confirm trial)
      pure (result (r.confirm trial))

/-- `set_safe_mode`. -/
def setSafeMode : HelperCall TrialResult := do
  let safe ← bootRead safeMode
  if safe.isNone then bootWrite safeMode [] none
  let r ← load enc
  let facts ← observe
  rollbackIn enc r facts "safe-mode"

/-- `uninstall_ready`. -/
def uninstallReady : HelperCall Bool := do
  let r ← load enc
  let facts ← observe
  health 0
  pure (!facts.tryboot && facts.configuredMhz = stockMhz && r.trialState = .restored &&
    !((r.trial.bind Trial.cleanupConflict).getD false) && r.cpuState = .restored)

end Trial

section System

inductive Answer
  | cpu (restored : Bool) (target : Option CpuValues)
  | trial (result : TrialResult)
  | ready (ready : Bool)

def openDirectories : HelperCall Unit :=
  ask (fun m _ => m.answer (.ok ())) fun _ => none

/-- The lock and the two directories around a call. -/
def transaction {α : Type} (op : Operation) (body : HelperCall α) : HelperCall α := do
  note (.began op)
  tryCatch (do
    openDirectories
    body) fun e =>
      match e with
      | .blocking => throw (.helper "Busy" "Another advanced transaction is in progress")
      | .os => throw (.helper "AdvancedIO"
          "Advanced operation failed; restoration record is retained")
      | e => throw e

/-- The body of an operation. -/
def Operation.body : Operation → HelperCall Answer
  | .setCpu governor capMhz => do
      let target ← Advanced.setCpu enc governor capMhz
      pure (.cpu false (some target))
  | .restoreCpu => do
      Advanced.restoreCpu enc
      pure (.cpu true none)
  | .startTrial mhz => do
      let r ← Advanced.startTrial enc mhz
      pure (.trial r)
  | .rollback => do
      let r ← Advanced.rollback enc
      pure (.trial r)
  | .guardian => do
      let r ← Advanced.guardian enc
      pure (.trial r)
  | .confirmTrial trialId visible => do
      let r ← Advanced.confirmTrial enc trialId visible
      pure (.trial r)
  | .setSafeMode => do
      let r ← Advanced.setSafeMode enc
      pure (.trial r)
  | .uninstallReady => do
      let b ← Advanced.uninstallReady enc
      pure (.ready b)

def Operation.call (op : Operation) : HelperCall Answer :=
  transaction op (op.body enc)

/-- A call, interrupted after some of its steps or not at all, or a new boot. -/
inductive AdvancedAction
  | call (op : Operation) (updates : Nat)
  | boot (id : String) (policy : CpuValues)

/-- A boot has an identifier that no earlier one had, and starts with any policy. -/
def World.bootInto (w : World) (id : String) (policy : CpuValues) : World :=
  { w.note (.booted id) with bootId := id, policy := policy }

def usedBoot (id : String) : Event → Bool
  | .booted used => used = id
  | _ => false

def advancedSystem : System World AdvancedAction where
  step
    | w, .call op updates => some ((op.call enc).upTo updates w)
    | w, .boot id policy => if w.log.any (usedBoot id) then none else some (w.bootInto id policy)

/-- The host before the first call. -/
structure Initial (w : World) : Prop where
  journal : w.journal = none
  log : w.log = [.booted w.bootId]

end System

end HccastWired.Advanced
