import HccastWired.Advanced.Helper

/-!
# What the log says

The record in the journal, the call that is running and what it has seen, and
which steps of the CPU policy, of the trial and of the host the log permits.
-/

namespace HccastWired.Advanced

open Foundation

section Log

def recordOf : List Event → Record
  | [] => .empty
  | .saved r :: _ => r
  | _ :: older => recordOf older

def currentBoot : List Event → Option String
  | [] => none
  | .booted id :: _ => some id
  | _ :: older => currentBoot older

/-- What the running call has done, the newest first. -/
def inCall : List Event → List Event
  | [] => []
  | .began _ :: _ => []
  | e :: older => e :: inCall older

def operation : List Event → Option Operation
  | [] => none
  | .began op :: _ => some op
  | _ :: older => operation older

def sinceSave : List Event → List Event
  | [] => []
  | .saved _ :: _ => []
  | e :: older => e :: sinceSave older

def lastSnapshot : List Event → Option CpuValues
  | [] => none
  | .snapshot v :: _ => some v
  | _ :: older => lastSnapshot older

def sinceSnapshot : List Event → List Event
  | [] => []
  | .snapshot _ :: _ => []
  | e :: older => e :: sinceSnapshot older

def factsOf : Event → Option BootFacts
  | .facts f => some f
  | _ => none

/-- The facts that a call has observed first. -/
def firstFacts (call : List Event) : Option BootFacts :=
  (call.filterMap factsOf).getLast?

def lastVerified : List Event → Option Bool
  | [] => none
  | .verified ok :: _ => some ok
  | _ :: older => lastVerified older

/-- The policy read before the first setting of this boot since the last restoration. -/
def startPolicy : List Event → Option CpuValues
  | [] => none
  | .booted _ :: _ => none
  | .saved r :: older =>
      match r.cpu with
      | none => none
      | some c =>
          if c.state = .restored then none
          else if (recordOf older).cpu = some c then startPolicy older
          else (startPolicy older).or (lastSnapshot (inCall older))
  | _ :: older => startPolicy older

/-- The frequency that was last confirmed for a configuration and a platform. -/
def lastConfirmed (configHash platformId : String) : List Event → Option Int
  | [] => none
  | .saved r :: older =>
      match r.trial with
      | none => lastConfirmed configHash platformId older
      | some t =>
          if t.state = .confirmed ∧ (recordOf older).trial ≠ some t ∧
              t.configSha256 = configHash ∧ t.platformId = platformId then some t.mhz
          else lastConfirmed configHash platformId older
  | _ :: older => lastConfirmed configHash platformId older

/-- The record stages a trial that the one before it did not hold. -/
def stages (old r : Record) : Bool :=
  r.trialState = .staging && r.trial ≠ old.trial

/-- What has happened to this trial in this boot. -/
def sinceStaged : List Event → List Event
  | [] => []
  | .booted _ :: _ => []
  | .saved r :: older => if stages (recordOf older) r then [] else .saved r :: sinceStaged older
  | e :: older => e :: sinceStaged older

end Log

section Evidence

variable {f : BootFacts} {t : Trial} {bits : Int} {call more : List Event}

/-- A fresh sample without faults has been seen. -/
def Healthy (bits : Int) (call : List Event) : Prop :=
  ∃ s now, .health s ∈ call ∧ .clock now ∈ call ∧ s.healthy now bits = true

/-- The normal configuration has been read, and is the recorded one under the supported layout. -/
structure Verified (f : BootFacts) (t : Trial) (call : List Event) : Prop where
  platform : f.platformId = t.platformId
  layout : f.simple = true
  assets : ∀ name ∈ alternateAssets, .read name none ∈ call
  config : ∃ raw text, .read "config.txt" (some raw) ∈ call ∧ encode t.baseline = some raw ∧
    Json.asciiText raw = some text ∧ supportedConfig text = true

/-- The candidate has been read as it was staged. -/
def Candidate (t : Trial) (call : List Event) : Prop :=
  ∃ raw, encode t.candidate = some raw ∧ .read "tryboot.txt" (some raw) ∈ call

theorem Healthy.mono (h : Healthy bits call) (hsub : call ⊆ more) : Healthy bits more := by
  obtain ⟨s, now, hs, hnow, hok⟩ := h
  exact ⟨s, now, hsub hs, hsub hnow, hok⟩

theorem Verified.mono (h : Verified f t call) (hsub : call ⊆ more) : Verified f t more where
  platform := h.platform
  layout := h.layout
  assets name hname := hsub (h.assets name hname)
  config := by
    obtain ⟨raw, text, hread, hraw⟩ := h.config
    exact ⟨raw, text, hsub hread, hraw⟩

/-- Only the baseline and the platform of a trial are verified. -/
theorem Verified.of_same {t' : Trial} (h : Verified f t call) (hplatform : t'.platformId = t.platformId)
    (hbaseline : t'.baseline = t.baseline) : Verified f t' call where
  platform := h.platform.trans hplatform.symm
  layout := h.layout
  assets := h.assets
  config := by
    rw [hbaseline]
    exact h.config

theorem Candidate.mono (h : Candidate t call) (hsub : call ⊆ more) : Candidate t more := by
  obtain ⟨raw, hraw, hread⟩ := h
  exact ⟨raw, hraw, hsub hread⟩

end Evidence

section Steps

/-- The call has seen the facts of the running boot. -/
structure Observed (f : BootFacts) (log : List Event) : Prop where
  seen : .facts f ∈ inCall log
  running : currentBoot log = some f.bootId

/-- The same trial in another state, with its times. -/
def Trial.Rewrites (old t : Trial) : Prop :=
  t = { old with
    state := t.state, cleanupConflict := t.cleanupConflict, reason := t.reason
    rebootRequestedBootId := t.rebootRequestedBootId }

/-- What a saved record may say of the trial, after a log. -/
inductive TrialStep (log : List Event) (r : Record) : Prop
  | unchanged (htrial : r.trial = (recordOf log).trial)
      (hprofile : r.profile = (recordOf log).profile)
  | staged (f : BootFacts) (t : Trial) (htrial : r.trial = some t)
      (hprofile : r.profile = (recordOf log).profile) (hstate : t.state = .staging)
      (hunstarted : t.startedS = none) (hsettled : (recordOf log).trialState = .restored)
      (hfacts : Observed f log) (htryboot : f.tryboot = false)
      (hstock : f.configuredMhz = stockMhz) (horigin : t.originBootId = f.bootId)
      (hverified : Verified f t (inCall log)) (hhealthy : Healthy t.baselineBits (inCall log))
      (hlow : stockMhz < t.mhz)
      (hhigh : t.mhz ≤ min maxMhz
        ((lastConfirmed t.configSha256 t.platformId log).getD stockMhz + 50))
  | requested (t : Trial) (now : Number) (hold : (recordOf log).trial = some t)
      (hstate : t.state = .staging) (hprofile : r.profile = (recordOf log).profile)
      (htrial : r.trial = some { t with state := .requested, requestedS := some now })
  | activated (f : BootFacts) (t : Trial) (now : Number) (hold : (recordOf log).trial = some t)
      (hstate : t.state = .requested) (hprofile : r.profile = (recordOf log).profile)
      (htrial : r.trial = some (t.started f.bootId now)) (hfacts : Observed f log)
      (htryboot : f.tryboot = true) (horigin : f.bootId ≠ t.originBootId)
      (hmhz : f.configuredMhz = t.mhz) (hverified : Verified f t (inCall log))
      (hcandidate : Candidate t (inCall log)) (hhealthy : Healthy t.baselineBits (inCall log))
  | confirmed (f : BootFacts) (t : Trial) (now deadline : Number)
      (hold : (recordOf log).trial = some t) (hstate : t.state = .active)
      (htrial : r = (recordOf log).confirm t) (hfacts : Observed f log)
      (htryboot : f.tryboot = true) (hboot : t.activeBootId = some f.bootId)
      (hclock : .clock now ∈ inCall log) (hdeadline : t.deadlineS = some deadline)
      (hbefore : deadline.le now = false)
      (hvisible : operation log = some (.confirmTrial (some t.id) true))
      (hmhz : f.configuredMhz = t.mhz) (hverified : Verified f t (inCall log))
      (hcandidate : Candidate t (inCall log)) (hhealthy : Healthy t.baselineBits (inCall log))
  | retreated (old t : Trial) (hold : (recordOf log).trial = some old) (htrial : r.trial = some t)
      (hprofile : r.profile = (recordOf log).profile) (hsame : old.Rewrites t)
      (hstate : t.state = .rollbackRequested) (hmark : t.rebootRequestedBootId = currentBoot log)
  | manual (old t : Trial) (hold : (recordOf log).trial = some old) (htrial : r.trial = some t)
      (hprofile : r.profile = (recordOf log).profile) (hsame : old.Rewrites t)
      (hstate : t.state = .manualRecoveryRequired)
      (hmark : t.rebootRequestedBootId = old.rebootRequestedBootId ∨
        .reboot false ∉ sinceStaged log)
  | restored (f : BootFacts) (old t : Trial) (hold : (recordOf log).trial = some old)
      (htrial : r.trial = some t) (hprofile : r.profile = (recordOf log).profile)
      (hsame : old.Rewrites t) (hstate : t.state = .restored)
      (hmark : t.rebootRequestedBootId = old.rebootRequestedBootId)
      (hfacts : Observed f log) (htryboot : f.tryboot = false)
      (hstock : f.configuredMhz = stockMhz) (hverified : Verified f t (inCall log))
      (hhealthy : Healthy t.baselineBits (inCall log))
      (hboot : f.bootId ≠ t.originBootId ∨ old.state = .staging)

/-- The policy has been read back as it was before the first setting, and not
been written since. -/
structure ReadBack (log : List Event) (baseline : CpuValues) : Prop where
  start : startPolicy log = some baseline
  snapshot : lastSnapshot (inCall log) = some baseline
  unwritten : ∀ field values current, .wrote field values current ∉ sinceSnapshot log

/-- What a saved record may say of the CPU policy, after a log. -/
inductive CpuStep (log : List Event) (r : Record) : Prop
  | unchanged (hcpu : r.cpu = (recordOf log).cpu)
  | applying (c : Cpu) (hcpu : r.cpu = some c) (hstate : c.state = .applying)
      (hboot : currentBoot log = some c.bootId) (hbefore : lastSnapshot (inCall log) = some c.before)
      (hbaseline : c.baseline = (startPolicy log).getD c.before)
  | applied (c : Cpu) (hold : (recordOf log).cpu = some c) (hstate : c.state = .applying)
      (hboot : currentBoot log = some c.bootId)
      (hcpu : r.cpu = some { c with state := .applied })
  | restored (c : Cpu) (hold : (recordOf log).cpu = some c) (hstate : c.state ≠ .restored)
      (hcpu : r.cpu = some { c with state := .restored })
      (hbaseline : currentBoot log ≠ some c.bootId ∨ ReadBack log c.baseline)

structure SaveStep (log : List Event) (r : Record) : Prop where
  valid : r.valid = true
  trial : TrialStep log r
  cpu : CpuStep log r

/-- A field is written only under a record of this boot that knows all current values. -/
structure WriteStep (log : List Event) (values current : CpuValues) (c : Cpu) : Prop where
  recorded : (recordOf log).cpu = some c
  pending : c.state ≠ .restored
  boot : currentBoot log = some c.bootId
  values : values = c.target ∨ values = c.baseline
  snapshot : ∃ v, lastSnapshot (inCall log) = some v ∧ c.knows v = true
  current : .disturbed ∉ sinceSnapshot log → c.knows current = true

/-- A normal reboot is asked for only with the retreat in the journal and, after
that, the same facts and the recorded normal configuration seen again. -/
structure RebootStep (log : List Event) (f : BootFacts) (t : Trial) : Prop where
  recorded : (recordOf log).trial = some t
  state : t.state = .rollbackRequested
  boot : currentBoot log = some f.bootId
  marked : t.rebootRequestedBootId = some f.bootId
  first : firstFacts (inCall log) = some f
  again : .facts f ∈ sinceSave log
  verified : Verified f t (sinceSave log)
  last : lastVerified (inCall log) = some true
  once : .reboot false ∉ sinceStaged log

/-- The log permits the event. -/
def Permitted (log : List Event) : Event → Prop
  | .booted id => .booted id ∉ log
  | .saved r => SaveStep log r
  | .wrote _ values current => ∃ c, WriteStep log values current c
  | .reboot false => ∃ f t, RebootStep log f t
  | .verified _ => .reboot false ∉ inCall log
  | .changedFile name => name ≠ "config.txt"
  | _ => True

/-- Every event was permitted when it happened. -/
def Sound : List Event → Prop
  | [] => True
  | e :: older => Permitted older e ∧ Sound older

theorem Sound.permitted {newer older : List Event} {e : Event} (h : Sound (newer ++ e :: older)) :
    Permitted older e := by
  induction newer with
  | nil => exact h.1
  | cons _ _ ih => exact ih h.2

end Steps

end HccastWired.Advanced
