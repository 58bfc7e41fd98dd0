import HccastWired.Foundation.Outcome
import HccastWired.Foundation.System
import HccastWired.Desktop.StateStore

/-!
# Memory and file of the store agree

A call that raises has either changed nothing or has replaced the file and kept
the new settings. The abstract model of a call is a partial function on the
settings that the file holds.
-/

namespace HccastWired.Desktop

open Foundation

/-- What a saved configuration records. -/
structure Settings where
  profile : Profile
  knownGood : Profile
  selectedDevice : Option Device
  failures : Nat
  pending : Option Trial
deriving DecidableEq

namespace Settings

def default : Settings :=
  ⟨.default, .default, none, 0, none⟩

end Settings

def StateStore.settings (s : StateStore) : Settings :=
  ⟨s.profile, s.knownGood, s.selectedDevice, s.failures, s.pending⟩

/-- The settings that a call stores, if it stores any. -/
def StoreOperation.target (s : Settings) : StoreOperation → Option Settings
  | .selectDevice address name =>
      match validateDevice (some (.dict [("address", address), ("name", name)])) with
      | .ok device => some { s with selectedDevice := device }
      | .error _ => none
  | .beginTrial profile now =>
      match s.pending, profile with
      | none, some profile => some { s with pending := some ⟨profile, now.add (.int 20)⟩ }
      | _, _ => none
  | .confirmTrial now =>
      match s.pending with
      | none => none
      | some trial =>
          if trial.deadline.le now then some { s with pending := none }
          else some { s with
            profile := trial.profile, knownGood := trial.profile, pending := none, failures := 0 }
  | .revertTrial => some { s with pending := none }
  | .recordFailure =>
      if 2 ≤ s.failures then some { s with failures := 3, profile := s.knownGood, pending := none }
      else some { s with failures := s.failures + 1 }
  | .recordSuccess => some { s with failures := 0 }
  | .restoreDefaults => some { Settings.default with selectedDevice := s.selectedDevice }

section Saved

variable (enc : Encoding)

def parsePending : Option PyValue → Option (Option Trial)
  | none => some none
  | some .none => some none
  | some v =>
      match (v.get "profile").map Profile.fromDict, v.get "deadline" with
      | some (.ok profile), some (.number deadline) => some (some ⟨profile, deadline⟩)
      | _, _ => none

/-- The settings that a document records. -/
def settingsOf (data : PyValue) : Option Settings :=
  match StateStore.parse data, parsePending (data.get "pending") with
  | .ok l, some pending => some ⟨l.profile, l.knownGood, l.selectedDevice, l.failures, pending⟩
  | _, _ => none

/-- The settings that the file holds; those of a missing file are the defaults. -/
def saved : PathNode → Option Settings
  | .absent => some .default
  | .file raw =>
      match enc.loads raw with
      | .ok data => settingsOf data
      | .error _ => none
  | _ => none

end Saved

/-- The file as the store has last seen it. -/
def Host.own (h : Host) : PathNode :=
  match h.seen with
  | none => .absent
  | some raw => .file raw

/-- Nobody else has changed the file. -/
def Host.Untouched (h : Host) : Prop :=
  h.path = h.own

inductive StoreAction
  | call (op : StoreOperation) (faults : FileOp → Bool)
  | foreign (path : PathNode) (backups : String → PathNode)

def storeSystem (enc : Encoding) : System Host StoreAction where
  step h
    | .call op faults => some ((op.run enc faults).final h)
    | .foreign path backups => some { h with path := path, backups := backups }

section Document

variable {enc : Encoding} {s : StateStore} {raw : Bytes}

theorem parseFailures_le {v : Option PyValue} {n : Nat} (h : StateStore.parseFailures v = .ok n) :
    n ≤ 3 := by
  unfold StateStore.parseFailures at h
  split at h
  · cases h
    exact Nat.zero_le 3
  · split at h
    · next hle =>
      cases h
      omega
    · cases h
  · cases h

theorem parse_ok {data : PyValue} {l : StateStore.Loaded} (h : StateStore.parse data = .ok l) :
    l.failures ≤ 3 ∧ l.trial = (data.get "pending").any (· ≠ .none) := by
  simp only [StateStore.parse, bind, Except.bind, pure, Except.pure] at h
  repeat' split at h
  all_goals cases h
  all_goals exact ⟨parseFailures_le (mapError_ok_iff.mp ‹_›), rfl⟩

theorem parse_document (h : s.failures ≤ 3) :
    ∃ l, StateStore.parse s.document = .ok l ∧ l.profile = s.profile ∧ l.knownGood = s.knownGood ∧
      l.selectedDevice = s.selectedDevice ∧ l.failures = s.failures := by
  have hdevice : validateDevice (some ((s.selectedDevice.map Device.toDict).getD .none)) =
      .ok s.selectedDevice := by
    cases s.selectedDevice with
    | none => rfl
    | some d => exact validateDevice_toDict d
  have hfailures : StateStore.parseFailures (some (.int s.failures)) = .ok s.failures := by
    have hle : (s.failures : Int) ≤ 3 := by omega
    simp [StateStore.parseFailures, hle]
  have hone : PyValue.isOne (.int 1) = true := by decide +kernel
  simp [StateStore.parse, StateStore.document, StateStore.item, PyValue.get, List.lookup,
    Profile.fromDict_toDict, hdevice, hfailures, hone, Except.mapError, bind, Except.bind, pure,
    Except.pure]

theorem settingsOf_document (h : s.failures ≤ 3) : settingsOf s.document = some s.settings := by
  obtain ⟨l, hparse, hprofile, hgood, hdevice, hfailures⟩ := parse_document h
  have hpending : parsePending (s.document.get "pending") = some s.pending := by
    cases hp : s.pending with
    | none => simp [StateStore.document, PyValue.get, List.lookup, hp, parsePending]
    | some trial =>
        simp [StateStore.document, PyValue.get, List.lookup, hp, parsePending,
          Profile.fromDict_toDict]
  simp [settingsOf, hparse, hpending, StateStore.settings, hprofile, hgood, hdevice, hfailures]

theorem document_unique (s : StateStore) : s.document.unique = true := by
  have hdevice : ((s.selectedDevice.map Device.toDict).getD .none).unique = true := by
    cases s.selectedDevice <;>
      simp [Device.toDict, PyValue.unique, PyValue.uniqueFields]
  have hpending : ((s.pending.map fun trial => PyValue.dict [("profile", trial.profile.toDict),
      ("deadline", .number trial.deadline)]).getD .none).unique = true := by
    cases s.pending <;>
      simp [PyValue.unique, PyValue.uniqueFields, Profile.toDict_unique]
  simp [StateStore.document, PyValue.unique, PyValue.uniqueFields, Profile.toDict_unique, hdevice,
    hpending]

/-- A configuration without a trial has a text. -/
theorem document_printable (hnone : s.pending = none) (hle : s.failures ≤ 3) :
    s.document.printable = true := by
  have hdevice : ((s.selectedDevice.map Device.toDict).getD .none).printable = true := by
    cases s.selectedDevice <;>
      simp [Device.toDict, PyValue.printable, PyValue.printableFields]
  have hfailures : (Number.int s.failures).printable = true :=
    Profile.printable_int (by omega)
  have hone : (Number.int 1).printable = true := Profile.printable_int (by decide)
  simp [StateStore.document, PyValue.printable, PyValue.printableFields, hnone, hdevice, hfailures,
    hone, Profile.toDict_printable]

/-- A saved configuration holds the settings it was written from. -/
theorem saved_document (h : s.failures ≤ 3) (hraw : enc.dumps s.document = some raw) :
    saved enc (.file raw) = some s.settings := by
  simp only [saved, enc.loads_dumps _ _ (document_unique s) hraw]
  exact settingsOf_document h

end Document

section Calls

variable {enc : Encoding} {faults : FileOp → Bool} {α : Type} {h t : Host} {new : Settings}
  {crash : Host → Prop} {post : α → Host → Prop} {fail : StoreError → Host → Prop}

/-- No state of a call is a crash; the process does not stop inside one. -/
abbrev Anywhere : Host → Prop := fun _ => True

theorem wp_attempt {op : FileOp} {post : Unit → Host → Prop} (hpost : post () h)
    (hfail : fail .os h) : (StateStore.attempt faults op).wp crash post fail h := by
  unfold StateStore.attempt
  split
  · exact Call.wp_throw _ |>.mpr hfail
  · exact Call.wp_pure _ |>.mpr hpost

theorem wp_modify_at {f : StateStore → StateStore} {post : Unit → Host → Prop} :
    (StateStore.modify f).wp crash post fail h ↔
      crash { h with store := f h.store } ∧ post () { h with store := f h.store } :=
  Call.wp_update

@[simp] theorem wp_modify {f : StateStore → StateStore} {post : Unit → Host → Prop} :
    (StateStore.modify f).wp Anywhere post fail h ↔ post () { h with store := f h.store } := by
  simp [wp_modify_at]

theorem wp_writeTemporary {post : Unit → Host → Prop} (hpost : post () h)
    (hfail : fail .os h) : (StateStore.writeTemporary faults).wp crash post fail h := by
  have hunlink : (StateStore.attempt faults .unlink).wp crash
      (fun _ t => (throw .os : StoreCall Unit).wp crash post fail t) fail h :=
    wp_attempt (Call.wp_throw _ |>.mpr hfail) hfail
  simp only [StateStore.writeTemporary, Call.wp_tryCatch, Call.wp_bind]
  apply wp_attempt _ hunlink
  apply wp_attempt _ hunlink
  apply wp_attempt _ hunlink
  apply wp_attempt _ hunlink
  exact wp_attempt hpost hunlink

theorem wp_syncDirectory {post : Unit → Host → Prop} (hpost : post () h)
    (hfail : fail .os h) : (StateStore.syncDirectory faults).wp crash post fail h := by
  simp only [StateStore.syncDirectory, Call.wp_bind, Call.wp_tryCatch]
  apply wp_attempt _ hfail
  apply wp_attempt
  · exact wp_attempt hpost hfail
  · exact wp_attempt (Call.wp_throw _ |>.mpr hfail) hfail

/-- The host after the file has been replaced. -/
def Host.written (enc : Encoding) (h : Host) (raw : Bytes) : Host :=
  { h with
    path := .file raw
    seen := some raw
    replaced := h.replaced + 1
    store := { h.store with diskHash := some (enc.sha256 raw) } }

/-- The host allows `save` to raise the error before it has changed anything. -/
def Host.Refuses (enc : Encoding) (h : Host) : StoreError → Prop
  | .value _ => h.path = .symlink ∨ enc.dumps h.store.document = none
  | .runtime _ => True
  | .os => True
  | .overflow => False
  | .recursion => False

theorem refuses_currentHash {e : StoreError}
    (he : StateStore.currentHash enc h.path = .error e) : h.Refuses enc e := by
  cases hpath : h.path <;> simp [StateStore.currentHash, hpath] at he <;> subst he <;> trivial

/-- `save` changes nothing, or has replaced a file that was as it remembers it. -/
theorem wp_save_at {post : Unit → Host → Prop} (hfail : ∀ e, h.Refuses enc e → fail e h)
    (hwritten : ∀ raw, enc.dumps h.store.document = some raw → h.store.configError = none →
      StateStore.currentHash enc h.path = .ok h.store.diskHash →
      crash { h.written enc raw with store := h.store } ∧ crash (h.written enc raw) ∧
        post () (h.written enc raw) ∧ fail .os (h.written enc raw)) :
    (StateStore.save enc faults).wp crash post fail h := by
  have hos : fail .os h := hfail _ trivial
  simp only [StateStore.save, Call.wp_bind, Call.wp_get]
  split
  · exact Call.wp_throw _ |>.mpr (hfail _ trivial)
  · next hconfig =>
    simp only [Call.wp_bind]
    apply wp_attempt _ hos
    split
    · next hlink => exact Call.wp_throw _ |>.mpr (hfail _ (Or.inl hlink))
    · simp only [Call.wp_bind]
      apply wp_attempt _ hos
      rw [Call.wp_ofExcept]
      cases hcurrent : StateStore.currentHash enc h.path with
      | error e => exact hfail e (refuses_currentHash hcurrent)
      | ok current =>
          simp only
          split
          · exact Call.wp_throw _ |>.mpr (hfail _ trivial)
          · next hsame =>
            simp only [Call.wp_bind]
            apply wp_attempt _ hos
            cases hraw : enc.dumps h.store.document with
            | none => exact Call.wp_throw _ |>.mpr (hfail _ (Or.inr hraw))
            | some raw =>
                have hnone : h.store.configError = none := by simpa using hconfig
                have hdisk : current = h.store.diskHash := by simpa using hsame
                obtain ⟨hreplaced, hhashed, hpost, hlate⟩ :=
                  hwritten raw hraw hnone (hdisk ▸ hcurrent)
                simp only [Call.wp_bind]
                apply wp_attempt _ hos
                apply wp_writeTemporary _ hos
                rw [StateStore.replacePath, Call.wp_update]
                refine ⟨hreplaced, ?_⟩
                rw [wp_modify_at]
                exact ⟨hhashed, wp_syncDirectory hpost hlate⟩

theorem wp_save {post : Unit → Host → Prop} (hfail : ∀ e, h.Refuses enc e → fail e h)
    (hwritten : ∀ raw, enc.dumps h.store.document = some raw → h.store.configError = none →
      StateStore.currentHash enc h.path = .ok h.store.diskHash →
      post () (h.written enc raw) ∧ fail .os (h.written enc raw)) :
    (StateStore.save enc faults).wp Anywhere post fail h := by
  apply wp_save_at hfail
  intro raw hraw hnone hcurrent
  exact ⟨trivial, trivial, hwritten raw hraw hnone hcurrent⟩

/-- What holds of a store between two calls. -/
structure StoreInv (enc : Encoding) (h : Host) : Prop where
  hash : h.store.diskHash = h.seen.map enc.sha256
  agrees : h.store.configError = none → saved enc h.own = some h.store.settings
  broken : h.store.configError ≠ none → h.store.settings = .default
  failures : h.store.failures ≤ 3

/-- The call has changed neither the attributes nor the file. -/
structure Kept (h t : Host) : Prop where
  store : t.store = h.store
  path : t.path = h.path
  seen : t.seen = h.seen
  replaced : t.replaced = h.replaced

/-- The call has replaced the file, which nobody else had changed. -/
structure Written (enc : Encoding) (h : Host) (new : Settings) (t : Host) : Prop where
  untouched : h.Untouched
  own : t.Untouched
  hash : t.store.diskHash = t.seen.map enc.sha256
  saved : saved enc t.path = some new
  replaced : t.replaced = h.replaced + 1
  broken : h.store.configError ≠ none → new = .default

/-- The file and the attributes hold the new settings. -/
structure Changed (enc : Encoding) (h : Host) (new : Settings) (t : Host) : Prop
    extends Written enc h new t where
  settings : t.store.settings = new
  configError : h.store.configError = none → t.store.configError = none

theorem Host.untouched_of_hash (hI : StoreInv enc h)
    (hcurrent : StateStore.currentHash enc h.path = .ok h.store.diskHash) : h.Untouched := by
  rw [hI.hash] at hcurrent
  unfold Host.Untouched Host.own
  cases hpath : h.path <;> cases hseen : h.seen <;>
    simp [StateStore.currentHash, hpath, hseen] at hcurrent ⊢
  exact enc.sha256_injective hcurrent

/-- The attributes that `durable_change` puts back are those that the same text
records: equal digests are digests of one text. -/
theorem Written.same (hI : StoreInv enc h) (hw : Written enc h new t)
    (hhash : t.store.diskHash = h.store.diskHash) : h.store.settings = new := by
  by_cases hconfig : h.store.configError = none
  · have hseen : t.seen = h.seen := by
      rw [hw.hash, hI.hash] at hhash
      exact Option.map_injective enc.sha256_injective hhash
    have hpath : t.path = h.own := by
      rw [hw.own, Host.own, Host.own, hseen]
    have hboth := hw.saved
    rw [hpath, hI.agrees hconfig] at hboth
    exact Option.some.inj hboth
  · rw [hI.broken hconfig, hw.broken hconfig]

/-- The host after `durable_change` has put the attributes back. -/
def Host.rollback (h t : Host) : Host :=
  { t with store := { h.store with diskHash := t.store.diskHash } }

theorem wp_durableChange {method : StoreCall α} :
    (StateStore.durableChange method).wp Anywhere post fail h ↔
      method.wp Anywhere post (fun e t => fail e
        (if t.store.diskHash = h.store.diskHash then h.rollback t else t)) h := by
  simp only [StateStore.durableChange, Call.wp_bind, Call.wp_get, Call.wp_tryCatch]
  refine iff_of_eq (congrArg (fun f => method.wp Anywhere post f h) ?_)
  funext e t
  apply propext
  split
  · simp [Host.rollback]
  · simp

/-- A call that has changed nothing, or both. -/
def Outcome (enc : Encoding) (h : Host) (new : Settings) (t : Host) : Prop :=
  Kept h t ∨ Changed enc h new t

/-- What a failed call leaves is not undone by an enclosing `durable_change`. -/
theorem Outcome.rollback (hI : StoreInv enc h) (ho : Outcome enc h new t) :
    Outcome enc h new (if t.store.diskHash = h.store.diskHash then h.rollback t else t) := by
  split
  · next hhash =>
    rcases ho with hkept | hchanged
    · left
      exact ⟨by rw [Host.rollback, hkept.store], hkept.path, hkept.seen, hkept.replaced⟩
    · right
      have hsame := hchanged.toWritten.same hI hhash
      exact ⟨⟨hchanged.untouched, hchanged.own, hchanged.hash, hchanged.saved, hchanged.replaced,
        hchanged.broken⟩, hsame, id⟩
  · exact ho

/-- `save` with new attributes, inside `durable_change`. -/
theorem wp_saveChange {s : StateStore} {backups : String → PathNode} {post : Unit → Host → Prop}
    (hI : StoreInv enc h) (hdisk : s.diskHash = h.store.diskHash) (hle : s.failures ≤ 3)
    (hconfig : h.store.configError = none → s.configError = none)
    (hbroken : h.store.configError ≠ none → s.configError = none → s.settings = .default)
    (hpost : ∀ t, Changed enc h s.settings t → post () t)
    (hfail : ∀ e t, Outcome enc h s.settings t → fail e t) :
    (StateStore.save enc faults).wp Anywhere post (fun e t => fail e
      (if t.store.diskHash = h.store.diskHash then h.rollback t else t))
      { h with store := s, backups := backups } := by
  apply wp_save
  · intro e _
    apply hfail
    left
    rw [if_pos hdisk]
    exact ⟨by rw [Host.rollback, hdisk], rfl, rfl, rfl⟩
  · intro raw hraw hnone hcurrent
    have huntouched : h.Untouched := Host.untouched_of_hash hI (hdisk ▸ hcurrent)
    have hchanged : Changed enc h s.settings
        (Host.written enc { h with store := s, backups := backups } raw) :=
      { untouched := huntouched
        own := rfl
        hash := rfl
        saved := saved_document hle hraw
        replaced := rfl
        broken := fun hb => hbroken hb hnone
        settings := rfl
        configError := hconfig }
    exact ⟨hpost _ hchanged, hfail _ _ (Outcome.rollback hI (Or.inr hchanged))⟩

/-- The call returned: it stored what it was to store, if there was anything. -/
def Returned (enc : Encoding) (op : StoreOperation) (h t : Host) : Prop :=
  (op.target h.store.settings = none ∧ Kept h t) ∨
    ∃ new, op.target h.store.settings = some new ∧ Changed enc h new t

/-- The call raised: it changed nothing, or stored what it was to store. -/
def Raised (enc : Encoding) (op : StoreOperation) (h t : Host) : Prop :=
  Kept h t ∨ ∃ new, op.target h.store.settings = some new ∧ Changed enc h new t

theorem Outcome.raised {op : StoreOperation} (ho : Outcome enc h new t)
    (hop : op.target h.store.settings = some new) : Raised enc op h t :=
  ho.imp id fun hchanged => ⟨new, hop, hchanged⟩

theorem Kept.refl (h : Host) : Kept h h := ⟨rfl, rfl, rfl, rfl⟩

/-- An error before any attribute has changed. -/
theorem raised_rollback {op : StoreOperation} : Raised enc op h
    (if h.store.diskHash = h.store.diskHash then h.rollback h else h) := by
  rw [if_pos rfl]
  exact Or.inl ⟨rfl, rfl, rfl, rfl⟩

/-- The end of a call that stores its target. -/
theorem wp_store {op : StoreOperation} {s : StateStore} (hI : StoreInv enc h)
    (htarget : op.target h.store.settings = some s.settings) (hdisk : s.diskHash = h.store.diskHash)
    (hconfig : s.configError = h.store.configError) (hle : s.failures ≤ 3) :
    (StateStore.save enc faults).wp Anywhere (fun _ => Returned enc op h)
      (fun _ t => Raised enc op h (if t.store.diskHash = h.store.diskHash then h.rollback t else t))
      { h with store := s } := by
  apply wp_saveChange hI hdisk hle
  · intro hnone
    rw [hconfig, hnone]
  · intro hb hnone
    exact absurd (hconfig ▸ hnone) hb
  · intro t ht
    exact Or.inr ⟨_, htarget, ht⟩
  · intro _ t ht
    exact ht.raised htarget

theorem wp_selectDevice (hI : StoreInv enc h) (address name : PyValue) :
    ((StoreOperation.selectDevice address name).run enc faults).wp Anywhere
      (fun _ => Returned enc (.selectDevice address name) h)
      (fun _ => Raised enc (.selectDevice address name) h) h := by
  rw [StoreOperation.run, StateStore.selectDevice, wp_durableChange]
  cases hdevice : validateDevice (some (.dict [("address", address), ("name", name)])) with
  | error message => exact Call.wp_throw _ |>.mpr raised_rollback
  | ok device =>
      simp only [Call.wp_bind, wp_modify]
      exact wp_store hI (by simp [StoreOperation.target, hdevice, StateStore.settings]) rfl rfl
        hI.failures

theorem wp_beginTrial (hI : StoreInv enc h) (profile : Option Profile) (now : Number) :
    ((StoreOperation.beginTrial profile now).run enc faults).wp Anywhere
      (fun _ => Returned enc (.beginTrial profile now) h)
      (fun _ => Raised enc (.beginTrial profile now) h) h := by
  unfold StoreOperation.run StateStore.beginTrial
  simp only [wp_durableChange, Call.wp_bind, Call.wp_get]
  split
  · exact Call.wp_throw _ |>.mpr raised_rollback
  · next hpending =>
    have hnone : h.store.pending = none := by simpa using hpending
    cases profile with
    | none => exact Call.wp_throw _ |>.mpr raised_rollback
    | some profile =>
        simp only [Call.wp_bind, wp_modify]
        exact wp_store hI (by simp [StoreOperation.target, StateStore.settings, hnone]) rfl rfl
          hI.failures

/-- `revert_trial`, called alone or by an expired confirmation. -/
theorem wp_revertTrial (hI : StoreInv enc h) (op : StoreOperation)
    {post : Profile → Host → Prop}
    (htarget : op.target h.store.settings = some { h.store.settings with pending := none })
    (hpost : ∀ p t, Returned enc op h t → post p t) :
    (StateStore.revertTrial enc faults).wp Anywhere post (fun _ => Raised enc op h) h := by
  rw [StateStore.revertTrial, wp_durableChange]
  simp only [Call.wp_bind, wp_modify, Call.wp_get, Call.wp_pure]
  apply (wp_store (s := { h.store with pending := none }) hI htarget rfl rfl hI.failures).mono
  · intro _ t ht
    exact hpost _ t ht
  · intro _ t ht
    exact ht

/-- An error of an inner call is not undone by an enclosing `durable_change`. -/
theorem Raised.rollback {op : StoreOperation} (hI : StoreInv enc h) (hr : Raised enc op h t) :
    Raised enc op h (if t.store.diskHash = h.store.diskHash then h.rollback t else t) := by
  rcases hr with hkept | ⟨new, htarget, hchanged⟩
  · rw [if_pos (by rw [hkept.store])]
    exact Or.inl ⟨by rw [Host.rollback, hkept.store], hkept.path, hkept.seen, hkept.replaced⟩
  · exact (Outcome.rollback hI (Or.inr hchanged)).raised htarget

theorem wp_confirmTrial (hI : StoreInv enc h) (now : Number) :
    ((StoreOperation.confirmTrial now).run enc faults).wp Anywhere
      (fun _ => Returned enc (.confirmTrial now) h) (fun _ => Raised enc (.confirmTrial now) h)
      h := by
  rw [StoreOperation.run, Call.wp_bind, StateStore.confirmTrial, wp_durableChange]
  simp only [Call.wp_bind, Call.wp_get, Call.wp_pure]
  cases hpending : h.store.pending with
  | none =>
      rw [Call.wp_pure]
      exact Or.inl ⟨by simp [StoreOperation.target, StateStore.settings, hpending], .refl h⟩
  | some trial =>
      simp only
      split
      · next hexpired =>
        simp only [Call.wp_bind, Call.wp_pure]
        apply (wp_revertTrial hI (.confirmTrial now) _ fun _ _ ht => ht).mono
        · intro _ t ht
          exact ht
        · intro _ t ht
          exact ht.rollback hI
        · simp [StoreOperation.target, StateStore.settings, hpending, hexpired]
      · next hlive =>
        simp only [Call.wp_bind, wp_modify, Call.wp_pure]
        exact wp_store hI (by simp [StoreOperation.target, StateStore.settings, hpending, hlive])
          rfl rfl (Nat.zero_le 3)

theorem wp_recordFailure (hI : StoreInv enc h) :
    (StoreOperation.recordFailure.run enc faults).wp Anywhere
      (fun _ => Returned enc .recordFailure h) (fun _ => Raised enc .recordFailure h) h := by
  rw [StoreOperation.run, Call.wp_bind, StateStore.recordFailure, wp_durableChange]
  simp only [Call.wp_bind, wp_modify, Call.wp_get, Call.wp_pure]
  have hthree := hI.failures
  by_cases hlast : 2 ≤ h.store.failures
  · have hmin : min 3 (h.store.failures + 1) = 3 := by omega
    simp only [hmin, StateStore.recoveryRequired, Nat.le_refl, decide_true, if_true]
    exact wp_store hI (by simp [StoreOperation.target, StateStore.settings, hlast]) rfl rfl
      (Nat.le_refl 3)
  · have hmin : min 3 (h.store.failures + 1) = h.store.failures + 1 := by omega
    have hnot : ¬ 3 ≤ h.store.failures + 1 := by omega
    have hle : h.store.failures + 1 ≤ 3 := by omega
    simp only [hmin, StateStore.recoveryRequired, hnot, decide_false, Bool.false_eq_true, if_false]
    exact wp_store hI (by simp [StoreOperation.target, StateStore.settings, hlast]) rfl rfl hle

theorem wp_recordSuccess (hI : StoreInv enc h) :
    (StoreOperation.recordSuccess.run enc faults).wp Anywhere
      (fun _ => Returned enc .recordSuccess h) (fun _ => Raised enc .recordSuccess h) h := by
  rw [StoreOperation.run, StateStore.recordSuccess, wp_durableChange]
  simp only [Call.wp_bind, wp_modify]
  exact wp_store hI rfl rfl rfl (Nat.zero_le 3)

/-- The host whose backup of that name holds the bytes. -/
def Host.withBackup (h : Host) (name : String) (written : Bytes) : Host :=
  { h with backups := Function.update h.backups name (.file written) }

theorem Host.withBackup_withBackup {name : String} {part next : Bytes} :
    ({ h.withBackup name part with
      backups := Function.update (h.withBackup name part).backups name (.file next) } : Host) =
      h.withBackup name next := by
  simp [Host.withBackup]

/-- At every step of the write the backup holds a beginning of the file. -/
theorem wp_writeBackup {name : String} {raw written rest : Bytes} {post : Unit → Host → Prop}
    (hraw : written ++ rest = raw) (hpost : post () (h.withBackup name raw))
    (hcrash : ∀ part, part <+: raw → crash (h.withBackup name part))
    (hfail : ∀ part, part <+: raw → fail .os (h.withBackup name part)) :
    (StateStore.writeBackup faults name written rest).wp crash post fail
      (h.withBackup name written) := by
  induction rest generalizing written with
  | nil =>
      rw [List.append_nil] at hraw
      exact Call.wp_pure _ |>.mpr (hraw ▸ hpost)
  | cons byte rest ih =>
      have hnext : written ++ [byte] ++ rest = raw := by simp [← hraw]
      rw [StateStore.writeBackup, Call.wp_bind]
      apply wp_attempt _ (hfail written ⟨byte :: rest, hraw⟩)
      rw [Call.wp_bind, Call.wp_update, Host.withBackup_withBackup]
      exact ⟨hcrash _ ⟨rest, hnext⟩, ih hnext⟩

/-- A missing backup is written; one that holds the file already is accepted. -/
theorem wp_keepBackup_at {raw : Bytes} {digest : String} {post : Unit → Host → Prop}
    (habsent : h.backups (StateStore.backupName digest) = .absent →
      post () (h.withBackup (StateStore.backupName digest) raw))
    (hsame : h.backups (StateStore.backupName digest) = .file raw → post () h)
    (hcrash : ∀ part, part <+: raw → crash (h.withBackup (StateStore.backupName digest) part))
    (hpart : ∀ part, part <+: raw → fail .os (h.withBackup (StateStore.backupName digest) part))
    (hfail : ∀ e, fail e h) :
    (StateStore.keepBackup faults raw digest).wp crash post fail h := by
  simp only [StateStore.keepBackup, Call.wp_bind, Call.wp_get]
  split
  · next hnone =>
    simp only [Call.wp_bind]
    apply wp_attempt _ (hfail _)
    rw [Call.wp_update]
    refine ⟨hcrash [] List.nil_prefix, ?_⟩
    apply wp_writeBackup (List.nil_append raw) _ hcrash hpart
    exact wp_attempt (habsent hnone) (hpart raw List.prefix_rfl)
  · simp only [Call.wp_bind]
    apply wp_attempt _ (hfail _)
    split
    · exact Call.wp_throw _ |>.mpr (hfail _)
    · next heq => exact Call.wp_pure _ |>.mpr (hsame (not_not.mp heq))

theorem wp_keepBackup {raw : Bytes} {digest : String} {post : Unit → Host → Prop}
    (hpost : ∀ backups, post () { h with backups := backups })
    (hfail : ∀ e backups, fail e { h with backups := backups }) :
    (StateStore.keepBackup faults raw digest).wp Anywhere post fail h := by
  apply wp_keepBackup_at
  · exact fun _ => hpost _
  · exact fun _ => hpost h.backups
  · exact fun _ _ => trivial
  · exact fun _ _ => hfail _ _
  · exact fun e => hfail e h.backups

theorem wp_restoreDefaults (hI : StoreInv enc h) :
    (StoreOperation.restoreDefaults.run enc faults).wp Anywhere
      (fun _ => Returned enc .restoreDefaults h) (fun _ => Raised enc .restoreDefaults h) h := by
  have hback : ∀ backups : String → PathNode, Raised enc .restoreDefaults h
      (if ({ h with backups := backups } : Host).store.diskHash = h.store.diskHash then
        h.rollback { h with backups := backups } else { h with backups := backups }) := by
    intro backups
    rw [if_pos rfl]
    exact Or.inl ⟨rfl, rfl, rfl, rfl⟩
  have hsave : ∀ backups : String → PathNode, (StateStore.save enc faults).wp Anywhere
      (fun _ => Returned enc .restoreDefaults h)
      (fun _ t => Raised enc .restoreDefaults h
        (if t.store.diskHash = h.store.diskHash then h.rollback t else t))
      { h with backups := backups, store := { h.store with
        profile := .default, knownGood := .default, pending := none, failures := 0
        configError := none, recoveredTrial := false } } := by
    intro backups
    refine wp_saveChange hI rfl (Nat.zero_le 3) (fun _ => rfl) ?_ ?_ ?_
    · intro hb _
      have hdefault := congrArg Settings.selectedDevice (hI.broken hb)
      simp only [StateStore.settings, Settings.default] at hdefault
      simp [StateStore.settings, Settings.default, hdefault]
    · intro t ht
      exact Or.inr ⟨_, rfl, ht⟩
    · intro e t ht
      exact ht.raised rfl
  simp only [StoreOperation.run, StateStore.restoreDefaults, Call.wp_bind, wp_durableChange,
    Call.wp_get, Call.wp_pure]
  refine wp_attempt ?_ (hback h.backups)
  split
  · exact Call.wp_throw _ |>.mpr (hback h.backups)
  · simp only [Call.wp_bind]
    refine wp_attempt ?_ (hback h.backups)
    rw [Call.wp_ofExcept]
    cases hcurrent : StateStore.currentHash enc h.path with
    | error e => exact hback h.backups
    | ok digest =>
        simp only
        split
        · exact Call.wp_throw _ |>.mpr (hback h.backups)
        · split
          · simp only [Call.wp_bind, wp_modify, Call.wp_pure]
            exact wp_keepBackup hsave fun _ => hback
          · simp only [Call.wp_bind, wp_modify, Call.wp_pure]
            exact hsave h.backups

theorem wp_run (hI : StoreInv enc h) (op : StoreOperation) (faults : FileOp → Bool) :
    (op.run enc faults).wp Anywhere (fun _ => Returned enc op h) (fun _ => Raised enc op h) h := by
  cases op with
  | selectDevice address name => exact wp_selectDevice hI address name
  | beginTrial profile now => exact wp_beginTrial hI profile now
  | confirmTrial now => exact wp_confirmTrial hI now
  | revertTrial =>
      rw [StoreOperation.run, Call.wp_bind]
      exact wp_revertTrial hI .revertTrial rfl fun _ t ht => Call.wp_pure _ |>.mpr ht
  | recordFailure => exact wp_recordFailure hI
  | recordSuccess => exact wp_recordSuccess hI
  | restoreDefaults => exact wp_restoreDefaults hI

end Calls

section Runs

variable {enc : Encoding} {faults : FileOp → Bool} {h t h₀ : Host} {new : Settings}
  {op : StoreOperation}

theorem Kept.inv (hI : StoreInv enc h) (hk : Kept h t) : StoreInv enc t := by
  have hown : t.own = h.own := by rw [Host.own, Host.own, hk.seen]
  exact ⟨by rw [hk.store, hk.seen, hI.hash], by rw [hk.store, hown]; exact hI.agrees,
    by rw [hk.store]; exact hI.broken, by rw [hk.store]; exact hI.failures⟩

theorem saved_failures {path : PathNode} (hs : saved enc path = some new) : new.failures ≤ 3 := by
  cases path with
  | absent =>
      cases hs
      exact Nat.zero_le 3
  | file raw =>
      simp only [saved] at hs
      split at hs
      · next data hdata =>
        simp only [settingsOf] at hs
        split at hs
        · next l pending hparse hpending =>
          cases hs
          exact (parse_ok hparse).1
        · cases hs
      · cases hs
  | symlink => cases hs
  | other => cases hs

theorem Changed.inv (hc : Changed enc h new t) : StoreInv enc t where
  hash := hc.hash
  agrees _ := by rw [← hc.own, hc.saved, hc.settings]
  broken hb := by
    rw [hc.settings]
    exact hc.broken fun hnone => hb (hc.configError hnone)
  failures := by
    have hle := saved_failures hc.saved
    rw [← hc.settings] at hle
    exact hle

/-- A document that holds no trial is what the constructor reads from it. -/
theorem settingsOf_loaded {data : PyValue} {l : StateStore.Loaded}
    (hparse : StateStore.parse data = .ok l) (htrial : l.trial = false) :
    settingsOf data = some ⟨l.profile, l.knownGood, l.selectedDevice, l.failures, none⟩ := by
  have hpending : parsePending (data.get "pending") = some none := by
    rw [(parse_ok hparse).2] at htrial
    cases hget : data.get "pending" with
    | none => rfl
    | some v =>
        have hnone : v = .none := by simpa [hget] using htrial
        rw [hnone]
        rfl
  simp [settingsOf, hparse, hpending]

/-- The store that the constructor saves, to drop a trial that was left in its file. -/
theorem wp_saveLoaded (enc : Encoding) (faults : FileOp → Bool) (h : Host) {raw : Bytes}
    (hpath : h.path = .file raw)
    (hpending : h.store.pending = none) (hle : h.store.failures ≤ 3) :
    (StateStore.save enc faults).wp Anywhere (fun _ => StoreInv enc)
      (fun e _ => ∀ message, e ≠ .value message) h := by
  apply wp_save
  · rintro e hrefuses message rfl
    obtain ⟨text, htext⟩ := enc.dumps_printable _ (document_printable hpending hle)
    rcases hrefuses with hlink | hnone
    · rw [hpath] at hlink
      cases hlink
    · rw [htext] at hnone
      cases hnone
  · intro text htext hnone _
    constructor
    · exact ⟨rfl, fun _ => saved_document hle htext, fun hb => absurd hnone hb, hle⟩
    · intro message he
      cases he

theorem create_inv {path : PathNode} {backups : String → PathNode}
    (hcreate : StateStore.create enc faults path backups = .ok h) : StoreInv enc h := by
  cases path with
  | absent =>
      cases hcreate
      exact ⟨rfl, fun _ => rfl, fun _ => rfl, Nat.zero_le 3⟩
  | symlink => cases hcreate
  | other => cases hcreate
  | file raw =>
      simp only [StateStore.create] at hcreate
      split at hcreate
      · cases hcreate
      · split at hcreate
        · next message hmessage =>
          cases hcreate
          exact ⟨rfl, nofun, fun _ => rfl, Nat.zero_le 3⟩
        · cases hcreate
        · cases hcreate
        · next l hl =>
          rw [StateStore.read] at hl
          split at hl
          · cases hl
          cases hdata : enc.loads raw with
          | error e =>
              rw [hdata] at hl
              cases hl
          | ok data =>
              rw [hdata] at hl
              have hparse : StateStore.parse data = .ok l := hl
              split at hcreate
              · let loaded : Host := ⟨{
                  StateStore.initial with
                    diskHash := some (enc.sha256 raw), profile := l.profile
                    knownGood := l.knownGood, selectedDevice := l.selectedDevice
                    failures := l.failures, recoveredTrial := l.trial },
                  .file raw, backups, some raw, 0⟩
                have hwp := wp_saveLoaded enc faults loaded rfl rfl (parse_ok hparse).1
                split at hcreate
                · next hok =>
                  cases hcreate
                  exact hwp.ok hok
                · next message herror => exact absurd rfl (hwp.failed herror message)
                · cases hcreate
              · next htrial =>
                cases hcreate
                have hfalse : l.trial = false := by simpa using htrial
                have hsaved : saved enc (.file raw) =
                    some ⟨l.profile, l.knownGood, l.selectedDevice, l.failures, none⟩ := by
                  simp only [saved, hdata]
                  exact settingsOf_loaded hparse hfalse
                exact ⟨rfl, fun _ => hsaved, fun hb => absurd rfl hb, (parse_ok hparse).1⟩

theorem step_inv (hI : StoreInv enc h) {a : StoreAction} (hstep : (storeSystem enc).step h a = some t) :
    StoreInv enc t := by
  cases a with
  | call op faults =>
      obtain rfl := Option.some.inj hstep
      have hwp := wp_run hI op faults
      cases hvalue : (op.run enc faults h).1 with
      | ok a =>
          rcases hwp.ok hvalue with ⟨-, hkept⟩ | ⟨new, -, hchanged⟩
          · exact hkept.inv hI
          · exact hchanged.inv
      | error e =>
          rcases hwp.failed hvalue with hkept | ⟨new, -, hchanged⟩
          · exact hkept.inv hI
          · exact hchanged.inv
  | foreign path backups =>
      obtain rfl := Option.some.inj hstep
      exact ⟨hI.hash, hI.agrees, hI.broken, hI.failures⟩

theorem reaches_inv {path : PathNode} {backups : String → PathNode}
    (hcreate : StateStore.create enc faults path backups = .ok h₀)
    (run : (storeSystem enc).Reaches System.Any h₀ h) : StoreInv enc h :=
  run.invariant (fun _ _ _ hI _ hstep => step_inv hI hstep) (create_inv hcreate)

/-- What the file holds after a call on a file that nobody else has changed. -/
theorem Kept.agrees (hI : StoreInv enc h) (hk : Kept h t) (hun : h.Untouched)
    (hconfig : h.store.configError = none) : saved enc t.path = some t.store.settings := by
  rw [hk.path, hun, hk.store]
  exact hI.agrees hconfig

/-- Every call of a store, from any state of any run: memory and file agree after
it; an error before the replace changes nothing; an error after it leaves the new
settings in both; and a file that somebody else has changed is not written. -/
theorem store_durable {path : PathNode} {backups : String → PathNode}
    (hcreate : StateStore.create enc faults path backups = .ok h₀)
    (run : (storeSystem enc).Reaches System.Any h₀ h) (op : StoreOperation)
    (faults : FileOp → Bool) :
    let value := (op.run enc faults h).1
    let t := (op.run enc faults).final h
    (h.store.configError = none → h.Untouched →
      t.store.configError = none ∧ saved enc t.path = some t.store.settings) ∧
    (∀ e, value = .error e → t.replaced = h.replaced → t.store = h.store ∧ t.path = h.path) ∧
    (∀ e, value = .error e → t.replaced ≠ h.replaced →
      op.target h.store.settings = some t.store.settings ∧
        saved enc t.path = some t.store.settings) ∧
    (¬ h.Untouched → t.replaced = h.replaced ∧ t.path = h.path) := by
  intro value t
  have hI := reaches_inv hcreate run
  have hwp := wp_run hI op faults
  have hresult : Kept h t ∨ ∃ new, op.target h.store.settings = some new ∧ Changed enc h new t := by
    cases hvalue : (op.run enc faults h).1 with
    | ok a => exact (hwp.ok hvalue).imp And.right id
    | error e => exact hwp.failed hvalue
  rcases hresult with hkept | ⟨new, htarget, hchanged⟩
  · refine ⟨fun hconfig hun => ⟨?_, hkept.agrees hI hun hconfig⟩, fun _ _ _ => ?_, fun _ _ hne => ?_,
      fun _ => ⟨hkept.replaced, hkept.path⟩⟩
    · rw [hkept.store, hconfig]
    · exact ⟨hkept.store, hkept.path⟩
    · exact absurd hkept.replaced hne
  · have hsaved : saved enc t.path = some t.store.settings := by
      rw [hchanged.settings, hchanged.saved]
    refine ⟨fun hconfig _ => ⟨hchanged.configError hconfig, hsaved⟩, fun _ _ hsame => ?_,
      fun _ _ _ => ⟨?_, hsaved⟩, fun hother => absurd hchanged.untouched hother⟩
    · have hnext := hchanged.replaced
      omega
    · rw [hchanged.settings, htarget]

end Runs

section Sample

theorem sampleAddress_lower : lower "02:00:00:00:00:01" = "02:00:00:00:00:01" := by
  apply String.toList_injective
  simp [lower]

def sampleDevice : Device :=
  ⟨"02:00:00:00:00:01", "EBPSI-A1", by decide +kernel, sampleAddress_lower, by decide +kernel⟩

def profileLines : List String :=
  ["    \"source_width\": 1280,", "    \"source_height\": 720,", "    \"content_fps\": 30,",
    "    \"wire_width\": 1280,", "    \"wire_height\": 720,", "    \"wire_fps\": 30,",
    "    \"bitrate_kbps\": 4096,", "    \"scale\": 2.0,", "    \"rotation\": 0"]

/-- The text that `save` writes for a store with a selected receiver. -/
def sampleText : Bytes :=
  let lines := ["\x7b", "  \"api_version\": 1,", "  \"profile\": \x7b"] ++ profileLines ++
    ["  \x7d,", "  \"known_good\": \x7b"] ++ profileLines ++
    ["  \x7d,", "  \"selected_device\": \x7b", "    \"address\": \"02:00:00:00:00:01\",",
      "    \"name\": \"EBPSI-A1\"", "  \x7d,", "  \"failures\": 0,", "  \"pending\": null", "\x7d"]
  (lines.flatMap fun line => line.toList ++ ['\n']).map fun c => UInt8.ofNat c.toNat

theorem sampleText_head : sampleText.head? = some 123 := by decide +kernel

def sampleEncoding : Encoding :=
  .sample { StateStore.initial with selectedDevice := some sampleDevice }.document sampleText
    sampleText_head

/-- The directory cannot be synchronized after the first receiver is selected:
the call raises, and the receiver is selected in memory and in the file. -/
theorem store_durable_unsynced : ∃ h t,
    StateStore.create sampleEncoding (fun _ => false) .absent (fun _ => .absent) = .ok h ∧
    let call := (StoreOperation.selectDevice (.str "02:00:00:00:00:01") (.str "EBPSI-A1")).run
      sampleEncoding fun op => op = .fsyncDirectory
    (call h).1 = .error .os ∧ call.final h = t ∧ t.store.selectedDevice = some sampleDevice ∧
      saved sampleEncoding t.path = some t.store.settings := by
  let h : Host := ⟨.initial, .absent, fun _ => .absent, none, 0⟩
  let op : StoreOperation := .selectDevice (.str "02:00:00:00:00:01") (.str "EBPSI-A1")
  let call := op.run sampleEncoding fun op => op = .fsyncDirectory
  have hvalid : validateDevice (some (.dict [("address", .str "02:00:00:00:00:01"),
      ("name", .str "EBPSI-A1")])) = .ok (some sampleDevice) := validateDevice_toDict sampleDevice
  have hdumps : sampleEncoding.dumps (StateStore.mk .default .default (some sampleDevice) 0 none
      false none none).document = some sampleText :=
    Encoding.sample_dumps sampleText_head
  have hwp : call.wp Anywhere (fun _ _ => False)
      (fun e t => e = .os ∧ t.store.selectedDevice = some sampleDevice) h := by
    simp [call, op, h, StoreOperation.run, StateStore.selectDevice, wp_durableChange, hvalid,
      StateStore.save, StateStore.attempt, StateStore.writeTemporary, StateStore.syncDirectory,
      StateStore.replacePath, StateStore.currentHash, StateStore.initial, hdumps]
  have hstore := @store_durable sampleEncoding (fun _ => false) h h .absent (fun _ => .absent) rfl
    .refl op fun op => op = .fsyncDirectory
  refine ⟨h, call.final h, rfl, ?_⟩
  cases hvalue : (call h).1 with
  | ok a => exact (hwp.ok hvalue).elim
  | error e =>
      obtain ⟨rfl, hdevice⟩ := hwp.failed hvalue
      exact ⟨hvalue, rfl, hdevice, (hstore.1 rfl rfl).2⟩

end Sample

end HccastWired.Desktop
