import HccastWired.Desktop.StoreDurability

/-!
# Retrying a reset

A reset that fails or is interrupted leaves the file as it was, or the defaults.
The next one succeeds exactly when it finds no backup of the file or a complete
one. A backup that was cut short is never completed.
-/

namespace HccastWired.Desktop

open Foundation

namespace StateStore

/-- The attributes that a reset stores. -/
def reset (s : StateStore) : StateStore :=
  { s with
    profile := .default, knownGood := .default, pending := none, failures := 0
    configError := none, recoveredTrial := false }

end StateStore

namespace Host

variable (enc : Encoding) (h : Host)

/-- The file holds the complete defaults, with the receiver that the store has selected. -/
def HoldsDefaults (s : StateStore) (t : Host) : Prop :=
  ∃ raw, enc.dumps s.reset.document = some raw ∧ t.path = .file raw ∧
    saved enc t.path = some { Settings.default with selectedDevice := s.selectedDevice }

/-- The backup of the file is missing or complete. -/
def BackupFits : Prop :=
  ∀ raw, h.path = .file raw →
    h.backups (StateStore.backupName (enc.sha256 raw)) = .absent ∨
      h.backups (StateStore.backupName (enc.sha256 raw)) = .file raw

/-- The backup of the file holds less than the file. -/
def Torn : Prop :=
  ∃ raw part, h.path = .file raw ∧ part <+: raw ∧ part ≠ raw ∧
    h.backups (StateStore.backupName (enc.sha256 raw)) = .file part

/-- A reset without faults succeeds, leaves the defaults and keeps the old file. -/
def Restores : Prop :=
  ∃ name, (StateStore.restoreDefaults enc (fun _ => false) h).1 = .ok name ∧
    let t := (StateStore.restoreDefaults enc (fun _ => false)).final h
    HoldsDefaults enc h.store t ∧
      t.store.settings = { Settings.default with selectedDevice := h.store.selectedDevice } ∧
      ∀ raw, h.path = .file raw → name = some (StateStore.backupName (enc.sha256 raw)) ∧
        t.backups (StateStore.backupName (enc.sha256 raw)) = .file raw

/-- The backups that a reset of the host can leave. -/
def Copied (t : Host) : Prop :=
  t.backups = h.backups ∨ ∃ raw part, h.path = .file raw ∧ part <+: raw ∧
    t.backups = (h.withBackup (StateStore.backupName (enc.sha256 raw)) part).backups

/-- What a reset leaves when it is interrupted. -/
structure Resetting (t : Host) : Prop where
  path : t.path = h.path ∨ HoldsDefaults enc h.store t
  copied : h.Copied enc t

end Host

section Interrupted

variable {enc : Encoding} {faults : FileOp → Bool} {α : Type} {h t : Host} {crash : Host → Prop}
  {post : α → Host → Prop} {fail : StoreError → Host → Prop}

theorem reset_printable (s : StateStore) : ∃ raw, enc.dumps s.reset.document = some raw :=
  enc.dumps_printable _ (document_printable rfl (Nat.zero_le 3))

theorem holdsDefaults_of_dumps {s : StateStore} {raw : Bytes}
    (hraw : enc.dumps s.reset.document = some raw) (hpath : t.path = .file raw) :
    Host.HoldsDefaults enc s t := by
  refine ⟨raw, hraw, hpath, ?_⟩
  rw [hpath]
  exact saved_document (Nat.zero_le 3) hraw

theorem wp_durableChange_at {method : StoreCall α}
    (hmethod : method.wp crash post (fun e t =>
      (t.store.diskHash = h.store.diskHash → crash (h.rollback t) ∧ fail e (h.rollback t)) ∧
        (t.store.diskHash ≠ h.store.diskHash → fail e t)) h) :
    (StateStore.durableChange method).wp crash post fail h := by
  simp only [StateStore.durableChange, Call.wp_bind, Call.wp_get, Call.wp_tryCatch]
  apply hmethod.mono
  · intro _ _ hpost
    exact hpost
  · rintro e t ⟨hsame, hother⟩
    split
    · next heq =>
      simp only [Call.wp_bind, wp_modify_at, Call.wp_throw]
      exact hsame heq
    · next hne => exact Call.wp_throw _ |>.mpr (hother hne)

theorem Host.Resetting.refl : h.Resetting enc h :=
  ⟨.inl rfl, .inl rfl⟩

/-- A call that raises before it has replaced the file has changed no attribute. -/
def Unchanged (h t : Host) : Prop :=
  t.replaced = h.replaced → t.store = h.store

/-- What the wrapper of the call asks of an error that is raised inside it. -/
def RaisedInside (enc : Encoding) (h t : Host) : Prop :=
  (t.store.diskHash = h.store.diskHash →
      h.Resetting enc (h.rollback t) ∧ Unchanged h (h.rollback t)) ∧
    (t.store.diskHash ≠ h.store.diskHash → Unchanged h t)

theorem raisedInside_of_resetting (hr : h.Resetting enc t)
    (hhash : t.store.diskHash = h.store.diskHash) : RaisedInside enc h t := by
  refine ⟨fun _ => ⟨⟨hr.path, hr.copied⟩, fun _ => ?_⟩, fun hne => absurd hhash hne⟩
  rw [Host.rollback, hhash]

theorem raisedInside_of_replaced (hr : h.Resetting enc t) (hnext : t.replaced = h.replaced + 1) :
    RaisedInside enc h t := by
  constructor
  · intro _
    refine ⟨⟨hr.path, hr.copied⟩, fun hsame => ?_⟩
    have : t.replaced = h.replaced := hsame
    omega
  · intro _ hsame
    omega

/-- Saving the defaults, after the backup has been kept. -/
theorem wp_saveDefaults (hstore : t.store = h.store) (hpath : t.path = h.path)
    (hreplaced : t.replaced = h.replaced) (hcopied : h.Copied enc t) :
    (StateStore.save enc faults).wp (h.Resetting enc) (fun _ _ => True)
      (fun _ => RaisedInside enc h) { t with store := t.store.reset } := by
  apply wp_save_at
  · intro e _
    have hr : h.Resetting enc { t with store := t.store.reset } := ⟨.inl hpath, hcopied⟩
    apply raisedInside_of_resetting hr
    rw [← hstore]
    rfl
  · intro raw hraw _ _
    rw [hstore] at hraw
    have hwritten : ∀ s, h.Resetting enc
        { Host.written enc { t with store := t.store.reset } raw with store := s } :=
      fun s => ⟨.inr (holdsDefaults_of_dumps hraw rfl), hcopied⟩
    refine ⟨hwritten _, hwritten _, trivial, ?_⟩
    apply raisedInside_of_replaced (hwritten _)
    rw [← hreplaced]
    rfl

theorem wp_storeDefaults (hstore : t.store = h.store) (hpath : t.path = h.path)
    (hreplaced : t.replaced = h.replaced) (hcopied : h.Copied enc t) :
    (StateStore.modify StateStore.reset).wp (h.Resetting enc)
      (fun _ => (StateStore.save enc faults).wp (h.Resetting enc) (fun _ _ => True)
        fun _ => RaisedInside enc h) (fun _ => RaisedInside enc h) t :=
  wp_modify_at.mpr ⟨⟨.inl hpath, hcopied⟩, wp_saveDefaults hstore hpath hreplaced hcopied⟩

theorem currentHash_file {raw : Bytes} {name : String}
    (hcurrent : StateStore.currentHash enc h.path = .ok (some name)) (hpath : h.path = .file raw) :
    name = enc.sha256 raw := by
  rw [hpath] at hcurrent
  exact (Option.some.inj (Except.ok.inj hcurrent)).symm

theorem wp_resetting : (StateStore.restoreDefaults enc faults).wp (h.Resetting enc)
    (fun _ _ => True) (fun _ => Unchanged h) h := by
  have hback : RaisedInside enc h h := raisedInside_of_resetting .refl rfl
  apply wp_durableChange_at
  simp only [Call.wp_bind, Call.wp_get]
  apply wp_attempt _ hback
  split
  · exact Call.wp_throw _ |>.mpr hback
  simp only [Call.wp_bind]
  apply wp_attempt _ hback
  rw [Call.wp_ofExcept]
  cases hcurrent : StateStore.currentHash enc h.path with
  | error e => exact hback
  | ok digest =>
      simp only
      split
      · exact Call.wp_throw _ |>.mpr hback
      · split
        · next raw name hpath _ =>
          have hname := currentHash_file hcurrent hpath
          have hcopied : ∀ part, part <+: raw →
              h.Copied enc (h.withBackup (StateStore.backupName name) part) := by
            intro part hpart
            exact .inr ⟨raw, part, hpath, hpart, by rw [hname]⟩
          simp only [Call.wp_bind, Call.wp_pure]
          apply wp_keepBackup_at
          · intro _
            exact wp_storeDefaults rfl rfl rfl (hcopied raw List.prefix_rfl)
          · intro _
            exact wp_storeDefaults rfl rfl rfl (.inl rfl)
          · intro part hpart
            exact ⟨.inl rfl, hcopied part hpart⟩
          · intro part hpart
            exact raisedInside_of_resetting ⟨.inl rfl, hcopied part hpart⟩ rfl
          · exact fun _ => hback
        · simp only [Call.wp_bind, Call.wp_pure]
          exact wp_storeDefaults rfl rfl rfl (.inl rfl)

end Interrupted

section Retried

variable {enc : Encoding} {h t : Host} {fail : StoreError → Host → Prop}

/-- No operation of the system fails. -/
abbrev quiet : FileOp → Bool := fun _ => false

@[simp] theorem wp_attempt_quiet {op : FileOp} {post : Unit → Host → Prop} :
    (StateStore.attempt quiet op).wp Anywhere post fail h ↔ post () h :=
  Call.wp_pure _

theorem ne_symlink {digest : Option String}
    (hcurrent : StateStore.currentHash enc h.path = .ok digest) : h.path ≠ .symlink := by
  intro hpath
  rw [hpath] at hcurrent
  cases hcurrent

theorem wp_save_quiet {raw : Bytes} {post : Unit → Host → Prop}
    (hconfig : h.store.configError = none)
    (hcurrent : StateStore.currentHash enc h.path = .ok h.store.diskHash)
    (hraw : enc.dumps h.store.document = some raw) (hpost : post () (h.written enc raw)) :
    (StateStore.save enc quiet).wp Anywhere post fail h := by
  have hlink := ne_symlink hcurrent
  simp only [StateStore.save, Call.wp_bind, Call.wp_get, hconfig, Option.isSome_none,
    Bool.false_eq_true, if_false, wp_attempt_quiet, hlink, hcurrent, Call.wp_ofExcept, ne_eq,
    not_true_eq_false, hraw, StateStore.writeTemporary, StateStore.replacePath,
    StateStore.syncDirectory, Call.wp_tryCatch, Call.wp_update, wp_modify]
  simp only [Host.written, hconfig] at hpost
  exact ⟨trivial, hpost⟩

theorem wp_writeBackup_quiet {name : String} {raw written rest : Bytes}
    {post : Unit → Host → Prop} (hraw : written ++ rest = raw)
    (hpost : post () (h.withBackup name raw)) :
    (StateStore.writeBackup quiet name written rest).wp Anywhere post fail
      (h.withBackup name written) := by
  induction rest generalizing written with
  | nil =>
      rw [List.append_nil] at hraw
      exact Call.wp_pure _ |>.mpr (hraw ▸ hpost)
  | cons byte rest ih =>
      rw [StateStore.writeBackup, Call.wp_bind, wp_attempt_quiet, Call.wp_bind, Call.wp_update,
        Host.withBackup_withBackup]
      exact ⟨trivial, ih (by simp [← hraw])⟩

/-- A backup that is missing or complete is complete afterwards. -/
theorem wp_keepBackup_quiet {raw : Bytes} {digest : String} {post : Unit → Host → Prop}
    (hfits : h.backups (StateStore.backupName digest) = .absent ∨
      h.backups (StateStore.backupName digest) = .file raw)
    (hpost : post () (h.withBackup (StateStore.backupName digest) raw)) :
    (StateStore.keepBackup quiet raw digest).wp Anywhere post fail h := by
  simp only [StateStore.keepBackup, Call.wp_bind, Call.wp_get]
  split
  · simp only [Call.wp_bind, wp_attempt_quiet, Call.wp_update]
    exact ⟨trivial, wp_writeBackup_quiet (List.nil_append raw) hpost⟩
  · next hsome =>
    have hsame := hfits.resolve_left hsome
    have hkept : h.withBackup (StateStore.backupName digest) raw = h := by
      rw [Host.withBackup, ← hsame, Function.update_eq_self]
    rw [hkept] at hpost
    simpa [hsame] using hpost

/-- The host with its defaults saved. -/
def Host.restored (enc : Encoding) (h : Host) (raw : Bytes) : Host :=
  Host.written enc { h with store := h.store.reset } raw

theorem wp_saveReset_quiet {raw : Bytes} {post : Unit → Host → Prop}
    (hcurrent : StateStore.currentHash enc h.path = .ok h.store.diskHash)
    (hraw : enc.dumps h.store.reset.document = some raw) (hpost : post () (h.restored enc raw)) :
    (StateStore.modify StateStore.reset).wp Anywhere
      (fun _ => (StateStore.save enc quiet).wp Anywhere post fail) fail h :=
  wp_modify.mpr (wp_save_quiet rfl hcurrent hraw hpost)

/-- The host with the old file kept. -/
def Host.kept (enc : Encoding) (h : Host) : Host :=
  match h.path with
  | .file old => h.withBackup (StateStore.backupName (enc.sha256 old)) old
  | _ => h

theorem wp_restores (hcurrent : StateStore.currentHash enc h.path = .ok h.store.diskHash)
    (hfits : h.BackupFits enc) {raw : Bytes} (hraw : enc.dumps h.store.reset.document = some raw) :
    (StateStore.restoreDefaults enc quiet).wp Anywhere
      (fun name t => name = h.store.diskHash.map StateStore.backupName ∧
        t = (h.kept enc).restored enc raw) (fun _ _ => False) h := by
  have hlink := ne_symlink hcurrent
  rw [StateStore.restoreDefaults, wp_durableChange]
  simp only [Call.wp_bind, Call.wp_get, wp_attempt_quiet, hlink, if_false, Call.wp_ofExcept,
    hcurrent, ne_eq, not_true_eq_false]
  split
  · next old digest hpath hdigest =>
    have hkept : h.kept enc = h.withBackup (StateStore.backupName (enc.sha256 old)) old := by
      simp only [Host.kept, hpath]
    have hname := currentHash_file (hdigest ▸ hcurrent) hpath
    rw [hname, hkept]
    simp only [Call.wp_bind, Call.wp_pure]
    apply wp_keepBackup_quiet (hfits old hpath)
    exact wp_saveReset_quiet hcurrent hraw ⟨trivial, rfl⟩
  · next hnone =>
    have hkept : h.kept enc = h := by
      cases hpath : h.path with
      | file old =>
          rw [hpath] at hcurrent
          exact absurd (Except.ok.inj hcurrent).symm (hnone _ _ hpath)
      | _ => simp only [Host.kept, hpath]
    rw [hkept]
    simp only [Call.wp_bind, Call.wp_pure]
    exact wp_saveReset_quiet hcurrent hraw ⟨trivial, rfl⟩

/-- A backup that is neither missing nor complete stops every reset. -/
theorem wp_refused {raw : Bytes} (hpath : h.path = .file raw)
    (hcurrent : StateStore.currentHash enc h.path = .ok h.store.diskHash)
    (hsome : h.backups (StateStore.backupName (enc.sha256 raw)) ≠ .absent)
    (hother : h.backups (StateStore.backupName (enc.sha256 raw)) ≠ .file raw) :
    (StateStore.restoreDefaults enc quiet).wp Anywhere (fun _ _ => False) (fun _ _ => True) h := by
  have hdigest : h.store.diskHash = some (enc.sha256 raw) := by
    rw [hpath] at hcurrent
    exact (Except.ok.inj hcurrent).symm
  rw [StateStore.restoreDefaults, wp_durableChange]
  simp only [Call.wp_bind, Call.wp_get, wp_attempt_quiet, hpath, reduceCtorEq, if_false,
    StateStore.currentHash, Call.wp_ofExcept, hdigest, ne_eq, not_true_eq_false,
    StateStore.keepBackup, hsome, hother, not_false_eq_true, if_true, Call.wp_throw]

theorem restores_iff (hcurrent : StateStore.currentHash enc h.path = .ok h.store.diskHash) :
    h.Restores enc ↔ h.BackupFits enc := by
  constructor
  · rintro ⟨name, hok, -⟩ raw hpath
    by_contra hbroken
    rw [not_or] at hbroken
    exact (wp_refused hpath hcurrent hbroken.1 hbroken.2).ok hok
  · intro hfits
    obtain ⟨raw, hraw⟩ := @reset_printable enc h.store
    obtain ⟨name, hok, hname, hfinal⟩ := (wp_restores hcurrent hfits hraw).returns
    refine ⟨name, hok, ?_⟩
    rw [hfinal]
    have hstore : (h.kept enc).store = h.store := by
      unfold Host.kept
      split <;> rfl
    refine ⟨holdsDefaults_of_dumps hraw rfl, ?_, ?_⟩
    · simp only [Host.restored, hstore]
      rfl
    · intro old hpath
      have hdigest : h.store.diskHash = some (enc.sha256 old) := by
        rw [hpath] at hcurrent
        exact (Except.ok.inj hcurrent).symm
      refine ⟨by rw [hname, hdigest]; rfl, ?_⟩
      simp [Host.restored, Host.written, Host.kept, hpath, Host.withBackup]

/-- An interrupted reset leaves a backup that fits unless it was cut short. -/
theorem fits_iff_not_torn (hfits : h.BackupFits enc) (hcopied : h.Copied enc t)
    (hpath : t.path = h.path) : t.BackupFits enc ↔ ¬ t.Torn enc := by
  constructor
  · rintro hfits' ⟨raw, part, hraw, -, hne, hpart⟩
    obtain habsent | hsame := hfits' raw hraw
    · rw [hpart] at habsent
      cases habsent
    · rw [hpart] at hsame
      exact hne (PathNode.file.inj hsame)
  · intro htorn raw hraw
    obtain hcopied | ⟨old, part, hold, hpart, hcopied⟩ := hcopied
    · rw [hcopied]
      exact hfits raw (hpath ▸ hraw)
    · obtain rfl : old = raw := PathNode.file.inj (hold.symm.trans (hpath ▸ hraw))
      have hback : t.backups (StateStore.backupName (enc.sha256 old)) = .file part := by
        rw [hcopied]
        exact Function.update_self _ _ _
      by_cases heq : part = old
      · exact .inr (heq ▸ hback)
      · exact absurd ⟨old, part, hraw, hpart, heq, hback⟩ htorn

/-- A reset, interrupted anywhere, leaves the old file or the defaults; one that raises
before the file is replaced changes no attribute; and a later reset by a store that has
read the file restores the defaults exactly when the backup is missing or complete. -/
theorem restore_defaults_retriable (enc : Encoding) (faults : FileOp → Bool) (h : Host)
    (updates : Nat) :
    let call := StateStore.restoreDefaults enc faults
    let t := call.upTo updates h
    (t.path = h.path ∨ Host.HoldsDefaults enc h.store t) ∧
      (∀ e, (call h).1 = .error e → (call.final h).replaced = h.replaced →
        (call.final h).store = h.store) ∧
      (∀ s, StateStore.currentHash enc t.path = .ok s.diskHash →
        (Host.Restores enc { t with store := s } ↔ t.BackupFits enc)) ∧
      (h.BackupFits enc → t.path = h.path → (t.BackupFits enc ↔ ¬ t.Torn enc)) := by
  intro call t
  have hwp : call.wp (h.Resetting enc) (fun _ _ => True) (fun _ => Unchanged h) h := wp_resetting
  have hr : h.Resetting enc t := hwp.upTo .refl updates
  refine ⟨hr.path, fun e he => hwp.failed he, ?_, fun hfits hpath =>
    fits_iff_not_torn hfits hr.copied hpath⟩
  intro s hs
  exact restores_iff (h := { t with store := s }) hs

/-- Only the first byte of a file of two is written before the disk is full. -/
def cutShort : FileOp → Bool := fun op => op = .writeBackup 1

/-- A store that could not read its file of two bytes. -/
def brokenHost : Host :=
  ⟨{ StateStore.initial with
      configError := some ⟨"invalid", by decide⟩
      diskHash := some (Encoding.tagged.sha256 [1, 2]) },
    .file [1, 2], fun _ => .absent, some [1, 2], 0⟩

/-- What its reset leaves when the disk is full. -/
def fullDisk : Host :=
  (StateStore.restoreDefaults Encoding.tagged cutShort).upTo 3 brokenHost

theorem fullDisk_path : fullDisk.path = .file [1, 2] := by decide +kernel

theorem fullDisk_backup :
    fullDisk.backups (StateStore.backupName (Encoding.tagged.sha256 [1, 2])) = .file [1] := by
  decide +kernel

/-- The reset that runs out of space keeps every later one from succeeding. -/
theorem reset_cut_short :
    ¬ ∀ (enc : Encoding) (faults : FileOp → Bool) (h : Host) (updates : Nat) (s : StateStore),
      let t := (StateStore.restoreDefaults enc faults).upTo updates h
      h.BackupFits enc → StateStore.currentHash enc t.path = .ok s.diskHash →
        Host.Restores enc { t with store := s } := by
  intro h
  have hcurrent : StateStore.currentHash Encoding.tagged fullDisk.path =
      .ok brokenHost.store.diskHash := by
    rw [fullDisk_path]
    rfl
  have hrestores := h Encoding.tagged cutShort brokenHost 3 brokenHost.store (fun _ _ => .inl rfl)
    hcurrent
  have hfits := (restores_iff (h := { fullDisk with store := brokenHost.store }) hcurrent).mp hrestores
  have hbackup := hfits [1, 2] fullDisk_path
  rw [fullDisk_backup] at hbackup
  obtain habsent | hsame := hbackup
  · cases habsent
  · cases hsame

end Retried

end HccastWired.Desktop
