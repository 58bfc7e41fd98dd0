import HccastWired.Desktop.StoreDurability
import HccastWired.Desktop.ControllerRules

/-!
# Where the kept settings come from

A display mode is only kept if it was tried: a stream has started the media with it and seen
them ready, the trial was begun after that, and it is kept before its deadline.
-/

namespace HccastWired.Desktop.Controller

open Foundation

section Spec

/-- The task has started the media with the profile last, and they have become ready since. -/
def Shown (task : TaskId) (profile : Profile) (log : List Event) : Prop :=
  ∃ newer middle older link gate,
    log = newer ++ .returned task .ready :: (middle ++ .called task (.start link profile) gate :: older) ∧
      ∀ link' profile' gate', .called task (.start link' profile') gate' ∉ newer ++ middle

/-- The pending trial was begun for twenty seconds when its profile had been shown; it has been
pending since. -/
def Begun (trial : Trial) (log : List Event) : Prop :=
  ∃ newer older task now before after,
    log = newer ++ .saved task (.beginTrial (some trial.profile) now) before after :: older ∧
      trial.deadline = now.add (.int 20) ∧ Shown task trial.profile older ∧ after.pending = some trial ∧
      ∀ i operation b a, .saved i operation b a ∈ newer → a.pending = some trial

/-- Why a call of the store may change the profile or the known good one. -/
inductive Justified (before after : StateStore) (older : List Event) : StoreOperation → Prop
  | unchanged (operation : StoreOperation) (profile : after.profile = before.profile)
      (knownGood : after.knownGood = before.knownGood) : Justified before after older operation
  | defaults (profile : after.profile = .default) (knownGood : after.knownGood = .default) :
      Justified before after older .restoreDefaults
  /-- The third failure goes back to the known good profile. -/
  | failures (third : 2 ≤ before.failures) (profile : after.profile = before.knownGood)
      (knownGood : after.knownGood = before.knownGood) : Justified before after older .recordFailure
  | confirmed (trial : Trial) (now : Number) (begun : Begun trial older) (pending : before.pending = some trial)
      (inTime : trial.deadline.le now = false) (profile : after.profile = trial.profile)
      (knownGood : after.knownGood = trial.profile) : Justified before after older (.confirmTrial now)

/-- Every call of the store in the history was justified. -/
def Accounted (log : List Event) : Prop :=
  ∀ newer older task operation before after, log = newer ++ .saved task operation before after :: older →
    Justified before after older operation

end Spec

/-- What holds of the store whenever a task runs on. -/
structure Trials (enc : Encoding) (s : State) : Prop where
  store : StoreInv enc s.host
  pending : ∀ trial, s.pending = some trial → Begun trial s.log
  accounted : Accounted s.log

section Store

variable {enc : Encoding} {task : TaskId} {s t : State} {m : Move} {operation : StoreOperation}
  {old new : Settings}

theorem wp_final {σ ε α : Type} {crash P : σ → Prop} {x : Call σ ε α} {s : σ}
    (h : x.wp crash (fun _ => P) (fun _ => P) s) : P (x.final s) := by
  cases hx : (x s).1 with
  | ok a => exact h.ok hx
  | error e => exact h.failed hx

theorem edited_inv {h : Host} (hI : StoreInv enc h) (edit : Option PathNode) :
    StoreInv enc (Host.edited h edit) :=
  ⟨hI.hash, hI.agrees, hI.broken, hI.failures⟩

/-- A call of the store ends in its target, or leaves the settings as they are. -/
theorem storeCall_settings {h : Host} (hI : StoreInv enc h) (faults : FileOp → Bool) :
    Raised enc operation h ((storeCall enc faults operation).final h) := by
  have hrun := wp_run hI operation faults
  have hraised : ∀ t, Returned enc operation h t → Raised enc operation h t := fun t ht =>
    ht.imp (fun hk => hk.2) id
  cases operation with
  | confirmTrial now =>
    have hbind := Call.wp_bind.mp hrun
    exact wp_final (hbind.mono (fun _ t ht => hraised t ((Call.wp_pure ()).mp ht)) fun _ _ ht => ht)
  | _ =>
    refine @wp_final _ _ _ Anywhere _ _ _ (Call.wp_bind.mpr ?_)
    exact hrun.mono (fun _ t ht => (Call.wp_pure true).mpr (hraised t ht)) fun _ _ ht => ht

theorem save_settings (hI : StoreInv enc s.host) :
    StoreInv enc (saveStep enc task m operation s).2.host ∧
      ((saveStep enc task m operation s).2.store.settings = s.store.settings ∨
        operation.target s.store.settings = some (saveStep enc task m operation s).2.store.settings) := by
  have hedited := edited_inv hI m.edit
  obtain hkept | ⟨new, htarget, hchanged⟩ := @storeCall_settings enc operation _ hedited m.faults
  · exact ⟨hkept.inv hedited, .inl (congrArg StateStore.settings hkept.store)⟩
  · exact ⟨hchanged.inv, .inr (htarget.trans (congrArg some hchanged.settings.symm))⟩

/-- Only the beginning of a trial makes one pending. -/
theorem target_pending (hoperation : isBegin operation = false) (h : operation.target old = some new) :
    new.pending = none ∨ new.pending = old.pending := by
  cases operation with
  | selectDevice address name =>
    simp only [StoreOperation.target] at h
    split at h
    · cases h
      exact .inr rfl
    · cases h
  | beginTrial profile now => cases hoperation
  | confirmTrial now =>
    simp only [StoreOperation.target] at h
    split at h
    · cases h
    · split at h
      · cases h
        exact .inl rfl
      · cases h
        exact .inl rfl
  | revertTrial =>
    cases h
    exact .inl rfl
  | recordFailure =>
    simp only [StoreOperation.target] at h
    split at h
    · cases h
      exact .inl rfl
    · cases h
      exact .inr rfl
  | recordSuccess =>
    cases h
    exact .inr rfl
  | restoreDefaults =>
    cases h
    exact .inl rfl

/-- What a target says of the profiles. -/
theorem target_justified {before after : StateStore} {older : List Event}
    (hbegun : ∀ trial, before.pending = some trial → Begun trial older)
    (h : operation.target before.settings = some after.settings) :
    Justified before after older operation := by
  have hfields : ∀ p k d f q, some (Settings.mk p k d f q) = some after.settings →
      after.profile = p ∧ after.knownGood = k := by
    intro p k d f q heq
    obtain ⟨rfl, rfl, -⟩ := Settings.mk.inj (Option.some.inj heq)
    exact ⟨rfl, rfl⟩
  cases operation with
  | selectDevice address name =>
    simp only [StoreOperation.target] at h
    split at h
    · obtain ⟨hprofile, hgood⟩ := hfields _ _ _ _ _ h
      exact .unchanged _ hprofile hgood
    · cases h
  | beginTrial profile now =>
    simp only [StoreOperation.target] at h
    split at h
    · obtain ⟨hprofile, hgood⟩ := hfields _ _ _ _ _ h
      exact .unchanged _ hprofile hgood
    · cases h
  | confirmTrial now =>
    simp only [StoreOperation.target] at h
    split at h
    · cases h
    · next trial hpending =>
      split at h
      · obtain ⟨hprofile, hgood⟩ := hfields _ _ _ _ _ h
        exact .unchanged _ hprofile hgood
      · next hintime =>
        obtain ⟨hprofile, hgood⟩ := hfields _ _ _ _ _ h
        exact .confirmed trial now (hbegun trial hpending) hpending (Bool.eq_false_iff.mpr hintime) hprofile hgood
  | revertTrial =>
    obtain ⟨hprofile, hgood⟩ := hfields _ _ _ _ _ h
    exact .unchanged _ hprofile hgood
  | recordFailure =>
    simp only [StoreOperation.target] at h
    split at h
    · next hthird =>
      obtain ⟨hprofile, hgood⟩ := hfields _ _ _ _ _ h
      exact .failures hthird hprofile hgood
    · obtain ⟨hprofile, hgood⟩ := hfields _ _ _ _ _ h
      exact .unchanged _ hprofile hgood
  | recordSuccess =>
    obtain ⟨hprofile, hgood⟩ := hfields _ _ _ _ _ h
    exact .unchanged _ hprofile hgood
  | restoreDefaults =>
    obtain ⟨hprofile, hgood⟩ := hfields _ _ _ _ _ h
    exact .defaults hprofile hgood

end Store

section Steps

variable {enc : Encoding} {task : TaskId} {s t : State} {m : Move} {operation : StoreOperation}
  {trial : Trial} {log newer : List Event} {e : Event}

theorem Accounted.cons (h : Accounted log) (he : ∀ i operation before after,
    e = .saved i operation before after → Justified before after log operation) : Accounted (e :: log) := by
  intro newer older i operation before after heq
  cases newer with
  | nil =>
    obtain ⟨rfl, rfl⟩ := List.cons.inj heq
    exact he i operation before after rfl
  | cons first newer =>
    obtain ⟨-, htail⟩ := List.cons.inj heq
    exact h newer older i operation before after htail

/-- A trial stays begun while it is pending. -/
theorem Begun.cons (h : Begun trial log)
    (he : ∀ i operation b a, e = .saved i operation b a → a.pending = some trial) : Begun trial (e :: log) := by
  obtain ⟨newer, older, i, now, before, after, hlog, hdeadline, hshown, hafter, hsince⟩ := h
  refine ⟨e :: newer, older, i, now, before, after, congrArg (List.cons e) hlog, hdeadline, hshown, hafter,
    fun j operation b a hmem => ?_⟩
  obtain heq | hmem := List.mem_cons.mp hmem
  · exact he j operation b a heq.symm
  · exact hsince j operation b a hmem

theorem Trials.record (h : Trials enc s) (he : ∀ i operation b a, e ≠ .saved i operation b a) :
    Trials enc (s.record e) where
  store := h.store
  pending trial htrial := (h.pending trial htrial).cons fun i operation b a heq => absurd heq (he i operation b a)
  accounted := h.accounted.cons fun i operation b a heq => absurd heq (he i operation b a)

/-- What is done without the store keeps the trials. -/
theorem Trials.append (h : Trials enc s) (hhost : t.host = s.host) (hlog : t.log = newer ++ s.log)
    (hnewer : ∀ e ∈ newer, ∀ i operation b a, e ≠ .saved i operation b a) : Trials enc t := by
  have hall : (∀ trial, s.pending = some trial → Begun trial (newer ++ s.log)) ∧ Accounted (newer ++ s.log) := by
    clear hlog
    induction newer with
    | nil => exact ⟨h.pending, h.accounted⟩
    | cons e newer ih =>
      obtain ⟨hbegun, haccounted⟩ := ih fun e' he' => hnewer e' (List.mem_cons_of_mem e he')
      have he := hnewer e List.mem_cons_self
      exact ⟨fun trial htrial => (hbegun trial htrial).cons fun i operation b a heq =>
        absurd heq (he i operation b a), haccounted.cons fun i operation b a heq =>
          absurd heq (he i operation b a)⟩
  have hpending : t.pending = s.pending := congrArg (fun h : Host => h.store.pending) hhost
  exact ⟨hhost ▸ h.store, fun trial htrial => hlog ▸ hall.1 trial (hpending ▸ htrial), hlog ▸ hall.2⟩

theorem Trials.quiet (h : Trials enc s) (hquiet : Quiet task s t) : Trials enc t := by
  obtain ⟨newer, hlog, hnewer⟩ := hquiet.log
  refine h.append hquiet.host hlog fun e he i operation b a heq => ?_
  have hfalse := (hnewer e he).1
  rw [heq] at hfalse
  cases hfalse

theorem Trials.create {kind : Kind} (h : Trials enc s) : Trials enc (createStep task kind s).2 := by
  refine @Trials.append enc s _ [_] h rfl rfl fun e he i operation b a heq => ?_
  cases List.mem_singleton.mp he
  cases heq

theorem Trials.write {f : Attributes → Attributes} (h : Trials enc s) : Trials enc (writeStep task f s) := by
  have hwritten : Trials enc { s with toAttributes := f s.toAttributes } :=
    @Trials.append enc s _ [] h rfl rfl fun _ he => absurd he List.not_mem_nil
  rw [writeStep]
  dsimp only
  split
  · exact hwritten
  · exact hwritten.record fun i operation b a heq => by cases heq

theorem Trials.outside {event : Outside} (h : Trials enc s) (houtside : outside event s = some t) :
    Trials enc t := by
  have hnone : ∀ e ∈ ([] : List Event), ∀ i operation b a, e ≠ .saved i operation b a :=
    fun _ he => absurd he List.not_mem_nil
  cases event with
  | request kind =>
    simp only [Controller.outside] at houtside
    split at houtside
    · cases houtside
      exact h.append rfl rfl hnone
    · cases houtside
  | abandon i =>
    simp only [Controller.outside] at houtside
    split at houtside
    · cases houtside
      exact h.append rfl rfl hnone
    · cases houtside

/-- A call of the store is accounted for. -/
theorem Trials.justified (h : Trials enc s) :
    Justified s.store (saveStep enc task m operation s).2.store s.log operation := by
  obtain ⟨-, hkept | htarget⟩ := @save_settings enc task s m operation h.store
  · exact .unchanged _ (congrArg Settings.profile hkept) (congrArg Settings.knownGood hkept)
  · exact target_justified h.pending htarget

theorem Trials.accountedFor (h : Trials enc s) : Accounted (saveStep enc task m operation s).2.log := by
  refine h.accounted.cons ?_
  rintro i operation' before after heq
  cases heq
  exact @Trials.justified enc task s m operation h

/-- A call of the store that begins no trial. -/
theorem Trials.saved (h : Trials enc s) (hoperation : isBegin operation = false) :
    Trials enc (saveStep enc task m operation s).2 := by
  obtain ⟨hstore, hsettings⟩ := @save_settings enc task s m operation h.store
  refine ⟨hstore, fun trial htrial => ?_, h.accountedFor⟩
  have hold : s.pending = some trial := by
    obtain hkept | htarget := hsettings
    · exact (congrArg Settings.pending hkept).symm.trans htrial
    · obtain hnone | hsame := target_pending hoperation htarget
      · rw [State.pending] at htrial
        cases hnone.symm.trans htrial
      · exact hsame.symm.trans htrial
  refine (h.pending trial hold).cons ?_
  rintro i operation' b a heq
  cases heq
  exact htrial

/-- A trial is begun for a profile that has been shown. -/
theorem Trials.begin {profile : Profile} {now : Number} (h : Trials enc s) (hshown : Shown task profile s.log) :
    Trials enc (saveStep enc task m (.beginTrial (some profile) now) s).2 := by
  obtain ⟨hstore, hsettings⟩ := @save_settings enc task s m (.beginTrial (some profile) now) h.store
  refine ⟨hstore, fun trial htrial => ?_, h.accountedFor⟩
  obtain hkept | htarget := hsettings
  · refine (h.pending trial ((congrArg Settings.pending hkept).symm.trans htrial)).cons ?_
    rintro i operation' b a heq
    cases heq
    exact htrial
  · simp only [StoreOperation.target] at htarget
    split at htarget
    · next hprofile =>
      have hnew := congrArg Settings.pending (Option.some.inj htarget)
      obtain rfl := Option.some.inj (hnew.trans htrial)
      cases hprofile
      exact ⟨[], s.log, task, now, _, _, rfl, rfl, hshown, htrial, fun i operation b a hmem =>
        absurd hmem List.not_mem_nil⟩
    · cases htarget

/-- A store that has been loaded has no trial. -/
theorem create_pending {faults : FileOp → Bool} {path : PathNode} {backups : String → PathNode} {host : Host}
    (hcreate : StateStore.create enc faults path backups = .ok host) : host.store.pending = none := by
  cases path with
  | absent =>
    cases hcreate
    rfl
  | symlink => cases hcreate
  | other => cases hcreate
  | file raw =>
    simp only [StateStore.create] at hcreate
    split at hcreate
    · cases hcreate
    split at hcreate
    · cases hcreate
      rfl
    · cases hcreate
    · cases hcreate
    · split at hcreate
      · have hsaved : ∀ h : Host, h.store.pending = none →
            ((StateStore.save enc faults).final h).store.pending = none := fun h hnone =>
          @wp_final _ _ _ Anywhere (fun t => t.store.pending = none) _ _
            (wp_save (fun _ _ => hnone) fun _ _ _ _ => ⟨hnone, hnone⟩)
        split at hcreate
        · cases hcreate
          exact hsaved _ rfl
        · cases hcreate
          exact hsaved _ rfl
        · cases hcreate
      · cases hcreate
        rfl

theorem trials_initial {host : Host} (hstore : StoreInv enc host) (hpending : host.store.pending = none) :
    Trials enc (initial host) where
  store := hstore
  pending trial htrial := by
    cases hpending.symm.trans htrial
  accounted := by
    intro newer older i operation before after heq
    exact absurd (congrArg List.length heq) (by simp [initial])

end Steps

end HccastWired.Desktop.Controller
