import HccastWired.Network.Invariant

/-!
# Every step keeps the helper's invariant

One lemma per function of the model, in the order of `Helper`; a step is then
a case distinction on the program counter and the reply.
-/

namespace HccastWired.Network

open Foundation World

variable {w : World} {id : Nat} {s : Sender}

/-- Events the invariant does not look at. -/
def LogEvent.isSilent : LogEvent → Bool
  | .wrote _ => false
  | .snapshotTaken _ => false
  | e => e.isNeutral

theorem LogEvent.isNeutral_of_isSilent {e : LogEvent} (h : e.isSilent = true) : e.isNeutral = true := by
  cases e <;> first | exact h | cases h

theorem Core.note (hc : Core w) {e : LogEvent} (he : e.isSilent = true) : Core (w.note e) where
  disk := hc.disk.neutral (LogEvent.isNeutral_of_isSilent he)
  record := hc.record.neutral (LogEvent.isNeutral_of_isSilent he)
  honest := by
    have := hc.honest
    cases e <;> first | exact this | cases he
  table := hc.table

theorem Lease.note (hc : Lease w) {e : LogEvent} (he : e.isNeutral = true) :
    Lease (w.note e) := by
  cases hc with
  | idle h₁ h₂ h₃ => exact .idle h₁ h₂ h₃
  | blocked h₁ h₂ h₃ h₄ => exact .blocked h₁ h₂ h₃ h₄
  | discovered h₁ h₂ h₃ h₄ h₅ h₆ =>
      exact .discovered h₁ h₂ h₃ h₄ ((mutated_neutral he _).trans h₅)
        ((activations_neutral he _).trans h₆)
  | connected h₁ h₂ h₃ h₄ h₅ =>
      exact .connected h₁ h₂ h₃ h₄ ((mutated_neutral he _).trans h₅)

theorem Underway.note {states : List RecordState} (h : Underway w s states) {e : LogEvent}
    (he : e.isNeutral = true) : Underway (w.note e) s states :=
  ⟨h.owner, h.state, h.record, (mutated_neutral he _).trans h.mutated,
    (activations_neutral he _).trans h.quiet⟩

/-- The journal file takes over the record's cover. -/
theorem Core.replaceJournal (hc : Core w)
    (hh : ∀ r, w.record = some r → r.state = .restored → w.log.head? = some .restoredClean) :
    Core w.replaceJournal := by
  unfold World.replaceJournal
  cases hr : w.record with
  | none => exact hc
  | some r =>
      have hcover : Covers (some r) w.log := hr ▸ hc.record
      exact ⟨hcover.neutral rfl, by simpa [World.note, hr] using hcover.neutral rfl,
        ⟨rfl, hh r hr, _, hc.honest⟩, hc.table⟩

theorem Locked.replaceJournal (hl : Locked w id) : Locked w.replaceJournal id := by
  unfold World.replaceJournal
  split
  · exact ⟨hl.lock, hl.unique⟩
  · exact hl

/-- What a journal replacement leaves alone. -/
theorem replaceJournal_frame (w : World) :
    w.replaceJournal.toNetworkHelper = w.toNetworkHelper ∧
      mutated w.replaceJournal.log = mutated w.log ∧
      activations w.replaceJournal.log = activations w.log ∧
      lastSnapshot w.replaceJournal.log = lastSnapshot w.log := by
  unfold World.replaceJournal
  split
  · exact ⟨rfl, mutated_neutral rfl _, activations_neutral rfl _, rfl⟩
  · exact ⟨rfl, rfl, rfl, rfl⟩

theorem replaceJournal_record (w : World) : w.replaceJournal.record = w.record :=
  congrArg NetworkHelper.record (replaceJournal_frame w).1

theorem replaceJournal_owner (w : World) : w.replaceJournal.owner = w.owner :=
  congrArg NetworkHelper.owner (replaceJournal_frame w).1

theorem replaceJournal_state (w : World) : w.replaceJournal.state = w.state :=
  congrArg NetworkHelper.state (replaceJournal_frame w).1

/-- The disk holds what was saved. -/
theorem replaceJournal_disk {r : Record} (hr : w.record = some r) :
    w.replaceJournal.disk = some r := by
  simp [World.replaceJournal, World.note, hr]

theorem Underway.replaceJournal {states : List RecordState} (h : Underway w s states) :
    Underway w.replaceJournal s states := by
  obtain ⟨-, hm, ha, -⟩ := replaceJournal_frame w
  exact ⟨(replaceJournal_owner w).trans h.owner, replaceJournal_state w ▸ h.state,
    replaceJournal_record w ▸ h.record,
    hm.trans h.mutated, ha.trans h.quiet⟩

theorem Lease.replaceJournal (h : Lease w) : Lease w.replaceJournal := by
  unfold World.replaceJournal
  split
  · exact Lease.congr (w := w.note _) rfl rfl rfl rfl (h.note rfl)
  · exact h

/-- Saving keeps what holds at a program counter; only a "restored" record looks at the
newest event. -/
theorem At.replaceJournal {pc : Pc} (h : At w pc) (hpc : ∀ errors k, pc ≠ .saveRestored errors k) :
    At w.replaceJournal pc := by
  obtain ⟨-, hm, ha, hlast⟩ := replaceJournal_frame w
  have ho := replaceJournal_owner w
  have hr := replaceJournal_record w
  have hs := replaceJournal_state w
  have hc : w.replaceJournal.cancel = w.cancel :=
    congrArg NetworkHelper.cancel (replaceJournal_frame w).1
  cases pc <;> simp only [At, ho, hr, hs, hm, hc, hlast, World.unrestored] at h ⊢ <;>
    first
      | exact h
      | exact h.replaceJournal
      | exact ⟨h.1.replaceJournal, h.2⟩
      | exact ⟨h.1, h.2.1.replaceJournal, h.2.2⟩
      | exact ⟨h.1, h.2.replaceJournal⟩
      | exact absurd rfl (hpc _ _)

/-- A record that is not "restored" can always be journaled. -/
theorem Core.saveUnrestored (hc : Core w) {r : Record} (hr : w.record = some r)
    (hs : r.state ≠ .restored) : Core w.replaceJournal :=
  hc.replaceJournal fun r' hr' hs' => by
    obtain rfl := Option.some.inj (hr.symm.trans hr')
    exact absurd hs' hs

theorem inv_finishRestore {errors : List String} {k : After} (hl : Locked w id) (hc : Core w)
    (hclean : errors = [] → w.unrestored = none)
    (hdirty : errors ≠ [] → ∃ r, w.record = some r ∧ r.state ≠ .restored) :
    Inv (w.finishRestore id errors k) := by
  have lease : ∀ (failures : Nat) (lastError : Option String),
      Lease { w with
        owner := none, deadline := 0, candidates := []
        state := if errors = [] then .idle else .restoreRequired
        failures, lastError } := by
    intro failures lastError
    by_cases herr : errors = []
    · exact .idle rfl (by simp [herr]) (hclean herr)
    · obtain ⟨r, hr, hs⟩ := hdirty herr
      exact .blocked rfl (by simp [herr]) hr hs
  have core : ∀ (failures : Nat) (lastError : Option String) (state : HelperState),
      Core { w with owner := none, deadline := 0, candidates := [], state, failures, lastError } :=
    fun _ _ _ => ⟨hc.disk, hc.record, hc.honest, fun _ => rfl⟩
  unfold World.finishRestore
  cases k with
  | expired s => exact inv_leave ⟨hl.lock, hl.unique⟩ (core _ _ _) (lease _ _)
  | failure s e =>
      cases e with
      | helper e => exact inv_leave ⟨hl.lock, hl.unique⟩ (core _ _ _) (lease _ _)
      | other => exact inv_leave ⟨hl.lock, hl.unique⟩ (core _ _ _) (lease _ _)
  | release s origin =>
      exact inv_leave ⟨hl.lock, hl.unique⟩ ((core _ _ _).note rfl) ((lease _ _).note rfl)
  | recover => exact inv_goto_held ⟨hl.lock, hl.unique⟩ (core _ _ _) rfl (lease _ _)

theorem inv_beginRestore {k : After} (hl : Locked w id) (hc : Core w) (hk : k.owner w.owner) :
    Inv (w.beginRestore id k) := by
  have hcore : Core { w with state := HelperState.restoring } :=
    ⟨hc.disk, hc.record, hc.honest, hc.table⟩
  simp only [World.beginRestore]
  split
  · next r hr =>
    obtain ⟨hr, hs⟩ := (unrestored_eq_some_iff _ _).mp hr
    exact inv_goto_held ⟨hl.lock, hl.unique⟩ (hcore.note rfl) rfl ⟨hk, r, hr, hs⟩
  · next hr =>
    exact inv_finishRestore ⟨hl.lock, hl.unique⟩ hcore (fun _ => hr) (fun h => absurd rfl h)

theorem inv_fail (hl : Locked w id) (hc : Core w) (ho : w.owner = some s) (e : Failure) :
    Inv (w.fail id s e) :=
  inv_beginRestore ⟨hl.lock, hl.unique⟩ ⟨hc.disk, hc.record, hc.honest, hc.table⟩ ho

theorem inv_failConnect (hl : Locked w id) (hc : Core w) (ho : w.owner = some s) (e : Failure) :
    Inv (w.failConnect id s e) := by
  have hcore : Core { w with failures := w.failures + 1 } :=
    ⟨hc.disk, hc.record, hc.honest, hc.table⟩
  exact @inv_fail (({ w with failures := w.failures + 1 } : World).note .connectFailed) id s
    ⟨hl.lock, hl.unique⟩ (hcore.note rfl) ho e

theorem inv_markRestored {errors : List String} {group : Option String} {k : After}
    (hl : Locked w id) (hc : Core w) (hat : At w (.restore k)) :
    Inv (w.markRestored id errors group k) := by
  obtain ⟨hk, r, hr, hs⟩ := hat
  by_cases herr : errors = []
  · subst herr
    have hcore : Core { w.note .restoredClean with
        record := some { r with
          state := .restored, errors := [], groupInterface := group.or r.groupInterface } } :=
      ⟨.of_clean rfl, .of_clean rfl, hc.honest, hc.table⟩
    simp only [World.markRestored, World.save, World.setRecord, if_true, World.note, hr,
      Option.map_some] at hcore ⊢
    exact inv_goto_held ⟨hl.lock, hl.unique⟩ hcore rfl ⟨hk, _, rfl, by simp, fun _ => rfl⟩
  · have hcore : Core { w with
        record := some { r with
          state := .restoreFailed, errors, groupInterface := group.or r.groupInterface } } :=
      ⟨hc.disk, (hr ▸ hc.record).update (by simp) rfl (Or.inl rfl), hc.honest, hc.table⟩
    simp only [World.markRestored, World.save, World.setRecord, herr, if_false, hr,
      Option.map_some]
    exact inv_goto_held ⟨hl.lock, hl.unique⟩ hcore rfl
      ⟨hk, _, rfl, by simp [herr], fun h => absurd h herr⟩

theorem inv_restoreNotSaved {errors : List String} {k : After} (hl : Locked w id) (hc : Core w)
    {r : Record} (hr : w.record = some r) : Inv (w.restoreNotSaved id errors k) := by
  have hcore : Core { w with
      record := some { r with
        state := .restoreFailed, errors := errors ++ ["journal-write-failed"] } } := by
    refine ⟨hc.disk, ?_, hc.honest, hc.table⟩
    exact (hr ▸ hc.record).update (by simp) rfl (Or.inl rfl)
  simp only [World.restoreNotSaved, World.setRecord, hr, Option.map_some]
  exact inv_finishRestore ⟨hl.lock, hl.unique⟩ hcore (fun h => by simp at h)
    (fun _ => ⟨_, rfl, by simp⟩)

theorem inv_discoverBody (hl : Locked w id) (hc : Core w) (ho : w.owner = some s)
    (hlease : w.unrestored = none ∧ w.state = .idle ∨ Lease w) : Inv (w.discoverBody id s) := by
  unfold World.discoverBody
  split
  · next hconnected =>
    rcases hlease with ⟨-, hidle⟩ | hlease
    · rw [hidle] at hconnected
      cases hconnected
    · exact inv_leave hl hc hlease
  · next hconnected =>
    dsimp only
    split
    · next hnone =>
      have hidle : w.state = .idle := by
        rcases hlease with ⟨-, hidle⟩ | hlease
        · exact hidle
        · have hrestored := (unrestored_eq_none_iff w).mp hnone
          cases hlease with
          | idle h₁ _ _ => rw [h₁] at ho; cases ho
          | blocked h₁ _ _ _ => rw [h₁] at ho; cases ho
          | discovered _ _ h₃ h₄ _ _ => simp [hrestored _ h₃] at h₄
          | connected _ h₂ _ _ _ => exact absurd h₂ hconnected
      exact inv_goto_held hl hc rfl ⟨ho, hidle, hnone⟩
    · next r hr =>
      have hcore : Core { w with state := HelperState.discovering } :=
        ⟨hc.disk, hc.record, hc.honest, hc.table⟩
      have hunder : Underway { w with state := HelperState.discovering } s
          [.preparing, .discovered] := by
        rcases hlease with ⟨hnone, -⟩ | hlease
        · rw [hnone] at hr
          cases hr
        · cases hlease with
          | idle h₁ _ _ => rw [h₁] at ho; cases ho
          | blocked h₁ _ _ _ => rw [h₁] at ho; cases ho
          | discovered _ _ h₃ h₄ h₅ h₆ => exact ⟨ho, by simp, ⟨_, h₃, by simp [h₄]⟩, h₅, h₆⟩
          | connected _ h₂ _ _ _ => exact absurd h₂ hconnected
      exact inv_goto_held ⟨hl.lock, hl.unique⟩ (hcore.note rfl) rfl (hunder.note rfl)

theorem inv_connectBody {candidateId : String} (hl : Locked w id) (hc : Core w)
    (ho : w.owner = some s) (hlease : Lease w) : Inv (w.connectBody id s candidateId) := by
  unfold World.connectBody
  split
  · next candidate _ =>
    split
    · next hdiscovered =>
      split
      · next r hr =>
        have hunder : Underway w s [.discovered] := by
          cases hlease with
          | idle h₁ _ _ => rw [h₁] at ho; cases ho
          | blocked h₁ _ _ _ => rw [h₁] at ho; cases ho
          | discovered _ _ h₃ h₄ h₅ h₆ => exact ⟨ho, by simp [hdiscovered], ⟨_, h₃, by simp [h₄]⟩, h₅, h₆⟩
          | connected _ h₂ _ _ _ => rw [h₂] at hdiscovered; cases hdiscovered
        exact inv_goto_held hl hc rfl ⟨rfl, hunder, hdiscovered⟩
      · exact inv_failConnect hl hc ho _
    · exact inv_leave hl hc hlease
  · exact inv_leave hl hc hlease

theorem inv_keepAliveBody (hl : Locked w id) (hc : Core w) (ho : w.owner = some s)
    (hlease : Lease w) : Inv (w.keepAliveBody id s) := by
  unfold World.keepAliveBody
  split
  · exact inv_goto_held ⟨hl.lock, hl.unique⟩ (hc.note rfl) rfl ⟨ho, hlease.note rfl⟩
  · exact inv_fail hl hc ho _

/-- Nobody but the sender owns the lease. -/
theorem owner_of_not_any (h : ¬ w.owner.any (· ≠ s) = true) : w.owner = none ∨ w.owner = some s := by
  cases ho : w.owner with
  | none => exact Or.inl rfl
  | some s' =>
      right
      simpa [ho] using h

theorem inv_enterLocked {acquire : Bool} {requestCancel : Option Event} {body : World → World}
    (hl : Locked w id) (hc : Core w) (hlease : Lease w)
    (hbody : ∀ v, Locked v id → Core v → v.owner = some s → Lease v → Inv (body v))
    (hfresh : acquire = true → ∀ v, Locked v id → Core v → v.owner = some s →
      v.unrestored = none → v.state = .idle → Inv (body v)) :
    Inv (w.enterLocked id s acquire requestCancel body) := by
  unfold World.enterLocked
  split
  · exact inv_leave hl hc hlease
  split
  · exact inv_leave hl hc hlease
  next hforeign =>
  split
  · exact inv_leave hl hc hlease
  next hready =>
  split
  · next hsome =>
    have ho : w.owner = some s := by
      rcases owner_of_not_any hforeign with ho | ho
      · simp [ho] at hsome
      · exact ho
    split
    · exact inv_beginRestore ⟨hl.lock, hl.unique⟩ ⟨hc.disk, hc.record, hc.honest, hc.table⟩ ho
    · exact hbody w hl hc ho hlease
  next hnone =>
  split
  · exact inv_leave hl hc hlease
  next hacquire =>
  split
  · exact inv_leave hl hc hlease
  · have hacquire : acquire = true := by simpa using hacquire
    have ho : w.owner = none := by simpa using hnone
    cases hlease with
    | idle _ h₂ h₃ =>
        exact hfresh hacquire _ ⟨hl.lock, hl.unique⟩
          ⟨hc.disk, hc.record, hc.honest, fun h => by cases h⟩ rfl h₃ h₂
    | blocked _ h₂ _ _ => exact absurd h₂ hready
    | discovered h₁ _ _ _ _ _ => rw [ho] at h₁; cases h₁
    | connected h₁ _ _ _ _ => rw [ho] at h₁; cases h₁

theorem inv_enterRequest {r : Request} {v : World} (hl : Locked w id) (hc : Core w)
    (hlease : Lease w) (h : w.enterRequest id r = some v) : Inv v := by
  cases r with
  | discover s requestCancel =>
      obtain rfl := Option.some.inj h
      exact inv_enterLocked hl hc hlease
        (fun v hl hc ho hlease => inv_discoverBody hl hc ho (Or.inr hlease))
        (fun _ v hl hc ho hr hs => inv_discoverBody hl hc ho (Or.inl ⟨hr, hs⟩))
  | connect s candidateId =>
      obtain rfl := Option.some.inj h
      exact inv_enterLocked hl hc hlease (fun v => inv_connectBody) (fun h => by cases h)
  | keepAlive s =>
      obtain rfl := Option.some.inj h
      exact inv_enterLocked hl hc hlease (fun v => inv_keepAliveBody) (fun h => by cases h)
  | cancelOwner s => cases h
  | release s origin => cases h
  | expire => cases h
  | recover => cases h

theorem inv_baselineTaken {b : Budget} {snapshot : Snapshot} (hl : Locked w id) (hc : Core w)
    (hat : At w (.snapshot s b)) : Inv (w.baselineTaken id s b snapshot) := by
  obtain ⟨ho, hidle, hnone⟩ := hat
  have hclean : mutated w.log = false := by
    by_contra hm
    obtain ⟨r, hr, hs, -⟩ := hc.record (by simpa using hm)
    exact hs ((unrestored_eq_none_iff w).mp hnone r hr)
  refine inv_goto_held ⟨hl.lock, hl.unique⟩ ⟨hc.disk.neutral rfl, .of_clean hclean, hc.honest, ?_⟩
    rfl ⟨ho, hidle, hclean, _, rfl, rfl, rfl⟩
  intro hnone
  rw [show _ = some s from ho] at hnone
  cases hnone

theorem inv_baselineSaved {b : Budget} (hl : Locked w id) (hc : Core w)
    (hat : At w (.saveBaseline s b)) (hdisk : w.disk = w.record) :
    Inv (w.baselineSaved id s b) := by
  obtain ⟨ho, hidle, hclean, r, hr, hs, hlast⟩ := hat
  have hcover : Covers w.record (.checkpointCreate r.snapshot :: w.log) := fun _ =>
    ⟨r, hr, by simp [hs], by simp [baseline, hclean, LogEvent.isMutation, hlast],
      by simp [activations, activations_eq_nil hclean]⟩
  have hcore : Core (w.note (.checkpointCreate r.snapshot)) :=
    ⟨by rw [show (w.note _).disk = w.record from hdisk]; exact hcover, hcover, hc.honest, hc.table⟩
  have hunder : Underway (w.note (.checkpointCreate r.snapshot)) s [.preparing] :=
    ⟨ho, show w.state ≠ _ by simp [hidle], ⟨r, hr, by simp [hs]⟩,
      by simp [World.note, mutated, LogEvent.isMutation],
      by simp [World.note, activations, activations_eq_nil hclean]⟩
  simp only [World.baselineSaved, hr]
  exact inv_goto_held ⟨hl.lock, hl.unique⟩ hcore rfl hunder

/-- A further mutation under a baseline keeps the cover. -/
theorem Covers.prepare {record : Option Record} {log : List LogEvent} (h : Covers record log)
    (hm : mutated log = true) (snapshot : Snapshot) : Covers record (.prepare snapshot :: log) := by
  intro _
  obtain ⟨r, hr, hs, hb, ha⟩ := h hm
  exact ⟨r, hr, hs, by simp [baseline, hm, hb], ha⟩

theorem inv_checkpointCreated {b : Budget} {path : String} (hl : Locked w id) (hc : Core w)
    (hat : At w (.checkpointCreate s b)) :
    Inv ((w.setRecord fun r => { r with checkpoint := some path }).save id
      (.saveCheckpoint s b)) := by
  obtain ⟨r, hr, hs⟩ := hat.record
  have hs : r.state = .preparing := by simpa using hs
  have hcore : Core { w with record := some { r with checkpoint := some path } } :=
    ⟨hc.disk, (hr ▸ hc.record).update (by simp [hs]) rfl (Or.inl rfl), hc.honest, hc.table⟩
  simp only [World.setRecord, hr, Option.map_some]
  exact inv_goto_held ⟨hl.lock, hl.unique⟩ hcore rfl
    ⟨hat.owner, hat.state, ⟨_, rfl, by simp [hs]⟩, hat.mutated, hat.quiet⟩

theorem inv_checkpointSaved {b : Budget} (hl : Locked w id) (hc : Core w)
    (hat : At w (.saveCheckpoint s b)) : Inv (w.checkpointSaved id s b) := by
  unfold World.checkpointSaved
  split
  · next r hr =>
    have hcore : Core (w.note (.prepare r.snapshot)) :=
      ⟨hc.disk.prepare hat.mutated _, hc.record.prepare hat.mutated _, hc.honest, hc.table⟩
    exact inv_goto_held ⟨hl.lock, hl.unique⟩ hcore rfl
      ⟨hat.owner, hat.state, hat.record, by simp [World.note, mutated, LogEvent.isMutation], hat.quiet⟩
  · exact inv_fail hl hc hat.owner _

theorem inv_prepared {b : Budget} (hl : Locked w id) (hc : Core w) (hat : At w (.prepare s b)) :
    Inv ((({ w with state := .discovering } : World).note .discover).goto id (.discover s b)) := by
  have hcore : Core { w with state := HelperState.discovering } :=
    ⟨hc.disk, hc.record, hc.honest, hc.table⟩
  have hunder : Underway { w with state := HelperState.discovering } s [.preparing, .discovered] := by
    obtain ⟨r, hr, hs⟩ := hat.record
    exact ⟨hat.owner, by simp, ⟨r, hr, by simp_all⟩, hat.mutated, hat.quiet⟩
  exact inv_goto_held ⟨hl.lock, hl.unique⟩ (hcore.note rfl) rfl (hunder.note rfl)

theorem inv_peersFound {b : Budget} {found : List Peer} {ids : Nat → String} (hl : Locked w id)
    (hc : Core w) (hat : At w (.discover s b)) : Inv (w.peersFound id s b found ids) := by
  unfold World.peersFound
  split
  · exact inv_fail hl hc hat.owner _
  · obtain ⟨r, hr, hs⟩ := hat.record
    have hne : r.state ≠ .restored := by
      rintro h
      simp [h] at hs
    have hcore : Core { w with
        candidates := collectCandidates found ids, state := HelperState.discovered
        record := some { r with state := .discovered } } :=
      ⟨hc.disk, (hr ▸ hc.record).update (by simp) rfl (Or.inl rfl), hc.honest, fun h => by
        rw [show _ = some s from hat.owner] at h; cases h⟩
    simp only [World.setRecord, hr, Option.map_some]
    exact inv_goto_held ⟨hl.lock, hl.unique⟩ hcore rfl
      ⟨⟨hat.owner, by simp, ⟨_, rfl, by simp⟩, hat.mutated, hat.quiet⟩, rfl⟩

theorem inv_discovered {outcome : Except HelperError Result} (hl : Locked w id) (hc : Core w)
    (hat : At w (.saveDiscovered s)) : Inv (w.leave id outcome) := by
  obtain ⟨hunder, hs⟩ := hat
  obtain ⟨r, hr, hrs⟩ := hunder.record
  exact inv_leave hl hc (.discovered hunder.owner hs hr (by simpa using hrs) hunder.mutated
    hunder.quiet)

theorem inv_peerResolved {candidate : Peer} {b : Budget} {found : Option Peer} (hl : Locked w id)
    (hc : Core w) (hat : At w (.resolvePeer s candidate b)) :
    Inv (w.peerResolved id s candidate b found) := by
  unfold World.peerResolved
  split
  · exact inv_failConnect hl hc hat.2.1.owner _
  · exact inv_goto_held hl hc rfl hat

theorem inv_recoveryAvailable {peer : Peer} {b : Budget} (hl : Locked w id) (hc : Core w)
    (hat : At w (.recoveryAvailable s peer b)) :
    Inv ((w.note .checkpointExtend).goto id (.checkpointExtend s peer b)) :=
  inv_goto_held ⟨hl.lock, hl.unique⟩ (hc.note rfl) rfl ⟨hat.1, hat.2.1.note rfl, hat.2.2⟩

theorem inv_checkpointExtended {peer : Peer} {b : Budget} {uuid : String} (hl : Locked w id)
    (hc : Core w) (hat : At w (.checkpointExtend s peer b)) :
    Inv (w.checkpointExtended id s peer b uuid) := by
  obtain ⟨hb, hunder, -⟩ := hat
  obtain ⟨r, hr, -⟩ := hunder.record
  have hcore : Core { w with
      state := HelperState.connecting
      record := some { r with connectionUuid := some uuid, state := .connecting } } :=
    ⟨hc.disk, (hr ▸ hc.record).update (by simp) rfl (Or.inr hunder.quiet), hc.honest, hc.table⟩
  simp only [World.checkpointExtended, World.setRecord, hr, Option.map_some]
  exact inv_goto_held ⟨hl.lock, hl.unique⟩ hcore rfl
    ⟨hb, ⟨hunder.owner, by simp, ⟨_, rfl, by simp⟩, hunder.mutated, hunder.quiet⟩, uuid, rfl⟩

theorem inv_connectingSaved {peer : Peer} {b : Budget} (hl : Locked w id) (hc : Core w)
    (hat : At w (.saveConnecting s peer b)) (hdisk : w.disk = w.record) :
    Inv (w.connectingSaved id s peer b) := by
  obtain ⟨hbudget, hunder, uuid, huuid⟩ := hat
  obtain ⟨r, hr, hs⟩ := hunder.record
  have hru : r.connectionUuid = some uuid := by simpa [hr] using huuid
  have hcover : Covers w.record (.activate uuid :: w.log) := by
    intro _
    obtain ⟨r', hr', hs', hb, -⟩ := hc.record hunder.mutated
    obtain rfl := Option.some.inj (hr.symm.trans hr')
    exact ⟨r, hr, hs', by simp [baseline, hunder.mutated, hb],
      by simp [activations, hunder.quiet, hru]⟩
  have hcore : Core (w.note (.activate uuid)) :=
    ⟨by rw [show (w.note _).disk = w.record from hdisk]; exact hcover, hcover, hc.honest, hc.table⟩
  simp only [World.connectingSaved, huuid]
  exact inv_goto_held ⟨hl.lock, hl.unique⟩ hcore rfl
    ⟨hbudget, hunder.owner, by simp [World.note, mutated, LogEvent.isMutation], hunder.state, r,
      hr, by simpa using hs⟩

theorem inv_linkActivated {peer : Peer} {b : Budget} {link : Activation} (hl : Locked w id)
    (hc : Core w) (hat : At w (.activate s peer b)) : Inv (w.linkActivated id s peer b link) := by
  obtain ⟨-, ho, hm, -, r, hr, -⟩ := hat
  unfold World.linkActivated
  split
  · exact inv_failConnect hl hc ho _
  split
  · exact inv_failConnect hl hc ho _
  · have hcore : Core { w with
        state := HelperState.connected, failures := 0, lastError := none
        record := some { r with
          groupInterface := some link.groupInterface, state := .connected } } :=
      ⟨hc.disk, (hr ▸ hc.record).update (by simp) rfl (Or.inl rfl), hc.honest, hc.table⟩
    simp only [World.setRecord, hr, Option.map_some]
    exact inv_goto_held ⟨hl.lock, hl.unique⟩ hcore rfl ⟨ho, hm, rfl, _, rfl, rfl⟩

theorem inv_connectedSaved {peer : Peer} {link : Activation} (hl : Locked w id) (hc : Core w)
    (hat : At w (.saveConnected s peer link)) : Inv (w.connectedSaved id peer link) := by
  obtain ⟨ho, hm, hs, r, hr, hrs⟩ := hat
  have hlease : Lease w := .connected ho hs hr hrs hm
  exact inv_leave ⟨hl.lock, hl.unique⟩ (hc.note rfl) (hlease.note rfl)

theorem inv_leaseExtended (hl : Locked w id) (hc : Core w) (hat : At w (.extendLease s)) :
    Inv (w.leaseExtended id s) := by
  unfold World.leaseExtended
  split
  · exact inv_fail hl hc hat.1 _
  · exact inv_leave ⟨hl.lock, hl.unique⟩ ⟨hc.disk, hc.record, hc.honest, hc.table⟩
      (Lease.congr (w := w) rfl rfl rfl rfl hat.2)

theorem inv_releaseCheck {origin : Origin} (hl : Locked w id) (hc : Core w) (hlease : Lease w) :
    Inv (w.releaseCheck id s origin) := by
  unfold World.releaseCheck
  split
  · exact inv_leave hl hc hlease
  · next hforeign => exact inv_beginRestore hl hc (owner_of_not_any hforeign)

/-- The three outcomes of a journal write. -/
theorem inv_journaled {reply : Reply} {saved : World → World} {failed : World → Failure → World}
    {v : World} (h : w.journaled reply saved failed = some v) (hsaved : Inv (saved w.replaceJournal))
    (hfailed : ∀ e, Inv (failed w e)) (hreplaced : ∀ e, Inv (failed w.replaceJournal e)) :
    Inv v := by
  unfold World.journaled at h
  split at h
  · obtain rfl := Option.some.inj h
    exact hsaved
  · obtain rfl := Option.some.inj h
    exact hfailed _
  · obtain rfl := Option.some.inj h
    exact hreplaced _
  · cases h

theorem Inv.locked {pc : Pc} (h : Inv w) (hcall : w.calls id = some pc)
    (hholds : pc.holds = true) : Locked w id := by
  have hop := (h.lock id).mp ⟨pc, hcall, hholds⟩
  refine ⟨hop, fun i pc' hcall' hholds' => ?_⟩
  exact (Option.some.inj (hop.symm.trans ((h.lock i).mp ⟨pc', hcall', hholds'⟩))).symm

/-- A call that takes the free lock is its only holder. -/
theorem Inv.acquired (h : Inv w) (id : Nat) (hfree : w.operation = none) :
    Locked { w with operation := some id } id ∧ Core { w with operation := some id } ∧
      Lease { w with operation := some id } := by
  refine ⟨⟨rfl, fun i pc hcall hholds => ?_⟩, ⟨h.disk, h.record, h.honest, h.table⟩,
    Lease.congr (w := w) rfl rfl rfl rfl (h.free hfree)⟩
  have := (h.lock i).mp ⟨pc, hcall, hholds⟩
  rw [hfree] at this
  cases this

theorem inv_acquire {next : World → World} {v : World} (h : Inv w)
    (hnext : ∀ v, Locked v id → Core v → Lease v → Inv (next v))
    (hv : w.acquire id next = some v) : Inv v := by
  unfold World.acquire at hv
  split at hv
  · next hfree =>
    obtain rfl := Option.some.inj hv
    obtain ⟨hl, hc, hlease⟩ := h.acquired id hfree
    exact hnext _ hl hc hlease
  · cases hv

/-- A save fails before or after the replacement, or goes on with the record on disk. -/
theorem inv_saving {pc : Pc} (handler : World → Failure → World)
    (hhandler : ∀ v, Locked v id → Core v → v.owner = some s → ∀ e, Inv (handler v e))
    (hl : Locked w id) (hc : Core w) (ho : w.owner = some s) (hat : At w pc)
    (hpc : ∀ errors k, pc ≠ .saveRestored errors k) {r : Record} (hr : w.record = some r)
    (hs : r.state ≠ .restored) :
    (∀ e, Inv (handler w e)) ∧ (∀ e, Inv (handler w.replaceJournal e)) ∧
      Locked w.replaceJournal id ∧ Core w.replaceJournal ∧ At w.replaceJournal pc ∧
      w.replaceJournal.disk = w.replaceJournal.record := by
  have hc' := hc.saveUnrestored hr hs
  refine ⟨hhandler w hl hc ho, hhandler _ hl.replaceJournal hc' ?_, hl.replaceJournal, hc',
    hat.replaceJournal hpc, ?_⟩
  · rw [replaceJournal_owner, ho]
  · rw [replaceJournal_record, replaceJournal_disk hr, hr]

theorem inv_saveRestored {errors : List String} {k : After} {reply : Reply} {v : World}
    (hl : Locked w id) (hc : Core w) (hat : At w (.saveRestored errors k))
    (h : w.journaled reply (finishRestore · id errors k) (fun w _ => w.restoreNotSaved id errors k)
      = some v) : Inv v := by
  obtain ⟨-, r, hr, hs, hhead⟩ := hat
  have hc' : Core w.replaceJournal := hc.replaceJournal fun r' hr' hs' => by
    obtain rfl := Option.some.inj (hr.symm.trans hr')
    by_cases herr : errors = []
    · exact hhead herr
    · simp [hs, herr] at hs'
  have hr' : w.replaceJournal.record = some r := (replaceJournal_record w).trans hr
  refine inv_journaled h ?_ (fun _ => inv_restoreNotSaved hl hc hr)
    (fun _ => inv_restoreNotSaved hl.replaceJournal hc' hr')
  refine inv_finishRestore hl.replaceJournal hc' ?_ ?_
  · intro herr
    rw [unrestored_eq_none_iff, hr']
    rintro r' h'
    obtain rfl := Option.some.inj h'
    simp [hs, herr]
  · intro herr
    exact ⟨r, hr', by simp [hs, herr]⟩

/-- A call outside the lock moves on. -/
theorem inv_moves {v : World} {pc pc' : Pc} (h : Inv w) (hcall : w.calls id = some pc)
    (hpc : pc.holds = false) (hp : pc'.holds = false)
    (hcore : v.toNetworkHelper = w.toNetworkHelper) (hd : v.disk = w.disk) (hl : v.log = w.log)
    (hcalls : v.calls = w.calls) : Inv (v.goto id pc') := by
  refine inv_outside h (fun old hold => ?_) hp hcore hd hl hcalls
  obtain rfl := Option.some.inj (hcall.symm.trans hold)
  exact hpc

theorem inv_enter {r : Request} (h : Inv w) (hcall : w.calls id = some (.enter r)) :
    Inv (if w.operation = none then ({ w with operation := some id } : World).goto id (.entering r)
      else w.goto id (.finished (.error ⟨"Busy", "A network operation is already running"⟩))) := by
  split
  · next hfree =>
    obtain ⟨hl, hc, hlease⟩ := h.acquired id hfree
    exact inv_goto_held hl hc rfl hlease
  · exact inv_moves h hcall rfl rfl rfl rfl rfl rfl

theorem inv_cancelOwner (h : Inv w) (hcall : w.calls id = some (.cancelOwner s)) :
    Inv (w.cancelOwner id s) := by
  unfold World.cancelOwner
  split <;> exact inv_moves h hcall rfl rfl rfl rfl rfl rfl

theorem inv_expireStart (h : Inv w) (hcall : w.calls id = some .expireStart) :
    Inv (w.expireStart id) := by
  unfold World.expireStart
  split
  · exact inv_moves h hcall rfl rfl rfl rfl rfl rfl
  · split <;> exact inv_moves h hcall rfl rfl rfl rfl rfl rfl

theorem inv_releaseStart {origin : Origin} (h : Inv w)
    (hcall : w.calls id = some (.releaseStart s origin)) : Inv (w.releaseStart id s origin) := by
  unfold World.releaseStart
  split <;> exact inv_moves h hcall rfl rfl rfl rfl rfl rfl

/-- Returning from any external call keeps the invariant. -/
theorem resume_inv {pc : Pc} {reply : Reply} {v : World} (h : Inv w)
    (hcall : w.calls id = some pc) (hv : w.resume id pc reply = some v) : Inv v := by
  have locked : pc.holds = true → Locked w id := h.locked hcall
  have hat : pc.holds = true → At w pc := h.held id pc hcall
  have hc : Core w := h.toCore
  unfold World.resume at hv
  split at hv
  case h_1 =>
    obtain rfl := Option.some.inj hv
    exact inv_enter h hcall
  case h_2 => exact inv_enterRequest (locked rfl) hc (hat rfl) hv
  case h_3 =>
    obtain rfl := Option.some.inj hv
    exact inv_baselineTaken (locked rfl) hc (hat rfl)
  case h_4 =>
    obtain rfl := Option.some.inj hv
    exact inv_fail (locked rfl) hc (hat rfl).1 _
  case h_5 =>
    obtain ⟨ho, -, -, r, hr, hs, -⟩ := hat rfl
    obtain ⟨hf, hf', hl', hc', hat', hdisk⟩ := inv_saving (fail · id _ ·)
      (fun v hl hc ho e => inv_fail hl hc ho e) (locked rfl) hc ho (hat rfl)
      (fun _ _ h => by cases h) hr (by simp [hs])
    exact inv_journaled hv (inv_baselineSaved hl' hc' hat' hdisk) hf hf'
  case h_6 =>
    obtain rfl := Option.some.inj hv
    exact inv_checkpointCreated (locked rfl) hc (hat rfl)
  case h_7 =>
    obtain rfl := Option.some.inj hv
    exact inv_fail (locked rfl) hc (hat rfl).owner _
  case h_8 =>
    obtain ⟨r, hr, hs⟩ := (hat rfl).record
    obtain ⟨hf, hf', hl', hc', hat', -⟩ := inv_saving (fail · id _ ·)
      (fun v hl hc ho e => inv_fail hl hc ho e) (locked rfl) hc (hat rfl).owner (hat rfl)
      (fun _ _ h => by cases h) hr (by rintro h; simp [h] at hs)
    exact inv_journaled hv (inv_checkpointSaved hl' hc' hat') hf hf'
  case h_9 =>
    obtain rfl := Option.some.inj hv
    exact inv_prepared (locked rfl) hc (hat rfl)
  case h_10 =>
    obtain rfl := Option.some.inj hv
    exact inv_fail (locked rfl) hc (hat rfl).owner _
  case h_11 =>
    obtain rfl := Option.some.inj hv
    exact inv_peersFound (locked rfl) hc (hat rfl)
  case h_12 =>
    obtain rfl := Option.some.inj hv
    exact inv_fail (locked rfl) hc (hat rfl).owner _
  case h_13 =>
    obtain ⟨r, hr, hs⟩ := (hat rfl).1.record
    obtain ⟨hf, hf', hl', hc', hat', -⟩ := inv_saving (fail · id _ ·)
      (fun v hl hc ho e => inv_fail hl hc ho e) (locked rfl) hc (hat rfl).1.owner (hat rfl)
      (fun _ _ h => by cases h) hr (by rintro h; simp [h] at hs)
    exact inv_journaled hv (inv_discovered hl' hc' hat') hf hf'
  case h_14 =>
    obtain rfl := Option.some.inj hv
    exact inv_peerResolved (locked rfl) hc (hat rfl)
  case h_15 =>
    obtain rfl := Option.some.inj hv
    exact inv_failConnect (locked rfl) hc (hat rfl).2.1.owner _
  case h_16 =>
    obtain rfl := Option.some.inj hv
    split
    · exact inv_recoveryAvailable (locked rfl) hc (hat rfl)
    · exact inv_failConnect (locked rfl) hc (hat rfl).2.1.owner _
  case h_17 =>
    obtain rfl := Option.some.inj hv
    exact inv_failConnect (locked rfl) hc (hat rfl).2.1.owner _
  case h_18 =>
    obtain rfl := Option.some.inj hv
    exact inv_checkpointExtended (locked rfl) hc (hat rfl)
  case h_19 =>
    obtain rfl := Option.some.inj hv
    exact inv_failConnect (locked rfl) hc (hat rfl).2.1.owner _
  case h_20 =>
    obtain ⟨r, hr, hs⟩ := (hat rfl).2.1.record
    obtain ⟨hf, hf', hl', hc', hat', hdisk⟩ := inv_saving (failConnect · id _ ·)
      (fun v hl hc ho e => inv_failConnect hl hc ho e) (locked rfl) hc (hat rfl).2.1.owner (hat rfl)
      (fun _ _ h => by cases h) hr (by rintro h; simp [h] at hs)
    exact inv_journaled hv (inv_connectingSaved hl' hc' hat' hdisk) hf hf'
  case h_21 =>
    obtain rfl := Option.some.inj hv
    exact inv_linkActivated (locked rfl) hc (hat rfl)
  case h_22 =>
    obtain rfl := Option.some.inj hv
    exact inv_failConnect (locked rfl) hc (hat rfl).2.1 _
  case h_23 =>
    obtain ⟨ho, -, -, r, hr, hs⟩ := hat rfl
    obtain ⟨hf, hf', hl', hc', hat', -⟩ := inv_saving (failConnect · id _ ·)
      (fun v hl hc ho e => inv_failConnect hl hc ho e) (locked rfl) hc ho (hat rfl)
      (fun _ _ h => by cases h) hr (by simp [hs])
    exact inv_journaled hv (inv_connectedSaved hl' hc' hat') hf hf'
  case h_24 =>
    obtain rfl := Option.some.inj hv
    exact inv_leaseExtended (locked rfl) hc (hat rfl)
  case h_25 =>
    obtain rfl := Option.some.inj hv
    exact inv_fail (locked rfl) hc (hat rfl).1 _
  case h_26 =>
    obtain rfl := Option.some.inj hv
    exact inv_markRestored (locked rfl) hc (hat rfl)
  case h_27 =>
    obtain rfl := Option.some.inj hv
    exact inv_markRestored (locked rfl) hc (hat rfl)
  case h_28 => exact inv_saveRestored (locked rfl) hc (hat rfl) hv
  case h_29 =>
    obtain rfl := Option.some.inj hv
    exact inv_cancelOwner h hcall
  case h_30 =>
    obtain rfl := Option.some.inj hv
    exact inv_expireStart h hcall
  case h_31 =>
    obtain rfl := Option.some.inj hv
    exact inv_releaseStart h hcall
  case h_32 =>
    refine inv_acquire h (fun v hl hc hlease => ?_) hv
    exact inv_goto_held hl hc rfl (show At v (.releaseCheck _ _) from hlease)
  case h_33 =>
    obtain rfl := Option.some.inj hv
    exact inv_releaseCheck (locked rfl) hc (hat rfl)
  case h_34 =>
    refine inv_acquire h (fun v hl hc _ => ?_) hv
    exact inv_beginRestore hl hc (show After.recover.owner v.owner from trivial)
  case h_35 =>
    obtain rfl := Option.some.inj hv
    exact inv_leave ⟨(locked rfl).lock, (locked rfl).unique⟩
      ⟨hc.disk, hc.record, hc.honest, hc.table⟩ (Lease.congr (w := w) rfl rfl rfl rfl (hat rfl))
  case h_36 =>
    obtain rfl := Option.some.inj hv
    exact inv_leave ⟨(locked rfl).lock, (locked rfl).unique⟩
      ⟨hc.disk, hc.record, hc.honest, hc.table⟩ (Lease.congr (w := w) rfl rfl rfl rfl (hat rfl))
  case h_37 => cases hv

theorem start_holds (r : Request) : (start r).holds = false := by
  cases r <;> rfl

/-- The invariant does not look at the clock and the events. -/
theorem Inv.unchanged {v : World} (h : Inv w) (hcore : v.toNetworkHelper = w.toNetworkHelper)
    (hd : v.disk = w.disk) (hl : v.log = w.log) (hcalls : v.calls = w.calls) : Inv v := by
  have ho : v.owner = w.owner := congrArg NetworkHelper.owner hcore
  have hr : v.record = w.record := congrArg NetworkHelper.record hcore
  have hs : v.state = w.state := congrArg NetworkHelper.state hcore
  have hop : v.operation = w.operation := congrArg NetworkHelper.operation hcore
  refine ⟨h.toCore.congr hd hr hl ho (congrArg NetworkHelper.candidates hcore), ?_, ?_, ?_⟩
  · rw [hcalls, hop]
    exact h.lock
  · intro hfree
    exact (h.free (hop.symm.trans hfree)).congr ho hr hs hl
  · intro i pc hcall hholds
    exact (h.held i pc (hcalls ▸ hcall) hholds).congr ho hr hs hl
      (congrArg NetworkHelper.cancel hcore)

/-- Every action keeps the helper's invariant. -/
theorem step_inv {a : Action} {v : World} (h : Inv w) (hv : w.step a = some v) : Inv v := by
  cases a with
  | call id r =>
      simp only [World.step] at hv
      split at hv
      · next hfresh =>
        obtain rfl := Option.some.inj hv
        refine inv_outside h (fun old hold => ?_) (start_holds r) rfl rfl rfl rfl
        simp [hold] at hfresh
      · cases hv
  | resume id reply =>
      obtain ⟨pc, hcall, hv⟩ := Option.bind_eq_some_iff.mp hv
      exact resume_inv h hcall hv
  | cancelRequest n =>
      obtain rfl := Option.some.inj hv
      exact h.unchanged rfl rfl rfl rfl
  | wait t =>
      simp only [World.step] at hv
      split at hv
      · obtain rfl := Option.some.inj hv
        exact h.unchanged rfl rfl rfl rfl
      · cases hv

/-- A new helper satisfies the invariant on any journal that covers the history. -/
theorem create_inv {journal : Option Record} {log : List LogEvent} (now : Time)
    (hcover : Covers journal log) (hhonest : Honest journal log) :
    Inv (World.create journal now log) where
  toCore := ⟨hcover, hcover, hhonest, fun _ => rfl⟩
  lock := by
    intro i
    constructor
    · rintro ⟨pc, hcall, -⟩
      cases hcall
    · intro hop
      cases hop
  free := by
    intro _
    cases hj : journal with
    | none => exact .idle rfl rfl rfl
    | some r =>
        by_cases hs : r.state = .restored
        · exact .idle rfl (by simp [World.create, hs]) (by simp [World.create, hs])
        · exact .blocked rfl (by simp [World.create, hs]) rfl hs
  held := by
    intro i pc hcall
    cases hcall

/-- The invariant holds in every state of every run of a new helper. -/
theorem reaches_inv {journal : Option Record} {now : Time} {v : World}
    (run : helperSystem.Reaches System.Any (World.create journal now []) v) : Inv v :=
  run.invariant (P := Inv) (fun _ _ _ h _ hv => step_inv h hv)
    (create_inv now (fun hm => by cases hm) (show Honest journal [] from trivial))

end HccastWired.Network
