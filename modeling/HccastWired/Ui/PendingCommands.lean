import HccastWired.Ui.ReplyOrder

/-!
# Commands that wait for a reply

The presenter remembers the verbs it waits for and refuses others meanwhile. It
forgets them when it is told of an error; where the error is about the display status
only, the commands are still under way.
-/

namespace HccastWired.Ui

open Foundation

/-- A command that is sent only when no other is waited for. -/
def Query.exclusive : Query → Bool
  | .command verb => verb.exclusive
  | _ => false

abbrev Window.exclusives (w : Window) : Nat :=
  w.waitingFor Query.exclusive

/-- The verbs that are remembered are those that are under way. -/
structure Remembered (w : Window) : Prop where
  waits : ∀ verb ∈ w.presenter.pending, 0 < w.waiting (.command verb)
  holds : ∀ verb, verb.exclusive = true → 0 < w.waiting (.command verb) →
    verb ∈ w.presenter.pending
  single : w.exclusives ≤ 1

section Refusals

variable (loads : String → Except JsonError PyValue)

/-- The presenter is told of an error in place of a state. -/
def Reply.refuses (shown : Bool) (reply : Reply) : Bool :=
  match reply.decode (decodeObject loads) with
  | .error (.caught _) => true
  | .error .recursion => false
  | .ok value => shown &&
      match Presenter.checkState value with
      | .error (.value _) => true
      | _ => false

/-- The step ends in an error of the display status on an unchanged connection. -/
def Window.failsStatus (w : Window) (a : UiAction) : Bool :=
  a.env.getState.isSome ||
    match a.event with
    | .signal name body => name = "StateChanged" && (Reply.body body).refuses loads true
    | .reply index reply => w.requests[index]?.any fun r =>
        r.query = .getState && r.era = w.era && reply.refuses loads (r.signals = w.signals)
    | _ => false

/-- Decoding the reply to a command raises what the callback does not catch. -/
def Window.losesReply (w : Window) (a : UiAction) : Bool :=
  match a.event with
  | .reply index reply => w.requests[index]?.any fun r =>
      (match r.query with
        | .command _ => true
        | _ => false) && r.era = w.era && reply.decode (decodeResult loads) = .error .recursion
  | _ => false

/-- The client is closed, or first connected, without a word to the presenter. -/
def UiEvent.silent : UiEvent → Bool
  | .idle => true
  | .close => true
  | _ => false

/-- No error of the status while a command is under way that excludes others, no reply lost,
and no command under way when the client is closed. -/
def Window.quiet (w : Window) (a : UiAction) : Bool :=
  (!w.failsStatus loads a || w.exclusives = 0) && !w.losesReply loads a &&
    (!a.event.silent || w.presenter.pending.isEmpty)

end Refusals

section Callbacks

variable {w : Window} {env : Surroundings} {r : Request} {loads : String → Except JsonError PyValue}
  {verb : Verb}

theorem exclusives_pos_iff : 0 < w.exclusives ↔
    ∃ verb : Verb, verb.exclusive = true ∧ 0 < w.waiting (.command verb) := by
  simp only [waitingFor_pos_iff, decide_eq_true_eq]
  constructor
  · rintro ⟨r, hr, hexclusive, hera⟩
    cases hquery : r.query with
    | command verb =>
        rw [hquery] at hexclusive
        exact ⟨verb, hexclusive, r, hr, hquery, hera⟩
    | _ => simp [hquery, Query.exclusive] at hexclusive
  · rintro ⟨verb, hexclusive, r, hr, hquery, hera⟩
    exact ⟨r, hr, by rw [hquery]; exact hexclusive, hera⟩

/-- Forgetting is safe where nothing excludes others. -/
theorem Remembered.forgotten (h : w.exclusives = 0) (p : Presenter) (hp : p.pending = [])
    (a b : Bool) : Remembered { w with presenter := p, aboutAttempted := a, aboutLoading := b } := by
  refine ⟨?_, ?_, h.trans_le (Nat.zero_le 1)⟩
  · intro verb hverb
    simp [hp] at hverb
  · intro verb hexclusive hwaiting
    have hpos : 0 < w.exclusives := exclusives_pos_iff.mpr ⟨verb, hexclusive, hwaiting⟩
    omega

theorem Remembered.shown (h : Remembered w) (p : Presenter)
    (hp : p.pending = w.presenter.pending) (a b : Bool) :
    Remembered { w with presenter := p, aboutAttempted := a, aboutLoading := b } :=
  ⟨fun verb hverb => h.waits verb (hp ▸ hverb), fun verb hexclusive hwaiting =>
    show verb ∈ p.pending by
      rw [hp]
      exact h.holds verb hexclusive hwaiting, h.single⟩

theorem remembered_serviceError (h : w.exclusives = 0) (reason : Reason) :
    Remembered (w.serviceError reason) :=
  Remembered.forgotten h _ rfl _ _

theorem remembered_statusError (h : w.exclusives = 0) (reason : Reason) :
    Remembered (w.statusError reason) := by
  cases reason with
  | text message => exact remembered_serviceError h _
  | reported lead value => exact remembered_serviceError h _

theorem Remembered.ask_other (h : Remembered w) {query : Query} (hquery : ∀ v, query ≠ .command v) :
    Remembered (w.ask query) := by
  have hsame : ∀ v, (w.ask query).waiting (.command v) = w.waiting (.command v) := by
    intro v
    rw [waiting_ask, if_neg (hquery v)]
    rfl
  refine ⟨?_, ?_, ?_⟩
  · intro v hv
    rw [hsame]
    exact h.waits v hv
  · intro v hexclusive hwaiting
    rw [hsame] at hwaiting
    exact h.holds v hexclusive hwaiting
  · have hother : query.exclusive = false := by
      cases query with
      | command v => exact absurd rfl (hquery v)
      | _ => rfl
    rw [Window.exclusives, waitingFor_ask, hother]
    exact h.single

theorem Remembered.refresh (h : Remembered w) (hstatus : env.getState = none ∨ w.exclusives = 0) :
    Remembered (w.refresh env) := by
  unfold Window.refresh
  split
  · exact h
  · cases hcall : env.getState with
    | some message =>
        obtain hnone | hzero := hstatus
        · rw [hcall] at hnone
          cases hnone
        · exact remembered_statusError hzero _
    | none =>
        have hnext : Remembered { w with client := { w.client with fetching := true } } :=
          ⟨h.waits, h.holds, h.single⟩
        exact hnext.ask_other fun _ => nofun

/-- What holds of a command that has been answered but not finished. -/
structure Finishing (verb : Verb) (w : Window) : Prop where
  waits : ∀ v ∈ w.presenter.pending, v ≠ verb → 0 < w.waiting (.command v)
  holds : ∀ v, v.exclusive = true → 0 < w.waiting (.command v) → v ∈ w.presenter.pending
  single : w.exclusives + (if verb.exclusive then 1 else 0) ≤ 1

theorem Finishing.finished (h : Finishing verb w) (error : Option Reason) :
    Remembered (w.finished verb error) := by
  refine ⟨?_, ?_, (Nat.le_add_right _ _).trans h.single⟩
  · intro v hv
    obtain ⟨hpending, hne⟩ := List.mem_filter.mp hv
    exact h.waits v hpending (by simpa using hne)
  · intro v hexclusive hwaiting
    refine List.mem_filter.mpr ⟨h.holds v hexclusive hwaiting, ?_⟩
    rw [decide_eq_true_eq]
    rintro rfl
    have hpos : 0 < w.exclusives := exclusives_pos_iff.mpr ⟨v, hexclusive, hwaiting⟩
    have hsingle := h.single
    rw [if_pos hexclusive] at hsingle
    omega

theorem availability_waiting {p : Presenter} {now : Rat}
    (h : verb ∈ p.pending ∨ (p.pending ≠ [] ∧ verb.exclusive = true)) :
    ∃ reason, p.availability verb now = .error reason := by
  unfold Presenter.availability
  by_cases hconnected : p.connected = true
  · by_cases hfeature : (items (p.state.get "features")).contains (.str verb.name) = true
    · rw [if_neg (not_not.mpr hconnected), if_neg (not_not.mpr hfeature), if_pos h]
      exact ⟨_, rfl⟩
    · rw [if_neg (not_not.mpr hconnected), if_pos hfeature]
      exact ⟨_, rfl⟩
  · rw [if_pos hconnected]
    exact ⟨_, rfl⟩

theorem begin_ok {p next : Presenter} {fault : Option Reason} {now : Rat}
    (h : p.begin verb fault now = .ok next) :
    next.pending = verb :: p.pending ∧ (verb.exclusive = true → p.pending = []) := by
  have hfree : ¬ (verb ∈ p.pending ∨ (p.pending ≠ [] ∧ verb.exclusive = true)) := by
    intro hwaiting
    obtain ⟨reason, hreason⟩ := @availability_waiting verb p now hwaiting
    unfold Presenter.begin at h
    rw [hreason] at h
    cases h
  rw [not_or] at hfree
  refine ⟨?_, fun hexclusive => ?_⟩
  · unfold Presenter.begin at h
    cases havailable : p.availability verb now with
    | error reason =>
        rw [havailable] at h
        cases h
    | ok _ =>
        rw [havailable] at h
        cases fault with
        | some reason => cases h
        | none =>
            cases h
            rfl
  · by_contra hne
    exact hfree.2 ⟨hne, hexclusive⟩

/-- The verb is remembered before the command is sent. -/
theorem Remembered.command (h : Remembered w) {p : Presenter}
    (hp : p.pending = verb :: w.presenter.pending)
    (hexclusive : verb.exclusive = true → w.presenter.pending = []) (a b : Bool) :
    Remembered ({ w with presenter := p, aboutAttempted := a, aboutLoading := b }.command env verb) := by
  have hzero : verb.exclusive = true → w.exclusives = 0 := by
    intro hverb
    by_contra hne
    obtain ⟨v, hv, hwaiting⟩ := exclusives_pos_iff.mp (Nat.pos_of_ne_zero hne)
    have hmem := h.holds v hv hwaiting
    rw [hexclusive hverb] at hmem
    cases hmem
  have hfinishing : Finishing verb
      { w with presenter := p, aboutAttempted := a, aboutLoading := b } := by
    refine ⟨fun v hv hne => ?_, fun v hv hwaiting => ?_, ?_⟩
    · simp only [hp, List.mem_cons] at hv
      exact h.waits v (hv.resolve_left hne)
    · simp only [hp]
      exact List.mem_cons_of_mem verb (h.holds v hv hwaiting)
    · split
      · next hverb => exact le_of_eq (congrArg (· + 1) (hzero hverb))
      · exact h.single
  unfold Window.command
  split
  · exact hfinishing.finished _
  · cases env.command with
    | some message => exact hfinishing.finished _
    | none =>
        refine ⟨fun v hv => ?_, fun v hv hwaiting => ?_, ?_⟩
        · rw [waiting_ask]
          split
          · omega
          · next hne =>
            exact hfinishing.waits v hv fun heq => hne (by rw [heq])
        · rw [waiting_ask] at hwaiting
          split at hwaiting
          · next heq =>
            obtain rfl := Query.command.inj heq
            simp only [Window.ask, hp]
            exact List.mem_cons_self
          · exact hfinishing.holds v hv hwaiting
        · rw [Window.exclusives, waitingFor_ask]
          exact hfinishing.single

theorem Remembered.send (h : Remembered w) (fault : Option Reason) :
    Remembered (w.send env verb fault) := by
  unfold Window.send
  split
  · apply h.shown
    rfl
  · next p hbegin =>
    obtain ⟨hp, hexclusive⟩ := begin_ok hbegin
    exact h.command hp hexclusive _ _

theorem Remembered.loadAbout (h : Remembered w) : Remembered (w.loadAbout env) := by
  unfold Window.loadAbout
  split
  · exact h
  · split
    · exact h
    · exact (h.shown w.presenter rfl true true).send _

/-- The presenter takes a state, or is told of an error while nothing excludes others. -/
theorem Remembered.stateChanged (h : Remembered w) (state : PyValue)
    (hvalid : ∀ message, Presenter.checkState state = .error (.value message) → w.exclusives = 0) :
    Remembered (w.stateChanged env state) := by
  unfold Window.stateChanged Presenter.update
  cases hcheck : Presenter.checkState state with
  | error e =>
      cases e with
      | value message => exact Remembered.forgotten (hvalid message hcheck) _ rfl _ _
      | overflow => exact h
  | ok _ =>
      dsimp only
      split
      · apply Remembered.loadAbout
        apply h.shown
        rfl
      · apply h.shown
        rfl

/-- Nothing is under way on a new connection or with a new owner. -/
theorem remembered_fresh (hzero : ∀ kind, w.waitingFor kind = 0) (hp : w.presenter.pending = []) :
    Remembered w := by
  refine ⟨fun v hv => ?_, fun v _ hwaiting => ?_, ?_⟩
  · rw [hp] at hv
    cases hv
  · exact absurd (hzero _) (Nat.ne_of_gt hwaiting)
  · exact (hzero _).trans_le (Nat.zero_le 1)

theorem Sound.fresh_close (h : Sound w) (hp : w.presenter.pending = []) : Remembered w.close :=
  remembered_fresh (fun _ => waitingFor_eq_zero fun _ hr => h.era_lt hr) hp

theorem Sound.fresh_connect (h : Sound w) (hp : w.presenter.pending = []) :
    Remembered w.connect := by
  have hclosed := h.fresh_close hp
  have hstarted : Remembered { w.close with
      client := { w.close.client with startup := some w.close.client.generation } } :=
    ⟨hclosed.waits, hclosed.holds, hclosed.single⟩
  exact hstarted.ask_other fun _ => nofun

/-- A command is under way only with an owner. -/
theorem Sound.owned_of_waiting (h : Sound w) (hwaiting : 0 < w.waiting (.command verb)) :
    w.client.proxy = some true := by
  obtain ⟨r, hr, hquery, hera⟩ := waitingFor_pos_iff.mp hwaiting
  have hcommand : r.query = .command verb := by simpa using hquery
  exact ((h.requests r hr).counts (by simp [hcommand])).2 hera

theorem Sound.exclusives_eq_zero (h : Sound w) (hproxy : w.client.proxy ≠ some true) :
    w.exclusives = 0 := by
  by_contra hne
  obtain ⟨verb, -, hwaiting⟩ := exclusives_pos_iff.mp (Nat.pos_of_ne_zero hne)
  exact hproxy (h.owned_of_waiting hwaiting)

theorem Remembered.ownerChanged (h : Remembered w) (hzero : w.exclusives = 0) :
    Remembered (w.ownerChanged env) := by
  unfold Window.ownerChanged
  dsimp only
  split
  · have hnext : Remembered { w with client := { w.client with
        ownerEpoch := w.client.ownerEpoch + 1, fetching := false } } :=
      ⟨h.waits, h.holds, h.single⟩
    exact hnext.refresh (.inr hzero)
  · apply remembered_serviceError
    exact hzero

theorem Sound.remembered_reowned (hs : Sound w) (h : Remembered w) {owned : Bool}
    (howned : w.client.proxy = some owned) : Remembered ({ w with
      client := { w.client with proxy := some !owned }, era := w.era + 1 }.ownerChanged env) := by
  have hzero : ∀ kind, ({ w with
      client := { w.client with proxy := some !owned }, era := w.era + 1 } : Window).waitingFor kind =
      0 := fun kind => waitingFor_eq_zero fun r hr => hs.era_lt hr
  cases owned with
  | true =>
      apply remembered_serviceError
      exact hzero _
  | false =>
      apply Remembered.ownerChanged _ (hzero _)
      apply remembered_fresh hzero
      apply List.eq_nil_iff_forall_not_mem.mpr
      intro v hv
      have hsome := hs.owned_of_waiting (h.waits v hv)
      rw [howned] at hsome
      cases hsome

theorem Remembered.ready (h : Remembered w) (hproxy : w.client.proxy = none → w.exclusives = 0)
    (ha : Answered r w) (hquery : r.query = .connect) (reply : Reply) :
    Remembered (w.ready env r reply) := by
  unfold Window.ready
  split
  · exact h
  · next hgeneration =>
    obtain ⟨hiff, hnone⟩ := ha.stamped.connect hquery
    have hzero := hproxy (hnone (hiff.mpr (not_not.mp hgeneration)))
    cases reply with
    | failed message =>
        apply remembered_serviceError
        exact hzero
    | body message => exact ⟨h.waits, h.holds, h.single⟩
    | proxy owned =>
        have hnext : Remembered { w with client := { w.client with
            startup := none, proxy := some owned, poll := true } } :=
          ⟨h.waits, h.holds, h.single⟩
        exact hnext.ownerChanged hzero

theorem Remembered.receivedState (h : Remembered w) (ha : Answered r w)
    (hquery : r.query = .getState) (reply : Reply)
    (hrefuses : r.era = w.era → reply.refuses loads (r.signals = w.signals) = true →
      w.exclusives = 0) : Remembered (w.receivedState loads env r reply) := by
  unfold Window.receivedState
  split
  · exact h
  · next hcounts =>
    obtain ⟨hiff, -⟩ := ha.stamped.counts (by simp [hquery])
    have hera : r.era = w.era := hiff.mpr (not_not.mp hcounts)
    have hfree : Remembered { w with client := { w.client with fetching := false } } :=
      ⟨h.waits, h.holds, h.single⟩
    cases hdecode : reply.decode (decodeObject loads) with
    | error e =>
        cases e with
        | caught reason =>
            have hzero := hrefuses hera (by simp [Reply.refuses, hdecode])
            apply remembered_statusError
            exact hzero
        | recursion => exact hfree
    | ok value =>
        dsimp only
        split
        · next hsignals =>
          have hsame : r.signals = w.signals := by
            rw [← ha.stamped.signals, hsignals]
            exact ha.signals
          apply Remembered.stateChanged
          · exact ⟨h.waits, h.holds, h.single⟩
          · intro message hcheck
            exact hrefuses hera (by simp [Reply.refuses, hdecode, hsame, hcheck])
        · exact hfree

theorem Remembered.signal (h : Remembered w) (name : String) (body : Body)
    (hrefuses : name = "StateChanged" → (Reply.body body).refuses loads true = true →
      w.exclusives = 0) : Remembered (w.signal loads env name body) := by
  unfold Window.signal
  split
  · exact h
  · next hname =>
    have hrefuses := hrefuses (not_not.mp hname)
    cases hdecode : decodeObject loads body with
    | error e =>
        cases e with
        | caught reason =>
            have hzero := hrefuses (by simp [Reply.refuses, Reply.decode, hdecode])
            apply remembered_serviceError
            exact hzero
        | recursion => exact ⟨h.waits, h.holds, h.single⟩
    | ok value =>
        apply Remembered.stateChanged
        · exact ⟨h.waits, h.holds, h.single⟩
        · intro message hcheck
          exact hrefuses (by simp [Reply.refuses, Reply.decode, hdecode, hcheck])

theorem Remembered.receivedResult (h : w.client.counts r = true → Finishing verb w)
    (hlapsed : w.client.counts r = false → Remembered w) (reply : Reply)
    (hkept : w.client.counts r = true → reply.decode (decodeResult loads) ≠ .error .recursion)
    (hstatus : env.getState = none ∨ w.exclusives = 0) :
    Remembered (w.receivedResult loads env r verb reply) := by
  unfold Window.receivedResult
  split
  · next hcounts => exact hlapsed (by simpa using hcounts)
  · next hcounts =>
    have hcounts : w.client.counts r = true := not_not.mp hcounts
    split
    · exact ((h hcounts).finished _).refresh hstatus
    · next hrecursion => exact absurd hrecursion (hkept hcounts)
    · exact ((h hcounts).finished _).refresh hstatus

theorem Remembered.erase (h : Remembered w) {index : Nat} (hr : w.requests[index]? = some r)
    (hother : ∀ v, r.query = .command v → r.era ≠ w.era) :
    Remembered { w with requests := w.requests.eraseIdx index } := by
  have hsame : ∀ v, ({ w with requests := w.requests.eraseIdx index } : Window).waiting
      (.command v) = w.waiting (.command v) := by
    intro v
    have herase := @waitingFor_erase w r index (fun q => q = .command v) hr
    rwa [if_neg (by simpa using hother v), Nat.add_zero] at herase
  refine ⟨fun v hv => ?_, fun v hexclusive hwaiting => ?_, ?_⟩
  · rw [hsame]
    exact h.waits v hv
  · rw [hsame] at hwaiting
    exact h.holds v hexclusive hwaiting
  · exact (Nat.le_add_right _ _).trans ((waitingFor_erase hr).trans_le h.single)

theorem Remembered.answered (h : Remembered w) {index : Nat} (hr : w.requests[index]? = some r)
    (hquery : r.query = .command verb) (hera : r.era = w.era) :
    Finishing verb { w with requests := w.requests.eraseIdx index } := by
  refine ⟨fun v hv hne => ?_, fun v hexclusive hwaiting => ?_, ?_⟩
  · have herase := @waitingFor_erase w r index (fun q => q = .command v) hr
    rw [if_neg (by simp [hquery, hne.symm]), Nat.add_zero] at herase
    exact (h.waits v hv).trans_eq herase.symm
  · apply h.holds v hexclusive
    exact hwaiting.trans_le ((Nat.le_add_right _ _).trans_eq (waitingFor_erase hr))
  · have herase := @waitingFor_erase w r index Query.exclusive hr
    have hkind : r.query.exclusive = verb.exclusive := by
      rw [hquery]
      rfl
    simp only [hkind, hera, and_true] at herase
    exact herase.trans_le h.single

theorem step_remembered (ho : Ordered w) (h : Remembered w) {a : UiAction} {t : Window}
    (hquiet : w.quiet loads a = true) (hstep : (uiSystem loads).step w a = some t) :
    Remembered t := by
  simp only [Window.quiet, Bool.and_eq_true, Bool.or_eq_true, Bool.not_eq_true',
    decide_eq_true_eq] at hquiet
  obtain ⟨⟨hstatus, hkept⟩, hsilent⟩ := hquiet
  have hcall : a.env.getState = none ∨ w.exclusives = 0 := by
    obtain hfails | hzero := hstatus
    · left
      rw [Window.failsStatus, Bool.or_eq_false_iff] at hfails
      exact Option.isSome_eq_false_iff.mp hfails.1 |> Option.isNone_iff_eq_none.mp
    · exact .inr hzero
  obtain ⟨event, env⟩ := a
  cases event with
  | idle =>
      simp only [uiSystem] at hstep
      split at hstep
      · cases hstep
        have hpending : w.presenter.pending = [] := by
          simpa [UiEvent.silent] using hsilent
        exact Sound.fresh_connect ⟨ho.signals, ho.requests, ho.updates⟩ hpending
      · cases hstep
  | retry =>
      cases hstep
      exact (ho.serviceError _).toSound.fresh_connect rfl
  | close =>
      cases hstep
      have hpending : w.presenter.pending = [] := by
        simpa [UiEvent.silent] using hsilent
      exact ho.toSound.fresh_close hpending
  | startupExpired =>
      obtain ⟨generation, -, rfl⟩ := Option.map_eq_some_iff.mp hstep
      dsimp only
      split
      · next hnone =>
        apply remembered_serviceError
        apply ho.toSound.exclusives_eq_zero
        rw [hnone.2]
        intro hsome
        cases hsome
      · exact ⟨h.waits, h.holds, h.single⟩
  | pollState =>
      simp only [uiSystem] at hstep
      split at hstep
      · cases hstep
        exact h.refresh hcall
      · cases hstep
  | ownerChanged =>
      obtain ⟨owned, howned, rfl⟩ := Option.map_eq_some_iff.mp hstep
      exact ho.toSound.remembered_reowned h howned
  | busClosed =>
      obtain ⟨_, -, rfl⟩ := Option.map_eq_some_iff.mp hstep
      apply remembered_serviceError
      exact waitingFor_eq_zero fun r hr => ho.toSound.era_lt hr
  | signal name body =>
      obtain ⟨_, -, rfl⟩ := Option.map_eq_some_iff.mp hstep
      apply h.signal
      intro hname hrefuses
      obtain hfails | hzero := hstatus
      · simp [Window.failsStatus, hname, hrefuses] at hfails
      · exact hzero
  | reply index reply =>
      obtain ⟨r, hr, rfl⟩ := Option.map_eq_some_iff.mp hstep
      have ha := ho.answer hr
      have hless : ({ w with requests := w.requests.eraseIdx index } : Window).exclusives ≤
          w.exclusives := (Nat.le_add_right _ _).trans_eq (waitingFor_erase hr)
      unfold Window.received
      cases hquery : r.query with
      | connect =>
          have herased := h.erase hr (by simp [hquery])
          apply herased.ready _ ha hquery
          intro hnone
          apply ha.toSound.exclusives_eq_zero
          rw [hnone]
          intro hsome
          cases hsome
      | getState =>
          have herased := h.erase hr (by simp [hquery])
          apply herased.receivedState ha hquery
          intro hera hrefuses
          obtain hfails | hzero := hstatus
          · simp [Window.failsStatus, hr, hquery, hera, hrefuses] at hfails
          · exact Nat.eq_zero_of_le_zero (hless.trans_eq hzero)
      | command verb =>
          obtain ⟨hiff, -⟩ := ha.stamped.counts (by simp [hquery])
          apply Remembered.receivedResult
          · exact fun hcounts => h.answered hr hquery (hiff.mpr hcounts)
          · intro hcounts
            apply h.erase hr
            intro _ _ hera
            rw [hiff.mp hera] at hcounts
            cases hcounts
          · intro hcounts hrecursion
            have hera : r.era = w.era := hiff.mpr hcounts
            simp [Window.losesReply, hr, hquery, hera, hrecursion] at hkept
          · exact hcall.imp id fun hzero => Nat.eq_zero_of_le_zero (hless.trans_eq hzero)
  | send verb fault =>
      cases hstep
      exact h.send fault
  | showAbout =>
      cases hstep
      exact h.loadAbout

theorem initial_remembered : Remembered Window.initial :=
  remembered_fresh (fun _ => rfl) rfl

theorem reaches_remembered
    (run : (uiSystem loads).Reaches (fun w a => w.quiet loads a = true) .initial w) :
    Remembered w := by
  have hboth : Ordered w ∧ Remembered w := by
    refine run.invariant (P := fun w => Ordered w ∧ Remembered w) ?_
      ⟨initial_ordered, initial_remembered⟩
    rintro w a t ⟨ho, h⟩ hquiet hstep
    exact ⟨step_ordered ho hstep, step_remembered ho h hquiet hstep⟩
  exact hboth.2

/-- In every run: a reply reaches the presenter only if nothing has happened since its
request; a lapsed reply does nothing; the flag tells whether the one request for the state
is current. In a quiet run the presenter remembers only commands under way, and at most one
that excludes others is. -/
theorem ui_replies_current (run : (uiSystem loads).Reaches System.Any .initial w) :
    (∀ u ∈ w.updates, u.1.era = u.2.1 ∧ u.1.signals = u.2.2) ∧
      (∀ index r reply env t, w.requests[index]? = some r → r.era ≠ w.era →
        (uiSystem loads).step w ⟨.reply index reply, env⟩ = some t →
        t = { w with requests := w.requests.eraseIdx index }) ∧
      (w.waiting .getState ≤ 1 ∧ (w.waiting .getState = 0 → w.client.fetching = false)) ∧
      ((uiSystem loads).Reaches (fun w a => w.quiet loads a = true) .initial w →
        ((∀ verb, w.waiting (.command verb) = 0) → w.presenter.pending = []) ∧
          w.exclusives ≤ 1) := by
  have h := reaches_ordered run
  refine ⟨h.updates, ?_, ?_, ?_⟩
  · intro index r reply env t hr hera hstep
    simp only [uiSystem, hr, Option.map_some, Option.some.injEq] at hstep
    rw [← hstep]
    exact (h.answer hr).received_lapsed hera reply
  · have hfetches := h.fetches
    cases hflag : w.client.fetching with
    | true =>
        rw [hflag, if_pos rfl] at hfetches
        exact ⟨hfetches.le, fun hzero => by omega⟩
    | false =>
        rw [hflag] at hfetches
        exact ⟨hfetches.trans_le (Nat.zero_le 1), fun _ => rfl⟩
  · intro hquiet
    have hremembered := reaches_remembered hquiet
    refine ⟨fun hidle => ?_, hremembered.single⟩
    apply List.eq_nil_iff_forall_not_mem.mpr
    intro verb hverb
    exact absurd (hidle verb) (hremembered.waits verb hverb).ne'

end Callbacks

section Examples

def calm : Surroundings := ⟨0, false, none, none⟩

/-- A controller that is ready to look for displays and to calibrate. -/
def readyState : PyValue :=
  .dict [("api_version", .int 1), ("status", .str "stopped"),
    ("features", .list [.str "discover", .str "calibrate"])]

def readyLoads (_ : String) : Except JsonError PyValue := .ok readyState

def UiEvent.calmly (event : UiEvent) : UiAction := ⟨event, calm⟩

/-- The window connects, hears that the controller is ready, and sends a command. -/
def firstCommand : List UiAction :=
  [.idle, .reply 0 (.proxy true), .reply 0 (.body (.text "ready")), .send .discover none].map
    UiEvent.calmly

/-- A signal without content follows, and then a good one. -/
def secondCommand : List UiAction :=
  firstCommand ++ [.signal "StateChanged" .missing, .signal "StateChanged" (.text "ready"),
    .send .calibrate none].map UiEvent.calmly

end Examples

theorem ui_replies_current_first : ∃ w,
    ((uiSystem readyLoads).guard fun w a => w.quiet readyLoads a).exec .initial firstCommand =
      some w ∧
    w.exclusives ≤ 1 ∧ ((∀ verb, w.waiting (.command verb) = 0) → w.presenter.pending = []) := by
  obtain ⟨w, hw⟩ := Option.isSome_iff_exists.mp
    (show (((uiSystem readyLoads).guard fun w a => w.quiet readyLoads a).exec .initial
      firstCommand).isSome = true by decide +kernel)
  have hquiet := System.reaches_of_guard hw
  have hreplies := ui_replies_current (hquiet.weaken fun _ _ _ => trivial)
  exact ⟨w, hw, (hreplies.2.2.2 hquiet).2, (hreplies.2.2.2 hquiet).1⟩

/-- A malformed signal lets a second command be sent while the first is under way. -/
theorem second_command_sent : ¬ ∀ (loads : String → Except JsonError PyValue) (w : Window),
    (uiSystem loads).Reaches System.Any .initial w → w.exclusives ≤ 1 := by
  intro h
  obtain ⟨w, hw⟩ := Option.isSome_iff_exists.mp
    (show ((uiSystem readyLoads).exec .initial secondCommand).isSome = true by decide +kernel)
  have hle := h readyLoads w (System.reaches_of_exec hw)
  have htwo : ((uiSystem readyLoads).exec .initial secondCommand).map Window.exclusives =
      some 2 := by decide +kernel
  rw [hw] at htwo
  have heq : w.exclusives = 2 := Option.some.inj htwo
  omega

end HccastWired.Ui
