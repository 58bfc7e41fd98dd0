import HccastWired.Ui.Client

/-!
# Replies of the controller that count

A request is current while the connection and its owner are those it was made with.
The counters of the client decide exactly that; every other reply is dropped.
-/

namespace HccastWired.Ui

open Foundation

/-- The requests of a kind that were made since the last change of connection or owner. -/
def Window.waitingFor (w : Window) (kind : Query → Bool) : Nat :=
  w.requests.countP fun r => kind r.query && r.era = w.era

abbrev Window.waiting (w : Window) (query : Query) : Nat :=
  w.waitingFor fun q => q = query

/-- The counters that a request holds, beside those of the window. -/
structure Stamped (c : Client) (era : Nat) (r : Request) : Prop where
  generation_le : r.generation ≤ c.generation
  ownerEpoch_le : r.ownerEpoch ≤ c.ownerEpoch
  era_le : r.era ≤ era
  signals : r.stateGeneration = r.signals
  connect : r.query = .connect →
    (r.era = era ↔ r.generation = c.generation) ∧ (r.era = era → c.proxy = none)
  counts : r.query ≠ .connect →
    (r.era = era ↔ c.counts r = true) ∧ (r.era = era → c.proxy = some true)

/-- What no callback changes, and holds inside one too. -/
structure Sound (w : Window) : Prop where
  signals : w.client.stateGeneration = w.signals
  requests : ∀ r ∈ w.requests, Stamped w.client w.era r
  updates : ∀ u ∈ w.updates, u.1.era = u.2.1 ∧ u.1.signals = u.2.2

/-- The flag of the client says whether a request for the state is current. -/
structure Ordered (w : Window) : Prop extends Sound w where
  connects : w.waiting .connect ≤ 1
  fetches : w.waiting .getState = if w.client.fetching then 1 else 0

section Waiting

variable {w : Window} {c c' : Client} {era : Nat} {r : Request} {query query' : Query}
  {kind : Query → Bool}

theorem waitingFor_ask : (w.ask query).waitingFor kind =
    w.waitingFor kind + if kind query then 1 else 0 := by
  unfold Window.waitingFor Window.ask
  rw [List.countP_append]
  congr 1
  simp [List.countP_cons]

theorem waiting_ask : (w.ask query).waiting query' =
    w.waiting query' + if query = query' then 1 else 0 := by
  rw [Window.waiting, waitingFor_ask]
  simp

theorem waitingFor_pos_iff :
    0 < w.waitingFor kind ↔ ∃ r ∈ w.requests, kind r.query = true ∧ r.era = w.era := by
  simp [Window.waitingFor, List.countP_pos_iff]

theorem waitingFor_eq_zero (h : ∀ r ∈ w.requests, r.era < w.era) : w.waitingFor kind = 0 := by
  rw [Window.waitingFor, List.countP_eq_zero]
  intro r hr
  have hlt := h r hr
  simp only [Bool.and_eq_true, decide_eq_true_eq, not_and]
  omega

theorem Stamped.same (h : Stamped c era r) (hgeneration : c'.generation = c.generation)
    (hepoch : c'.ownerEpoch = c.ownerEpoch) (hproxy : c'.proxy = c.proxy) : Stamped c' era r := by
  obtain ⟨h₁, h₂, h₃, h₄, h₅, h₆⟩ := h
  constructor
  · rwa [hgeneration]
  · rwa [hepoch]
  · exact h₃
  · exact h₄
  · rwa [hgeneration, hproxy]
  · rwa [Client.counts, hgeneration, hepoch, hproxy]

/-- No request survives a new connection. -/
theorem Stamped.reconnect (h : Stamped c era r) (hgeneration : c'.generation = c.generation + 1)
    (hepoch : c'.ownerEpoch = c.ownerEpoch) : Stamped c' (era + 1) r := by
  have hera := h.era_le
  have hgen := h.generation_le
  have hlt : ¬ r.era = era + 1 := by omega
  have hne : ¬ r.generation = c'.generation := by omega
  constructor
  · omega
  · exact hepoch ▸ h.ownerEpoch_le
  · omega
  · exact h.signals
  · exact fun _ => ⟨iff_of_false hlt hne, fun heq => absurd heq hlt⟩
  · intro _
    refine ⟨iff_of_false hlt ?_, fun heq => absurd heq hlt⟩
    simp [Client.counts, hne]

/-- No request survives a new owner. -/
theorem Stamped.reowned (h : Stamped c era r) (hgeneration : c'.generation = c.generation)
    (hepoch : c'.ownerEpoch = c.ownerEpoch + 1) (hproxy : c.proxy ≠ none) :
    Stamped c' (era + 1) r := by
  have hera := h.era_le
  have hown := h.ownerEpoch_le
  have hlt : ¬ r.era = era + 1 := by omega
  have hne : ¬ r.ownerEpoch = c'.ownerEpoch := by omega
  constructor
  · exact hgeneration ▸ h.generation_le
  · omega
  · omega
  · exact h.signals
  · intro hquery
    obtain ⟨hiff, hnone⟩ := h.connect hquery
    refine ⟨iff_of_false hlt fun heq => ?_, fun heq => absurd heq hlt⟩
    exact hproxy (hnone (hiff.mpr (hgeneration ▸ heq)))
  · intro _
    refine ⟨iff_of_false hlt ?_, fun heq => absurd heq hlt⟩
    simp [Client.counts, hne]

/-- A first owner is found while nothing is asked of one. -/
theorem Stamped.owned (h : Stamped c era r) (hnone : c.proxy = none)
    (hother : r.query = .connect → r.era ≠ era) (hgeneration : c'.generation = c.generation)
    (hepoch : c'.ownerEpoch = c.ownerEpoch + 1) : Stamped c' era r := by
  have hown := h.ownerEpoch_le
  have hne : ¬ r.ownerEpoch = c'.ownerEpoch := by omega
  constructor
  · exact hgeneration ▸ h.generation_le
  · omega
  · exact h.era_le
  · exact h.signals
  · intro hquery
    obtain ⟨hiff, -⟩ := h.connect hquery
    exact ⟨hgeneration ▸ hiff, fun heq => absurd heq (hother hquery)⟩
  · intro hquery
    obtain ⟨-, hproxy⟩ := h.counts hquery
    have hera : ¬ r.era = era := by
      intro heq
      rw [hproxy heq] at hnone
      cases hnone
    refine ⟨iff_of_false hera ?_, fun heq => absurd heq hera⟩
    simp [Client.counts, hne]

theorem Sound.ask (h : Sound w)
    (hproxy : w.client.proxy = if query = .connect then none else some true) :
    Sound (w.ask query) := by
  refine ⟨h.signals, fun r hr => ?_, h.updates⟩
  obtain hr | hr := List.mem_append.mp hr
  · exact h.requests r hr
  · obtain rfl := List.mem_singleton.mp hr
    refine ⟨le_rfl, le_rfl, le_rfl, h.signals, fun hquery => ?_, fun hquery => ?_⟩
    · exact ⟨iff_of_true rfl rfl, fun _ => hproxy.trans (if_pos hquery)⟩
    · exact ⟨iff_of_true rfl (by simp [Client.counts, Window.ask]), fun _ => hproxy.trans (if_neg hquery)⟩

end Waiting

section Callbacks

theorem eraseIdx_split {α : Type*} {l : List α} {index : Nat} {a : α} (h : l[index]? = some a) :
    ∃ before after, l = before ++ a :: after ∧ l.eraseIdx index = before ++ after := by
  obtain ⟨hlt, rfl⟩ := List.getElem?_eq_some_iff.mp h
  refine ⟨l.take index, l.drop (index + 1), ?_, List.eraseIdx_eq_take_drop_succ l index⟩
  rw [List.getElem_cons_drop, List.take_append_drop]

variable {w : Window} {env : Surroundings} {r : Request} {loads : String → Except JsonError PyValue}

/-- What holds when a callback has been taken off the list. -/
structure Answered (r : Request) (w : Window) : Prop extends Sound w where
  stamped : Stamped w.client w.era r
  connects : w.waiting .connect + (if r.query = .connect ∧ r.era = w.era then 1 else 0) ≤ 1
  fetches : w.waiting .getState + (if r.query = .getState ∧ r.era = w.era then 1 else 0) =
    if w.client.fetching then 1 else 0

/-- What is shown is no part of the order of the replies. -/
theorem Ordered.shown (h : Ordered w) (p : Presenter) (a b : Bool) :
    Ordered { w with presenter := p, aboutAttempted := a, aboutLoading := b } :=
  ⟨⟨h.signals, h.requests, h.updates⟩, h.connects, h.fetches⟩

theorem Ordered.serviceError (h : Ordered w) (reason : Reason) : Ordered (w.serviceError reason) :=
  h.shown _ _ _

theorem Ordered.statusError (h : Ordered w) (reason : Reason) : Ordered (w.statusError reason) := by
  cases reason with
  | text message => exact h.serviceError _
  | reported lead value => exact h.serviceError _

theorem Ordered.finished (h : Ordered w) (verb : Verb) (error : Option Reason) :
    Ordered (w.finished verb error) :=
  h.shown _ _ _

theorem Ordered.ask_command (h : Ordered w) (hproxy : w.client.proxy = some true) (verb : Verb) :
    Ordered (w.ask (.command verb)) := by
  refine ⟨h.toSound.ask hproxy, ?_, ?_⟩
  · rw [waiting_ask]
    exact h.connects
  · rw [waiting_ask]
    exact h.fetches

theorem Ordered.refresh (h : Ordered w) : Ordered (w.refresh env) := by
  unfold Window.refresh
  split
  · exact h
  · next hfree =>
    rw [not_or, not_not] at hfree
    obtain ⟨hfetching, hproxy⟩ := hfree
    have hidle := h.fetches
    rw [if_neg hfetching] at hidle
    cases env.getState with
    | some message => exact h.statusError _
    | none =>
        have hsound : Sound { w with client := { w.client with fetching := true } } :=
          ⟨h.signals, fun r hr => (h.requests r hr).same rfl rfl rfl, h.updates⟩
        refine ⟨hsound.ask hproxy, ?_, ?_⟩
        · rw [waiting_ask]
          exact h.connects
        · rw [waiting_ask]
          exact congrArg (· + 1) hidle

theorem Ordered.command (h : Ordered w) (verb : Verb) : Ordered (w.command env verb) := by
  unfold Window.command
  split
  · exact h.finished _ _
  · next hproxy =>
    cases env.command with
    | some message => exact h.finished _ _
    | none => exact h.ask_command (not_not.mp hproxy) verb

theorem Ordered.send (h : Ordered w) (verb : Verb) (fault : Option Reason) :
    Ordered (w.send env verb fault) := by
  unfold Window.send
  split
  · exact h.shown _ _ _
  · next p _ => exact (h.shown p w.aboutAttempted w.aboutLoading).command verb

theorem Ordered.loadAbout (h : Ordered w) : Ordered (w.loadAbout env) := by
  unfold Window.loadAbout
  split
  · exact h
  · split
    · exact h
    · exact (h.shown w.presenter true true).send _ _

theorem Ordered.stateChanged (h : Ordered w) (state : PyValue) :
    Ordered (w.stateChanged env state) := by
  unfold Window.stateChanged
  split
  · exact h.shown _ _ _
  · next p _ =>
    split
    · exact (h.shown p w.aboutAttempted w.aboutLoading).loadAbout
    · exact h.shown _ _ _

theorem Sound.era_lt (h : Sound w) {r : Request} (hr : r ∈ w.requests) : r.era < w.era + 1 :=
  Nat.lt_succ_of_le (h.requests r hr).era_le

theorem Sound.close (h : Sound w) : Ordered w.close := by
  have hzero : ∀ query, w.close.waiting query = 0 :=
    fun query => waitingFor_eq_zero fun r hr => h.era_lt hr
  refine ⟨⟨h.signals, fun r hr => (h.requests r hr).reconnect rfl rfl, h.updates⟩, ?_, ?_⟩
  · rw [hzero]
    exact Nat.zero_le 1
  · exact hzero _

theorem Sound.connect (h : Sound w) : Ordered w.connect := by
  have hclosed := h.close
  have hzero : w.close.waiting .connect = 0 := waitingFor_eq_zero fun r hr => h.era_lt hr
  have hsound : Sound { w.close with
      client := { w.close.client with startup := some w.close.client.generation } } :=
    ⟨hclosed.signals, fun r hr => (hclosed.requests r hr).same rfl rfl rfl, hclosed.updates⟩
  refine ⟨hsound.ask rfl, ?_, ?_⟩
  · rw [Window.connect, waiting_ask]
    exact le_of_eq (congrArg (· + 1) hzero)
  · rw [Window.connect, waiting_ask]
    exact hclosed.fetches

/-- The owner is looked at after the requests to the last one have lapsed. -/
theorem Sound.ownerChanged
    (h : Sound { w with client := { w.client with
      ownerEpoch := w.client.ownerEpoch + 1, fetching := false } })
    (hconnects : w.waiting .connect ≤ 1) (hfetches : w.waiting .getState = 0) :
    Ordered (w.ownerChanged env) := by
  have hnext : Ordered { w with client := { w.client with
      ownerEpoch := w.client.ownerEpoch + 1, fetching := false } } := ⟨h, hconnects, hfetches⟩
  unfold Window.ownerChanged
  split
  · exact hnext.refresh
  · exact hnext.serviceError _

theorem Sound.reowned (h : Sound w) {owned : Bool} (hproxy : w.client.proxy = some owned)
    (next : Bool) : Ordered ({ w with
      client := { w.client with proxy := some next }, era := w.era + 1 }.ownerChanged env) := by
  have hzero : ∀ query, ({ w with
      client := { w.client with proxy := some next }, era := w.era + 1 } : Window).waiting query =
      0 := fun query => waitingFor_eq_zero fun r hr => h.era_lt hr
  apply Sound.ownerChanged
  · refine ⟨h.signals, fun r hr => (h.requests r hr).reowned rfl rfl ?_, h.updates⟩
    rw [hproxy]
    exact Option.some_ne_none owned
  · rw [hzero]
    exact Nat.zero_le 1
  · exact hzero _

/-- The callback of a request that has lapsed. -/
theorem Answered.lapsed (h : Answered r w) (hera : r.era ≠ w.era) : Ordered w := by
  have hconnects := h.connects
  have hfetches := h.fetches
  rw [if_neg fun hr => hera hr.2] at hconnects hfetches
  exact ⟨h.toSound, hconnects, hfetches⟩

theorem Answered.ready (h : Answered r w) (hquery : r.query = .connect) (reply : Reply) :
    Ordered (w.ready env r reply) := by
  obtain ⟨hiff, hproxy⟩ := h.stamped.connect hquery
  unfold Window.ready
  split
  · next hgeneration => exact h.lapsed fun hera => hgeneration (hiff.mp hera)
  · next hgeneration =>
    have hera : r.era = w.era := hiff.mpr (not_not.mp hgeneration)
    have hconnects := h.connects
    rw [if_pos ⟨hquery, hera⟩] at hconnects
    have hfetches := h.fetches
    rw [if_neg (by simp [hquery])] at hfetches
    have hnone : w.client.proxy = none := hproxy hera
    have hother : ∀ r ∈ w.requests, r.query = .connect → r.era ≠ w.era := by
      intro r' hr' hquery' hera'
      have hpos : 0 < w.waiting .connect :=
        waitingFor_pos_iff.mpr ⟨r', hr', by simp [hquery'], hera'⟩
      omega
    have hidle : w.waiting .getState = 0 := by
      by_contra hne
      obtain ⟨r', hr', hquery', hera'⟩ := waitingFor_pos_iff.mp (Nat.pos_of_ne_zero hne)
      have hstate : r'.query = .getState := by simpa using hquery'
      have hsome := ((h.requests r' hr').counts (by simp [hstate])).2 hera'
      rw [hnone] at hsome
      cases hsome
    have hstarted : Ordered { w with client := { w.client with startup := none } } :=
      ⟨⟨h.signals, fun r hr => (h.requests r hr).same rfl rfl rfl, h.updates⟩, by
        exact Nat.le_of_succ_le hconnects, hfetches⟩
    cases reply with
    | failed message => exact hstarted.serviceError _
    | body message => exact hstarted
    | proxy owned =>
        apply Sound.ownerChanged
        · exact ⟨h.signals, fun r hr => (h.requests r hr).owned hnone (hother r hr) rfl rfl, h.updates⟩
        · exact Nat.le_of_succ_le hconnects
        · exact hidle

theorem Ordered.updated (h : Ordered w) (hera : r.era = w.era) (hsignals : r.signals = w.signals) :
    Ordered { w with updates := w.updates ++ [(r, w.era, w.signals)] } := by
  refine ⟨⟨h.signals, h.requests, fun u hu => ?_⟩, h.connects, h.fetches⟩
  obtain hu | hu := List.mem_append.mp hu
  · exact h.updates u hu
  · obtain rfl := List.mem_singleton.mp hu
    exact ⟨hera, hsignals⟩

theorem Answered.receivedState (h : Answered r w) (hquery : r.query = .getState) (reply : Reply) :
    Ordered (w.receivedState loads env r reply) := by
  obtain ⟨hiff, -⟩ := h.stamped.counts (by simp [hquery])
  unfold Window.receivedState
  split
  · next hcounts => exact h.lapsed fun hera => hcounts (hiff.mp hera)
  · next hcounts =>
    have hera : r.era = w.era := hiff.mpr (not_not.mp hcounts)
    have hconnects := h.connects
    rw [if_neg (by simp [hquery])] at hconnects
    have hfetches := h.fetches
    rw [if_pos ⟨hquery, hera⟩] at hfetches
    have hidle : w.waiting .getState = 0 := by
      split at hfetches <;> omega
    have hfree : Ordered { w with client := { w.client with fetching := false } } :=
      ⟨⟨h.signals, fun r hr => (h.requests r hr).same rfl rfl rfl, h.updates⟩, hconnects, hidle⟩
    dsimp only
    split
    · exact hfree.statusError _
    · exact hfree
    · split
      · next hsignals =>
        have hsame : r.signals = w.signals := by
          rw [← h.stamped.signals, hsignals]
          exact h.signals
        exact (hfree.updated hera hsame).stateChanged _
      · exact hfree

theorem Answered.receivedResult (h : Answered r w) {verb : Verb} (hquery : r.query = .command verb)
    (reply : Reply) : Ordered (w.receivedResult loads env r verb reply) := by
  have hfree : Ordered w := by
    have hconnects := h.connects
    have hfetches := h.fetches
    rw [if_neg (by simp [hquery])] at hconnects hfetches
    exact ⟨h.toSound, hconnects, hfetches⟩
  unfold Window.receivedResult
  split
  · exact hfree
  · split
    · exact (hfree.finished _ _).refresh
    · exact hfree
    · exact (hfree.finished _ _).refresh

theorem Answered.received (h : Answered r w) (reply : Reply) :
    Ordered (w.received loads env r reply) := by
  unfold Window.received
  split
  · next hquery => exact h.ready hquery reply
  · next hquery => exact h.receivedState hquery reply
  · next verb hquery => exact h.receivedResult hquery reply

theorem Ordered.signal (h : Ordered w) (name : String) (body : Body) :
    Ordered (w.signal loads env name body) := by
  unfold Window.signal
  split
  · exact h
  · have hsignalled : Ordered { w with
        client := { w.client with stateGeneration := w.client.stateGeneration + 1 }
        signals := w.signals + 1 } :=
      ⟨⟨congrArg (· + 1) h.signals, fun r hr => (h.requests r hr).same rfl rfl rfl, h.updates⟩,
        h.connects, h.fetches⟩
    dsimp only
    split
    · exact hsignalled.serviceError _
    · exact hsignalled
    · exact hsignalled.stateChanged _

theorem waitingFor_erase {index : Nat} {kind : Query → Bool} (hr : w.requests[index]? = some r) :
    ({ w with requests := w.requests.eraseIdx index } : Window).waitingFor kind +
      (if kind r.query ∧ r.era = w.era then 1 else 0) = w.waitingFor kind := by
  obtain ⟨before, after, hsplit, hrest⟩ := eraseIdx_split hr
  simp only [Window.waitingFor, hrest]
  simp only [hsplit, List.countP_append, List.countP_cons, Bool.and_eq_true, decide_eq_true_eq]
  omega

/-- The request whose callback is called is taken off the list. -/
theorem Ordered.answer (h : Ordered w) {index : Nat} (hr : w.requests[index]? = some r) :
    Answered r { w with requests := w.requests.eraseIdx index } := by
  refine ⟨⟨h.signals, fun r' hr' => h.requests r' (List.mem_of_mem_eraseIdx hr'), h.updates⟩,
    h.requests r (List.mem_of_getElem? hr), ?_, ?_⟩
  · simpa using (waitingFor_erase hr).trans_le h.connects
  · simpa using (waitingFor_erase hr).trans h.fetches

theorem step_ordered (h : Ordered w) {a : UiAction} {t : Window}
    (hstep : (uiSystem loads).step w a = some t) : Ordered t := by
  obtain ⟨event, env⟩ := a
  cases event with
  | idle =>
      simp only [uiSystem] at hstep
      split at hstep
      · cases hstep
        exact Sound.connect ⟨h.signals, h.requests, h.updates⟩
      · cases hstep
  | retry =>
      cases hstep
      exact (h.serviceError _).toSound.connect
  | close =>
      cases hstep
      exact h.toSound.close
  | startupExpired =>
      obtain ⟨generation, -, rfl⟩ := Option.map_eq_some_iff.mp hstep
      have hexpired : Ordered { w with client := { w.client with startup := none } } :=
        ⟨⟨h.signals, fun r hr => (h.requests r hr).same rfl rfl rfl, h.updates⟩, h.connects,
          h.fetches⟩
      dsimp only
      split
      · exact hexpired.serviceError _
      · exact hexpired
  | pollState =>
      simp only [uiSystem] at hstep
      split at hstep
      · cases hstep
        exact h.refresh
      · cases hstep
  | ownerChanged =>
      obtain ⟨owned, howned, rfl⟩ := Option.map_eq_some_iff.mp hstep
      exact h.toSound.reowned howned _
  | busClosed =>
      obtain ⟨_, -, rfl⟩ := Option.map_eq_some_iff.mp hstep
      exact h.toSound.close.serviceError _
  | signal name body =>
      obtain ⟨_, -, rfl⟩ := Option.map_eq_some_iff.mp hstep
      exact h.signal name body
  | reply index reply =>
      obtain ⟨r, hr, rfl⟩ := Option.map_eq_some_iff.mp hstep
      exact (h.answer hr).received reply
  | send verb fault =>
      cases hstep
      exact h.send verb fault
  | showAbout =>
      cases hstep
      exact h.loadAbout

theorem initial_ordered : Ordered Window.initial :=
  ⟨⟨rfl, fun _ hr => absurd hr (List.not_mem_nil), fun _ hu => absurd hu (List.not_mem_nil)⟩,
    Nat.zero_le 1, rfl⟩

theorem reaches_ordered (run : (uiSystem loads).Reaches System.Any .initial w) : Ordered w :=
  run.invariant (fun _ _ _ h _ hstep => step_ordered h hstep) initial_ordered

/-- The callback of a request that has lapsed does nothing. -/
theorem Answered.received_lapsed (h : Answered r w) (hera : r.era ≠ w.era) (reply : Reply) :
    w.received loads env r reply = w := by
  unfold Window.received
  cases hquery : r.query with
  | connect =>
      have hgeneration := mt (h.stamped.connect hquery).1.mpr hera
      simp only [Window.ready, if_pos hgeneration]
  | getState =>
      have hcounts := mt (h.stamped.counts (by simp [hquery])).1.mpr hera
      simp only [Window.receivedState, if_pos hcounts]
  | command verb =>
      have hcounts := mt (h.stamped.counts (by simp [hquery])).1.mpr hera
      simp only [Window.receivedResult, if_pos hcounts]

end Callbacks

end HccastWired.Ui
