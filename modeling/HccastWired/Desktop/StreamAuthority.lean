import HccastWired.Desktop.ControllerRules

/-!
# One stream has the receiver

Every operation has a generation of its own, creates one stream at most, and only the
stream of the current generation begins a connection or the media.
-/

namespace HccastWired.Desktop.Controller

open Foundation

section Spec

/-- The requests that want the stream: a start, and an unlocked session. -/
def Kind.wants : Kind → Bool
  | .command .start _ => true
  | .sessionChanged true => true
  | _ => false

/-- A call that begins a stream is made by the stream of the current generation, while it is
wanted, in an unlocked session, by a controller that is not closed. -/
def Permitted (task : TaskId) (gate : Gate) (older : List Event) : Prop :=
  gate.kind = some (.stream gate.generation) ∧ gate.desired = true ∧ gate.sessionUnlocked = true ∧
    gate.closed = false ∧ lastSwitch older = some true ∧
    ∀ i call earlier, .called i call earlier ∈ older → call.begins = true →
      earlier.generation < gate.generation ∨ (earlier.generation = gate.generation ∧ i = task)

/-- Every call of the history that begins a stream was permitted. -/
def Gated (log : List Event) : Prop :=
  ∀ newer older task call gate, log = newer ++ .called task call gate :: older → call.begins = true →
    Permitted task gate older

/-- Only a request that wants the stream sets `desired`. -/
def Wanted (s : State) : Prop :=
  ∀ task, .switched task true ∈ s.log → ∃ kind, s.kindOf task = some kind ∧ kind.wants = true

end Spec

/-- What holds whenever a task runs on. -/
structure Authority (s : State) : Prop where
  gated : Gated s.log
  wanted : Wanted s
  switch : s.desired = true → lastSwitch s.log = some true
  current : ∀ task call gate, .called task call gate ∈ s.log → call.begins = true →
    gate.generation ≤ s.generation ∧ s.kindOf task = some (.stream gate.generation)
  operations : ∀ i action g, s.kindOf i = some (.guard action g) → g ≤ s.generation
  operation : ∀ i j a b g, s.kindOf i = some (.guard a g) → s.kindOf j = some (.guard b g) → i = j
  streams : ∀ j g, s.kindOf j = some (.stream g) → ∃ i, .created i j (.stream g) ∈ s.log
  creator : ∀ i j g, .created i j (.stream g) ∈ s.log → ∃ action, s.kindOf i = some (.guard action g)
  created : ∀ i j k g, .created i j (.stream g) ∈ s.log → .created i k (.stream g) ∈ s.log → j = k

/-- A quiet event, or a call of the store. -/
def Event.isCalm : Event → Bool
  | .saved _ _ _ _ => true
  | e => e.isQuiet

/-- What creates no operation and no stream, begins none and does not want one. -/
structure Calm (s t : State) : Prop where
  log : ∃ newer, t.log = newer ++ s.log ∧ ∀ e ∈ newer, e.isCalm = true
  kinds : ∀ i k, s.kindOf i = some k → t.kindOf i = some k
  plain : ∀ i k, t.kindOf i = some k → s.kindOf i = some k ∨ k.isPlain = true
  generation : s.generation ≤ t.generation
  desired : t.desired = true → s.desired = true ∧ lastSwitch t.log = lastSwitch s.log

section Steps

variable {task : TaskId} {s t : State} {e : Event} {kind : Kind} {newer log : List Event}

theorem isCalm_of_quiet (h : e.isQuiet = true) : e.isCalm = true := by
  cases e with
  | saved i operation before after => rfl
  | _ => exact h

theorem Quiet.calm (h : Quiet task s t) : Calm s t := by
  obtain ⟨newer, hlog, hnewer⟩ := h.log
  exact ⟨⟨newer, hlog, fun e he => isCalm_of_quiet (hnewer e he).1⟩, h.kinds, h.plain, h.generation, h.desired⟩

theorem calm_same (hlog : t.log = s.log) (hkinds : ∀ i, t.kindOf i = s.kindOf i)
    (hgeneration : t.generation = s.generation) (hdesired : t.desired = s.desired) : Calm s t where
  log := ⟨[], hlog, fun _ he => absurd he List.not_mem_nil⟩
  kinds i _ hk := hkinds i ▸ hk
  plain i _ hk := .inl (hkinds i ▸ hk)
  generation := hgeneration.ge
  desired h := ⟨hdesired ▸ h, congrArg lastSwitch hlog⟩

theorem calm_save {enc : Encoding} {m : Move} {operation : StoreOperation} :
    Calm s (saveStep enc task m operation s).2 where
  log := ⟨[_], rfl, fun e he => by
    cases List.mem_singleton.mp he
    rfl⟩
  kinds _ _ hk := hk
  plain _ _ hk := .inl hk
  generation := Nat.le_refl _
  desired h := ⟨h, rfl⟩

theorem calm_outside {event : Outside} (h : outside event s = some t) : Calm s t := by
  cases event with
  | request kind =>
    simp only [outside] at h
    split at h
    · next hrequest =>
      cases h
      refine ⟨⟨[], rfl, fun _ he => absurd he List.not_mem_nil⟩, fun i k hk => kindOf_append.mpr (.inl hk),
        fun i k hk => ?_, Nat.le_refl _, fun h => ⟨h, rfl⟩⟩
      obtain hk | ⟨-, rfl⟩ := kindOf_append.mp hk
      · exact .inl hk
      · right
        cases k with
        | guard action g => cases hrequest
        | stream g => cases hrequest
        | _ => rfl
    · cases h
  | abandon i =>
    simp only [outside] at h
    split at h
    · cases h
      exact calm_same rfl (fun j => kindOf_setCancelled true j) rfl rfl
    · cases h

theorem Gated.cons (h : Gated log)
    (he : ∀ task call gate, e = .called task call gate → call.begins = true → Permitted task gate log) :
    Gated (e :: log) := by
  intro newer older task call gate heq hbegins
  cases newer with
  | nil =>
    obtain ⟨rfl, rfl⟩ := List.cons.inj heq
    exact he task call gate rfl hbegins
  | cons first newer =>
    obtain ⟨-, htail⟩ := List.cons.inj heq
    exact h newer older task call gate htail hbegins

theorem not_begins (he : e.isCalm = true) (i : TaskId) (call : Await) (gate : Gate)
    (heq : e = .called i call gate) : call.begins = false := by
  subst heq
  exact Bool.not_eq_true' _ ▸ he

theorem Gated.append (h : Gated log) (hcalm : ∀ e ∈ newer, e.isCalm = true) : Gated (newer ++ log) := by
  induction newer with
  | nil => exact h
  | cons e newer ih =>
    refine (ih fun e' he' => hcalm e' (List.mem_cons_of_mem e he')).cons ?_
    intro i call gate heq hbegins
    rw [not_begins (hcalm e List.mem_cons_self) i call gate heq] at hbegins
    cases hbegins

/-- Calm steps keep the authority of the stream. -/
theorem Authority.calm (h : Authority s) (hcalm : Calm s t) : Authority t := by
  obtain ⟨newer, hlog, hnewer⟩ := hcalm.log
  have hold : ∀ e, e ∈ t.log → e.isCalm = true ∨ e ∈ s.log := by
    intro e he
    rw [hlog] at he
    obtain he | he := List.mem_append.mp he
    · exact .inl (hnewer e he)
    · exact .inr he
  have hstream : ∀ i j g, .created i j (.stream g) ∈ t.log → .created i j (.stream g) ∈ s.log :=
    fun i j g he => (hold _ he).resolve_left Bool.false_ne_true
  have hnamed : ∀ i k, t.kindOf i = some k → k.isPlain = false → s.kindOf i = some k := by
    intro i k hk hplain
    refine (hcalm.plain i k hk).resolve_right fun htrue => ?_
    rw [hplain] at htrue
    cases htrue
  constructor
  · rw [hlog]
    exact h.gated.append fun e he => hnewer e he
  · intro i he
    obtain ⟨kind, hkind, hwants⟩ := h.wanted i ((hold _ he).resolve_left Bool.false_ne_true)
    exact ⟨kind, hcalm.kinds i kind hkind, hwants⟩
  · intro hdesired
    obtain ⟨hbefore, hsame⟩ := hcalm.desired hdesired
    exact hsame.trans (h.switch hbefore)
  · intro i call gate he hbegins
    have hmem := (hold _ he).resolve_left fun hq => by
      rw [not_begins hq i call gate rfl] at hbegins
      cases hbegins
    obtain ⟨hle, hkind⟩ := h.current i call gate hmem hbegins
    exact ⟨hle.trans hcalm.generation, hcalm.kinds i _ hkind⟩
  · exact fun i action g hk => (h.operations i action g (hnamed i _ hk rfl)).trans hcalm.generation
  · exact fun i j a b g hi hj => h.operation i j a b g (hnamed i _ hi rfl) (hnamed j _ hj rfl)
  · intro j g hk
    obtain ⟨i, he⟩ := h.streams j g (hnamed j _ hk rfl)
    exact ⟨i, hlog ▸ List.mem_append_right newer he⟩
  · intro i j g he
    obtain ⟨action, hk⟩ := h.creator i j g (hstream i j g he)
    exact ⟨action, hcalm.kinds i _ hk⟩
  · exact fun i j k g hj hk => h.created i j k g (hstream i j g hj) (hstream i k g hk)

/-- A task is created: an operation of a generation of its own, or the one stream of an operation. -/
theorem Authority.add (h : Authority s)
    (hguard : ∀ action g, kind = .guard action g → g ≤ s.generation ∧
      ∀ i a, s.kindOf i ≠ some (.guard a g))
    (hstream : ∀ g, kind = .stream g → (∃ action, s.kindOf task = some (.guard action g)) ∧
      ∀ j, .created task j (.stream g) ∉ s.log) : Authority (createStep task kind s).2 := by
  have hkind : ∀ i k, (createStep task kind s).2.kindOf i = some k →
      s.kindOf i = some k ∨ (i = s.tasks.length ∧ k = kind) := fun i k hk => kindOf_append.mp hk
  have hkeep : ∀ i k, s.kindOf i = some k → (createStep task kind s).2.kindOf i = some k :=
    fun i k hk => kindOf_append.mpr (.inl hk)
  have hmem : ∀ e, e ∈ (createStep task kind s).2.log →
      e = .created task s.tasks.length kind ∨ e ∈ s.log := fun e he => List.mem_cons.mp he
  constructor
  · exact h.gated.cons fun i call gate he => by cases he
  · intro i he
    obtain ⟨k, hk, hwants⟩ := h.wanted i ((hmem _ he).resolve_left fun heq => by cases heq)
    exact ⟨k, hkeep i k hk, hwants⟩
  · exact fun hdesired => h.switch hdesired
  · intro i call gate he hbegins
    obtain ⟨hle, hk⟩ := h.current i call gate ((hmem _ he).resolve_left fun heq => by cases heq) hbegins
    exact ⟨hle, hkeep i _ hk⟩
  · intro i a g hk
    obtain hk | ⟨-, hnew⟩ := hkind i _ hk
    · exact h.operations i a g hk
    · exact (hguard a g hnew.symm).1
  · intro i j a b g hi hj
    obtain hi | ⟨rfl, hia⟩ := hkind i _ hi
    · obtain hj | ⟨-, hjb⟩ := hkind j _ hj
      · exact h.operation i j a b g hi hj
      · exact absurd hi ((hguard b g hjb.symm).2 i a)
    · obtain hj | ⟨hj, -⟩ := hkind j _ hj
      · exact absurd hj ((hguard a g hia.symm).2 j b)
      · exact hj.symm
  · intro j g hk
    obtain hk | ⟨rfl, rfl⟩ := hkind j _ hk
    · obtain ⟨i, he⟩ := h.streams j g hk
      exact ⟨i, List.mem_cons_of_mem _ he⟩
    · exact ⟨task, List.mem_cons_self⟩
  · intro i j g he
    obtain heq | he := hmem _ he
    · cases heq
      obtain ⟨action, haction⟩ := (hstream g rfl).1
      exact ⟨action, hkeep task _ haction⟩
    · obtain ⟨action, haction⟩ := h.creator i j g he
      exact ⟨action, hkeep i _ haction⟩
  · intro i j k g hj hk
    obtain hj' | hj' := hmem _ hj
    · obtain hk' | hk' := hmem _ hk
      · cases hj'
        cases hk'
        rfl
      · cases hj'
        exact absurd hk' ((hstream g rfl).2 k)
    · obtain hk' | hk' := hmem _ hk
      · cases hk'
        exact absurd hj' ((hstream g rfl).2 j)
      · exact h.created i j k g hj' hk'

/-- Something is noted, and no task is created. -/
theorem Authority.noted (h : Authority s) (hlog : t.log = e :: s.log) (hkinds : ∀ i, t.kindOf i = s.kindOf i)
    (hgeneration : t.generation = s.generation) (hnone : ∀ i j k, e ≠ .created i j k)
    (hcalled : ∀ i call gate, e = .called i call gate → call.begins = true → Permitted i gate s.log ∧
      gate.generation ≤ s.generation ∧ s.kindOf i = some (.stream gate.generation))
    (hwanted : ∀ i, e = .switched i true → ∃ kind, s.kindOf i = some kind ∧ kind.wants = true)
    (hswitch : t.desired = true → lastSwitch t.log = some true) : Authority t := by
  have hmem : ∀ e', e' ∈ t.log → e = e' ∨ e' ∈ s.log := by
    intro e' he'
    rw [hlog] at he'
    exact (List.mem_cons.mp he').imp Eq.symm id
  have hold : ∀ i j k, .created i j k ∈ t.log → .created i j k ∈ s.log :=
    fun i j k he => (hmem _ he).resolve_left (hnone i j k)
  constructor
  · rw [hlog]
    exact h.gated.cons fun i call gate he hbegins => (hcalled i call gate he hbegins).1
  · intro i he
    rw [hkinds]
    exact (hmem _ he).elim (hwanted i) (h.wanted i)
  · exact hswitch
  · intro i call gate he hbegins
    rw [hgeneration, hkinds]
    exact (hmem _ he).elim (fun heq => (hcalled i call gate heq hbegins).2) fun he => h.current i call gate he hbegins
  · intro i a g hk
    rw [hgeneration]
    exact h.operations i a g (hkinds i ▸ hk)
  · exact fun i j a b g hi hj => h.operation i j a b g (hkinds i ▸ hi) (hkinds j ▸ hj)
  · intro j g hk
    obtain ⟨i, he⟩ := h.streams j g (hkinds j ▸ hk)
    exact ⟨i, hlog ▸ List.mem_cons_of_mem _ he⟩
  · intro i j g he
    rw [hkinds]
    exact h.creator i j g (hold i j _ he)
  · exact fun i j k g hj hk => h.created i j k g (hold i j _ hj) (hold i k _ hk)

/-- A request wants the stream. -/
theorem Authority.want {f : Attributes → Attributes} (h : Authority s) (hkind : s.kindOf task = some kind)
    (hwants : kind.wants = true) (hf : ∀ a, (f a).generation = a.generation)
    (hdesired : ∀ a, (f a).desired = true) : Authority (writeStep task f s) := by
  rw [writeStep]
  dsimp only
  rw [hdesired]
  split
  · next hsame => exact h.calm (calm_same rfl (fun _ => rfl) (hf _) ((hdesired _).trans hsame))
  · refine h.noted rfl (fun _ => rfl) (hf _) (fun i j k he => by cases he) (fun i call gate he => by cases he)
      (fun i he => ?_) fun _ => rfl
    cases he
    exact ⟨kind, hkind, hwants⟩

/-- There is one stream of a generation. -/
theorem Authority.stream {i j g : Nat} (h : Authority s) (hi : s.kindOf i = some (.stream g))
    (hj : s.kindOf j = some (.stream g)) : i = j := by
  obtain ⟨a, ha⟩ := h.streams i g hi
  obtain ⟨b, hb⟩ := h.streams j g hj
  obtain ⟨action, haction⟩ := h.creator a i g ha
  obtain ⟨action', haction'⟩ := h.creator b j g hb
  obtain rfl := h.operation a b action action' g haction haction'
  exact h.created a i j g ha hb

/-- The current stream begins a connection, or the media. -/
theorem Authority.begins {c : Await} {g : Nat} (h : Authority s) (hkind : s.kindOf task = some (.stream g))
    (hcan : s.canStream g = true) : Authority (s.record (.called task c (s.gate task))) := by
  simp only [State.canStream, Bool.and_eq_true, decide_eq_true_eq, Bool.not_eq_true'] at hcan
  obtain ⟨⟨⟨rfl, hdesired⟩, hunlocked⟩, hclosed⟩ := hcan
  refine h.noted rfl (fun _ => rfl) rfl (fun i j k he => by cases he) ?_ (fun i he => by cases he)
    fun hd => h.switch hd
  intro i call gate heq hbegins
  cases heq
  refine ⟨⟨hkind, hdesired, hunlocked, hclosed, h.switch hdesired, fun i call earlier he hearlier => ?_⟩,
    Nat.le_refl _, hkind⟩
  obtain ⟨hle, hk⟩ := h.current i call earlier he hearlier
  obtain hlt | heq := Nat.lt_or_eq_of_le hle
  · exact .inl hlt
  · exact .inr ⟨heq, h.stream hk (heq ▸ hkind)⟩

theorem authority_initial (host : Host) : Authority (initial host) where
  gated := by
    intro newer older task call gate heq
    exact absurd (congrArg List.length heq) (by simp [initial])
  wanted := fun _ he => absurd he List.not_mem_nil
  switch := fun h => by cases h
  current := fun _ _ _ he => absurd he List.not_mem_nil
  operations := fun _ _ _ hk => by cases hk
  operation := fun _ _ _ _ _ hk => by cases hk
  streams := fun _ _ hk => by cases hk
  creator := fun _ _ _ he => absurd he List.not_mem_nil
  created := fun _ _ _ _ he => absurd he List.not_mem_nil

end Steps

end HccastWired.Desktop.Controller
