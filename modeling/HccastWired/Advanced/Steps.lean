import HccastWired.Advanced.LogInvariant

/-!
# What one step of a call does

Most steps only look at the host and add quiet events to the log. A step that
observes the boot, the policy or the normal configuration adds one more event,
and a save, a write and a reboot need a log that permits them.
-/

namespace HccastWired.Advanced

open Foundation

variable {enc : Encoding} {α β : Type} {w w' : World} {new more : List Event} {op : Operation}

section Worlds

/-- The policy, as far as the log tells it. -/
def knownPolicy : List Event → Option CpuValues
  | [] => none
  | .booted _ :: _ => none
  | .disturbed :: _ => none
  | .snapshot v :: _ => some v
  | .wrote field values current :: _ => some (current.set field values)
  | _ :: older => knownPolicy older

/-- The journal is the text of the last saved record. -/
def Journaled (enc : Encoding) (w : World) : Prop :=
  match w.journal with
  | none => recordOf w.log = .empty
  | some raw => enc.dumps (recordOf w.log).toDict = some raw ∧ raw.length ≤ maxFileBytes

def Tracked (w : World) : Prop :=
  ∀ v, knownPolicy w.log = some v → w.policy = v

structure Inv (enc : Encoding) (w : World) : Prop where
  log : LogInv w.log
  journal : Journaled enc w
  boot : currentBoot w.log = some w.bootId
  policy : Tracked w

/-- A call is running and has not asked for a normal boot. -/
structure Working (enc : Encoding) (op : Operation) (w : World) : Prop extends Inv enc w where
  running : operation w.log = some op
  waiting : .reboot false ∉ inCall w.log

/-- More has happened in the same call. -/
structure Later (w : World) (more : List Event) (w' : World) : Prop where
  log : w'.log = more ++ w.log
  call : inCall w'.log = more ++ inCall w.log
  boot : w'.bootId = w.bootId

/-- Nothing but quiet events has happened. -/
structure Passes (w : World) (new : List Event) (w' : World) : Prop where
  log : w'.log = new ++ w.log
  quiet : Quiet new
  boot : w'.bootId = w.bootId
  journal : w'.journal = w.journal
  policy : Tracked w → Tracked w'

theorem Later.of_keeps (hlog : w'.log = new ++ w.log) (hboot : w'.bootId = w.bootId)
    (hkeeps : Keeps new) : Later w new w' where
  log := hlog
  call := by rw [hlog, inCall_append hkeeps]
  boot := hboot

theorem Passes.later (h : Passes w new w') : Later w new w' :=
  .of_keeps h.log h.boot h.quiet.keeps

theorem Later.trans {v : World} (h : Later w new w') (h' : Later w' more v) :
    Later w (more ++ new) v where
  log := by rw [h'.log, h.log, List.append_assoc]
  call := by rw [h'.call, h.call, List.append_assoc]
  boot := h'.boot.trans h.boot

theorem Later.subset (h : Later w new w') : inCall w.log ⊆ inCall w'.log := by
  rw [h.call]
  exact List.subset_append_right new _

theorem Later.new_subset (h : Later w new w') : new ⊆ inCall w'.log := by
  rw [h.call]
  exact List.subset_append_left new _

theorem Passes.refl (w : World) : Passes w [] w where
  log := rfl
  quiet := List.forall_mem_nil _
  boot := rfl
  journal := rfl
  policy := id

theorem Passes.trans {v : World} (h : Passes w new w') (h' : Passes w' more v) :
    Passes w (more ++ new) v where
  log := by rw [h'.log, h.log, List.append_assoc]
  quiet := List.forall_mem_append.mpr ⟨h'.quiet, h.quiet⟩
  boot := h'.boot.trans h.boot
  journal := h'.journal.trans h.journal
  policy hw := h'.policy (h.policy hw)

theorem Passes.recordOf (h : Passes w new w') : recordOf w'.log = Advanced.recordOf w.log := by
  rw [h.log, recordOf_append h.quiet.keeps]

theorem Inv.passes (h : Inv enc w) (hp : Passes w new w') : Inv enc w' where
  log := by
    rw [hp.log]
    exact h.log.quiet hp.quiet
  journal := by
    have hj := h.journal
    rwa [Journaled, ← hp.journal, ← hp.recordOf] at hj
  boot := by rw [hp.log, currentBoot_append hp.quiet.keeps, h.boot, hp.boot]
  policy := hp.policy h.policy

theorem Working.passes (h : Working enc op w) (hp : Passes w new w') : Working enc op w' where
  toInv := h.toInv.passes hp
  running := by rw [hp.log, operation_append hp.quiet.keeps, h.running]
  waiting := by
    rw [hp.log, inCall_append hp.quiet.keeps]
    intro hmem
    obtain hnew | hold := List.mem_append.mp hmem
    · exact absurd (hp.quiet _ hnew) (by simp [Event.quiet])
    · exact h.waiting hold

/-- What the surroundings leave in the log before a step. -/
def disturbance (w : World) : List Event :=
  if w.move.policy w.policy = w.policy then [] else [.disturbed]

theorem passes_passed (w : World) : Passes w (disturbance w) w.passed where
  log := by
    by_cases hsame : w.move.policy w.policy = w.policy
    · simp [disturbance, World.passed, hsame]
    · simp [disturbance, World.passed, hsame]
  quiet := by
    by_cases hsame : w.move.policy w.policy = w.policy
    · simp [disturbance, hsame, Quiet]
    · simp [disturbance, hsame, Quiet, Event.quiet]
  boot := rfl
  journal := rfl
  policy hw := by
    intro v hv
    simp only [World.passed] at hv ⊢
    split at hv
    · next hsame => rw [hsame, hw v hv]
    · cases hv

theorem knownPolicy_cons {e : Event} {log : List Event} (h : e.quiet = true) (hne : e ≠ .disturbed) :
    knownPolicy (e :: log) = knownPolicy log := by
  cases e <;> first | exact absurd rfl hne | rfl | cases h

theorem passes_note {e : Event} (h : e.quiet = true) (hne : e ≠ .disturbed) :
    Passes w [e] (w.note e) where
  log := rfl
  quiet := List.forall_mem_singleton.mpr h
  boot := rfl
  journal := rfl
  policy hw v hv := hw v (by rwa [World.note, knownPolicy_cons h hne] at hv)

end Worlds

section Yields

variable {x : HelperCall α} {f : α → HelperCall β} {P Q : α → List Event → Prop}
  {R : β → List Event → Prop} {post : β → World → Prop} {fail : AdvancedError → World → Prop}

/-- A call adds only quiet events, and what it returns is backed by them. -/
def Yields (x : HelperCall α) (w : World) (P : α → List Event → Prop) : Prop :=
  x.wp (fun t => ∃ new, Passes w new t) (fun a t => ∃ new, Passes w new t ∧ P a new)
    (fun _ t => ∃ new, Passes w new t) w

theorem Yields.mono (h : Yields x w P) (himp : ∀ a new, P a new → Q a new) : Yields x w Q := by
  refine Call.wp.mono h ?_ fun _ _ => id
  rintro a t ⟨new, hp, ha⟩
  exact ⟨new, hp, himp a new ha⟩

theorem Yields.pure {a : α} (h : P a []) : Yields (pure a) w P := by
  rw [Yields, Call.wp_pure]
  exact ⟨[], .refl w, h⟩

theorem Yields.throw (e : AdvancedError) : Yields (throw e : HelperCall α) w P := by
  rw [Yields, Call.wp_throw]
  exact ⟨[], .refl w⟩

theorem Yields.bind (hx : Yields x w P)
    (hf : ∀ a new w', Passes w new w' → P a new → Yields (f a) w' fun b more => R b (more ++ new)) :
    Yields (x >>= f) w R := by
  rw [Yields, Call.wp_bind]
  refine Call.wp.mono hx ?_ fun _ _ => id
  rintro a t ⟨new, hp, ha⟩
  refine ((hf a new t hp ha).weaken ?_).mono ?_ ?_
  · rintro v ⟨more, hv⟩
    exact ⟨more ++ new, hp.trans hv⟩
  · rintro b v ⟨more, hv, hb⟩
    exact ⟨more ++ new, hp.trans hv, hb⟩
  · rintro _ v ⟨more, hv⟩
    exact ⟨more ++ new, hp.trans hv⟩

/-- Where the step fails another value is returned, which has to be backed by nothing. -/
theorem Yields.orElse {a : α} (hx : Yields x w P) (ha : ∀ new, P a new) :
    Yields (orElse x a) w P := by
  rw [Yields, Advanced.orElse, Call.wp_tryCatch]
  refine Call.wp.mono hx (fun _ _ => id) ?_
  rintro e t ⟨new, hp⟩
  split
  · rw [Call.wp_pure]
    exact ⟨new, hp, ha new⟩
  · rw [Call.wp_throw]
    exact ⟨new, hp⟩

/-- A quiet step of a call, before the rest of it. -/
theorem Yields.then (hx : Yields x w P) (hw : Working enc op w)
    (hfail : ∀ e new w', Working enc op w' → Passes w new w' → fail e w')
    (hok : ∀ a new w', Working enc op w' → Passes w new w' → P a new →
      (f a).wp (Inv enc) post fail w') :
    (x >>= f).wp (Inv enc) post fail w := by
  rw [Call.wp_bind]
  refine (Call.wp.weaken hx ?_).mono ?_ ?_
  · rintro t ⟨new, hp⟩
    exact hw.toInv.passes hp
  · rintro a t ⟨new, hp, ha⟩
    exact hok a new t (hw.passes hp) hp ha
  · rintro e t ⟨new, hp⟩
    exact hfail e new t (hw.passes hp) hp

variable {answer : Move → World → Except AdvancedError α} {event : α → Option Event}

theorem yields_ask
    (hquiet : ∀ a e, event a = some e → e.quiet = true ∧ e ≠ .disturbed)
    (hP : ∀ a, answer w.move w.passed = .ok a → ∀ new, (∀ e, event a = some e → e ∈ new) → P a new) :
    Yields (ask answer event) w P := by
  simp only [Yields, Call.wp, Call.final, ask]
  cases ha : answer w.move w.passed with
  | error e =>
      simp only [List.mem_singleton, forall_eq, List.getLastD_cons, List.getLastD_nil]
      exact ⟨⟨_, passes_passed w⟩, ⟨_, passes_passed w⟩⟩
  | ok a =>
      simp only [List.mem_singleton, forall_eq, List.getLastD_cons, List.getLastD_nil]
      cases he : event a with
      | none =>
          refine ⟨⟨_, passes_passed w⟩, ⟨_, passes_passed w, hP a ha _ ?_⟩⟩
          simp [he]
      | some e =>
          obtain ⟨hq, hne⟩ := hquiet a e he
          have hp := (passes_passed w).trans (passes_note hq hne)
          refine ⟨⟨_, hp⟩, ⟨_, hp, hP a ha _ ?_⟩⟩
          simp [he]

/-- A change that the log takes for a quiet event. -/
theorem yields_act {effect : World → World} {e : Event}
    (heffect : ∀ v : World, Passes v [e] (effect v)) : Yields (act effect) w fun _ _ => True := by
  have hp := (passes_passed w).trans (heffect w.passed)
  simp only [Yields, Call.wp, Call.final, act]
  cases w.move.fault with
  | none =>
      simp only [List.mem_singleton, forall_eq, List.getLastD_cons, List.getLastD_nil]
      exact ⟨⟨_, hp⟩, ⟨_, hp, trivial⟩⟩
  | some err =>
      simp only [List.mem_singleton, forall_eq, List.getLastD_cons, List.getLastD_nil]
      split
      · exact ⟨⟨_, hp⟩, ⟨_, hp⟩⟩
      · exact ⟨⟨_, passes_passed w⟩, ⟨_, passes_passed w⟩⟩

end Yields

section Primitives

variable {t : Trial} {f : BootFacts}

theorem yields_bootRead (name : String) :
    Yields (bootRead name) w fun content new => .read name content ∈ new := by
  refine yields_ask ?_ ?_
  · rintro content e ⟨⟩
    exact ⟨rfl, by simp⟩
  · intro content _ new hmem
    exact hmem _ rfl

theorem yields_stateRead :
    Yields stateRead w fun content _ => readEntry (w.journal.map .file) = .ok content := by
  refine yields_ask (by simp) ?_
  intro content hanswer new _
  simp only [Move.answer] at hanswer
  split at hanswer
  · cases hanswer
  · exact hanswer

theorem yields_readinessRead : Yields readinessRead w fun _ _ => True :=
  yields_ask (by simp) fun _ _ _ _ => trivial

theorem yields_openDirectories : Yields openDirectories w fun _ _ => True :=
  yields_ask (by simp) fun _ _ _ _ => trivial

theorem yields_clock : Yields clock w fun x new => .clock x ∈ new ∧ instant x = true := by
  refine yields_ask ?_ ?_
  · rintro x e ⟨⟩
    exact ⟨rfl, by simp⟩
  · rintro x ⟨⟩ new hmem
    exact ⟨hmem _ rfl, w.move.clock.2⟩

theorem yields_newId : Yields newId w fun id _ => token id = true := by
  refine yields_ask (by simp) ?_
  rintro id ⟨⟩ new _
  exact w.move.uuid.2

theorem passes_changedFile {v : World} {name : String} {files : Files} (hname : name ≠ "config.txt") :
    Passes v [.changedFile name] { v.note (.changedFile name) with files := files } where
  log := rfl
  quiet := List.forall_mem_singleton.mpr (by simpa [Event.quiet] using hname)
  boot := rfl
  journal := rfl
  policy hv := hv

theorem yields_bootWrite {name : String} {raw : Bytes} {expected : Option Bytes}
    (hname : name ≠ "config.txt") : Yields (bootWrite name raw expected) w fun _ _ => True := by
  refine (yields_bootRead name).bind fun current new v hv _ => ?_
  split
  · exact .throw _
  · refine (yields_bootRead name).bind fun again new v hv _ => ?_
    split
    · exact .throw _
    · exact yields_act fun v => passes_changedFile hname

theorem yields_bootRemove {name : String} {expected : Option Bytes} (hname : name ≠ "config.txt") :
    Yields (bootRemove name expected) w fun _ _ => True := by
  refine (yields_bootRead name).bind fun current new v hv _ => ?_
  cases current with
  | none => exact .pure trivial
  | some raw =>
      simp only
      split
      · exact .throw _
      · exact yields_act fun v => passes_changedFile hname

theorem yields_ofExcept {α : Type} {value : Except AdvancedError α} :
    Yields (Call.ofExcept value) w fun a _ => value = .ok a := by
  rw [Yields, Call.wp_ofExcept]
  cases value with
  | ok a => exact ⟨[], .refl w, rfl⟩
  | error e => exact ⟨[], .refl w⟩

/-- The journal of the last saved record is loaded as that record. -/
theorem validRecord_toDict {r : Record} (hvalid : r.valid = true) :
    validRecord r.toDict = .ok r := by
  have hkeys : knownKeys r.toDict = true := by
    simp only [Record.toDict, PyValue.ofFields, knownKeys, List.all_eq_true]
    rintro ⟨key, value⟩ hmem
    obtain ⟨⟨name, v⟩, hname, hv⟩ := List.mem_filterMap.mp hmem
    obtain ⟨a, -, ha⟩ := Option.map_eq_some_iff.mp hv
    obtain ⟨rfl, -⟩ := Prod.mk.inj ha
    simp only [List.mem_cons, Prod.mk.injEq, List.not_mem_nil, or_false] at hname
    simp only [decide_eq_true_eq]
    obtain ⟨rfl, -⟩ | ⟨rfl, -⟩ | ⟨rfl, -⟩ | ⟨rfl, -⟩ := hname <;> simp
  rw [validRecord, if_pos hkeys, Record.ofDict_toDict]
  exact if_pos hvalid

theorem json_dumps {r : Record} {raw : Bytes} (hraw : enc.dumps r.toDict = some raw) :
    json enc (some raw) = .ok (some r.toDict) := by
  have hversion : r.toDict.get "api_version" = some (.int 1) := by
    rw [Record.toDict, PyValue.get_ofFields (by simp)]
    rfl
  simp only [json, enc.loads_dumps _ raw r.toDict_unique hraw, hversion]
  rfl

theorem yields_load (hw : Inv enc w) : Yields (load enc) w fun r _ => r = recordOf w.log := by
  refine yields_stateRead.bind fun raw new v hv _ => ?_
  have hupdate : Passes v [] { v with journalRaw := raw } :=
    ⟨rfl, List.forall_mem_nil _, rfl, rfl, id⟩
  have hkeep : Yields (Call.update fun w => { w with journalRaw := raw }) v fun _ _ => True := by
    rw [Yields, Call.wp_update]
    exact ⟨⟨[], hupdate⟩, [], hupdate, trivial⟩
  refine hkeep.bind fun _ more u hu _ => ?_
  have hpast := hv.trans hu
  refine yields_stateRead.bind fun again _ _ _ hagain => ?_
  refine yields_ofExcept.bind fun value _ _ _ hvalue => ?_
  have hj := (hw.passes hpast).journal
  rw [Journaled, hpast.recordOf] at hj
  cases hjournal : u.journal with
  | none =>
      rw [hjournal] at hj hagain
      obtain rfl := Except.ok.inj hagain
      obtain rfl := Except.ok.inj hvalue
      exact .pure hj.symm
  | some raw =>
      rw [hjournal] at hj hagain
      obtain ⟨hdumps, hsize⟩ := hj
      simp only [readEntry, Option.map_some, if_neg (Nat.not_lt.mpr hsize)] at hagain
      obtain rfl := Except.ok.inj hagain
      rw [json_dumps hdumps] at hvalue
      obtain rfl := Except.ok.inj hvalue
      refine yields_ofExcept.mono fun r _ hr => ?_
      rw [validRecord_toDict hw.log.valid] at hr
      exact (Except.ok.inj hr).symm

theorem yields_health (bits : Int) : Yields (health bits) w fun _ new => Healthy bits new := by
  unfold health
  have hevent : ∀ s e, some (Event.health s) = some e → e.quiet = true ∧ e ≠ .disturbed := by
    rintro s e ⟨⟩
    exact ⟨rfl, by simp⟩
  refine (yields_ask (P := fun s new => Event.health s ∈ new) hevent
    fun s _ new hmem => hmem _ rfl).bind fun s new v hv hs => ?_
  refine yields_clock.bind fun now more u hu hnow => ?_
  split
  · next hok =>
    refine .pure ⟨s, now, ?_, ?_, hok⟩
    · simp [hs]
    · simp [hnow.1]
  · exact .throw _

theorem yields_healthy (bits : Int) : Yields (orElse (do
    health bits
    pure true) false) w fun ok new => ok = true → Healthy bits new := by
  refine Yields.orElse ?_ fun _ h => by cases h
  exact (yields_health bits).bind fun _ new v hv h => .pure fun _ => h

theorem yields_noAssets (names : List String) :
    Yields (noAssets names) w fun _ new => ∀ name ∈ names, .read name none ∈ new := by
  induction names generalizing w with
  | nil => exact .pure (List.forall_mem_nil _)
  | cons name rest ih =>
      refine (yields_bootRead name).bind fun asset new v hv hread => ?_
      split
      · exact .throw _
      · next hnone =>
        obtain rfl : asset = none := by simpa using hnone
        refine ih.mono fun _ more hrest => ?_
        refine List.forall_mem_cons.mpr ⟨List.mem_append_right _ hread, fun n hn => ?_⟩
        exact List.mem_append_left _ (hrest n hn)

/-- The normal configuration has been read under the supported layout. -/
structure ConfigRead (f : BootFacts) (raw : Bytes) (text : List Char) (call : List Event) :
    Prop where
  layout : f.simple = true
  assets : ∀ name ∈ alternateAssets, .read name none ∈ call
  read : .read "config.txt" (some raw) ∈ call
  size : raw.length ≤ 65536
  ascii : Json.asciiText raw = some text
  supported : supportedConfig text = true

theorem yields_config : Yields (config f) w fun content new => ConfigRead f content.1 content.2 new := by
  rw [config]
  split
  · exact .throw _
  · next hsimple =>
    refine (yields_noAssets alternateAssets).bind fun _ new v hv hassets => ?_
    refine (yields_bootRead "config.txt").bind fun raw more u hu hread => ?_
    cases raw with
    | none => exact .throw _
    | some raw =>
        simp only
        split
        · exact .throw _
        · next hsize =>
          cases htext : Json.asciiText raw with
          | none => exact .throw _
          | some text =>
              simp only
              split
              · next hok =>
                refine .pure ?_
                constructor
                · simpa using hsimple
                · intro name hname
                  simp [hassets name hname]
                · simp [hread]
                · exact Nat.not_lt.mp hsize
                · exact htext
                · exact hok
              · exact .throw _

theorem yields_candidate (ht : (encode t.candidate).isSome = true) :
    Yields (fileMatches "tryboot.txt" (encode t.candidate)) w
      fun ok new => ok = true → Candidate t new := by
  refine Yields.orElse ?_ fun _ h => by cases h
  refine (yields_bootRead "tryboot.txt").bind fun content new v hv hread => .pure fun hsame => ?_
  obtain ⟨raw, hraw⟩ := Option.isSome_iff_exists.mp ht
  obtain rfl : content = some raw := (decide_eq_true_eq.mp hsame).trans hraw
  exact ⟨raw, hraw, hread⟩

theorem yields_fileMatches {name : String} {expected : Option Bytes} :
    Yields (fileMatches name expected) w fun _ _ => True := by
  refine Yields.orElse ?_ fun _ => trivial
  exact (yields_bootRead name).bind fun _ _ _ _ _ => .pure trivial

theorem yields_removeCandidate : Yields (removeCandidate t) w fun _ _ => True := by
  refine Yields.orElse ?_ fun _ => trivial
  exact (yields_bootRemove (by decide)).bind fun _ _ _ _ _ => .pure trivial

theorem yields_inGrace : Yields (inGrace f t) w fun _ _ => True := by
  rw [inGrace]
  split
  · exact yields_clock.bind fun _ _ _ _ _ => .pure trivial
  · exact .pure trivial

end Primitives

end HccastWired.Advanced
