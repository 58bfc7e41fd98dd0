import HccastWired.Foundation.Outcome
import HccastWired.Packaging.PlanLines

/-!
# Which plans are accepted

`inspect_install_plan` returns a plan exactly for the texts of the grammar: it changes no
package that is installed, and a text that meets every condition is not refused.
-/

namespace HccastWired.Packaging

open Foundation

variable {expected : Text} {installed : Finset Text} {number : Nat} {line : Text} {s : State}

section After

variable {actions as : List Action} {a b : Action}

theorem installs_snoc : installs (as ++ [a]) = installs as ++ if a.verb = .inst then [a] else [] := by
  rw [installs, installs, List.filter_append]
  by_cases h : a.verb = .inst
  · simp [h]
  · simp [h]

theorem configures_snoc :
    configures (as ++ [a]) = configures as ++ if a.verb = .conf then [a] else [] := by
  rw [configures, configures, List.filter_append]
  by_cases h : a.verb = .conf
  · simp [h]
  · simp [h]

theorem names_snoc {names : List Text} {name : Text} : (names ++ [name]).Nodup ↔ names.Nodup ∧ name ∉ names := by
  rw [← List.concat_eq_append, List.nodup_concat, and_comm]

/-- What one more action asks for. -/
structure Continues (expected : Text) (installed : Finset Text) (as : List Action) (a : Action) : Prop where
  valid : a.Valid expected installed
  new : a.verb = .inst → a.name ∉ (installs as).map Action.name ∧ (installs as).length < maxAdditions
  paired : a.verb = .conf → a.name ∉ (configures as).map Action.name ∧
    ∃ b ∈ as, b.verb = .inst ∧ b.Same a

theorem actions_snoc : Actions expected installed (as ++ [a]) ↔
    Actions expected installed as ∧ Continues expected installed as a := by
  constructor
  · intro h
    have hearlier := forall_split_snoc.mp h.earlier
    have hinstalled := h.installed
    have hconfigured := h.configured
    have hbounded := h.bounded
    rw [installs_snoc, List.map_append] at hinstalled
    rw [configures_snoc, List.map_append] at hconfigured
    rw [installs_snoc, List.length_append] at hbounded
    refine ⟨⟨fun b hb => h.valid b (List.mem_append_left _ hb), (List.nodup_append.mp hinstalled).1,
      (List.nodup_append.mp hconfigured).1, (Nat.le_add_right _ _).trans hbounded, hearlier.1⟩, ?_⟩
    refine ⟨h.valid a (List.mem_append_right _ (List.mem_singleton.mpr rfl)), fun hverb => ?_, fun hverb => ?_⟩
    · rw [if_pos hverb] at hinstalled hbounded
      exact ⟨(names_snoc.mp hinstalled).2, hbounded⟩
    · rw [if_pos hverb] at hconfigured
      exact ⟨(names_snoc.mp hconfigured).2, hearlier.2 hverb⟩
  · rintro ⟨h, hvalid, hnew, hpaired⟩
    refine ⟨?_, ?_, ?_, ?_, forall_split_snoc.mpr ⟨h.earlier, fun hverb => (hpaired hverb).2⟩⟩
    · intro b hb
      obtain hb | hb := List.mem_append.mp hb
      · exact h.valid b hb
      · exact List.mem_singleton.mp hb ▸ hvalid
    · rw [installs_snoc]
      by_cases hverb : a.verb = .inst
      · rw [if_pos hverb, List.map_append]
        exact names_snoc.mpr ⟨h.installed, (hnew hverb).1⟩
      · rw [if_neg hverb, List.append_nil]
        exact h.installed
    · rw [configures_snoc]
      by_cases hverb : a.verb = .conf
      · rw [if_pos hverb, List.map_append]
        exact names_snoc.mpr ⟨h.configured, (hpaired hverb).1⟩
      · rw [if_neg hverb, List.append_nil]
        exact h.configured
    · rw [installs_snoc]
      by_cases hverb : a.verb = .inst
      · rw [if_pos hverb, List.length_append]
        exact (hnew hverb).2
      · rw [if_neg hverb, List.append_nil]
        exact h.bounded

/-- The variables of the loop after actions. -/
def actionState (s : State) (actions : List Action) : State :=
  { s with
    installs := (installs actions).map Action.addition
    origins := (installs actions).map fun a => (a.name, a.origin)
    configured := ((configures actions).map Action.name).toFinset }

/-- The two dictionaries hold the action of the package. -/
theorem recorded_iff (h : ((installs as).map Action.name).Nodup) :
    (((installs as).map Action.addition).find? (fun x => x.package = a.name) = some a.addition ∧
      ((installs as).map fun b => (b.name, b.origin)).lookup a.name = some a.origin) ↔
        ∃ b ∈ as, b.verb = .inst ∧ b.Same a := by
  have hmem : ∀ b, b ∈ installs as ↔ b ∈ as ∧ b.verb = .inst := fun b => by
    rw [installs, List.mem_filter, decide_eq_true_iff]
  constructor
  · rintro ⟨hfind, hlookup⟩
    obtain ⟨b, hb, hadd⟩ := List.mem_map.mp (List.mem_of_find?_eq_some hfind)
    obtain ⟨front, rest, hfront, -⟩ := List.lookup_eq_some_iff.mp hlookup
    obtain ⟨c, hc, horigin⟩ := List.mem_map.mp (hfront ▸ List.mem_append_right front List.mem_cons_self)
    rw [Action.addition, Action.addition, PackageAddition.mk.injEq] at hadd
    rw [Prod.mk.injEq] at horigin
    have hsame := List.inj_on_of_nodup_map h hb hc (hadd.1.trans horigin.1.symm)
    subst hsame
    exact ⟨b, ((hmem b).mp hb).1, ((hmem b).mp hb).2, hadd.1, hadd.2.1, hadd.2.2, horigin.2⟩
  · rintro ⟨b, hb, hverb, hname, hversion, harch, horigin⟩
    have hinst := (hmem b).mpr ⟨hb, hverb⟩
    obtain ⟨before, after, hsplit⟩ := List.append_of_mem hinst
    have hbefore : ∀ c ∈ before, c.name ≠ a.name := by
      intro c hc heq
      rw [hsplit, List.map_append, List.nodup_append] at h
      exact h.2.2 c.name (List.mem_map_of_mem hc) b.name List.mem_cons_self (heq.trans hname.symm)
    have hadd : b.addition = a.addition := by rw [Action.addition, hname, hversion, harch, Action.addition]
    rw [hsplit]
    constructor
    · apply List.find?_eq_some_iff_append.mpr
      refine ⟨decide_eq_true rfl, before.map Action.addition, after.map Action.addition, ?_, ?_⟩
      · rw [List.map_append, List.map_cons, hadd]
      · intro x hx
        obtain ⟨c, hc, rfl⟩ := List.mem_map.mp hx
        simp [Action.addition, hbefore c hc]
    · apply List.lookup_eq_some_iff.mpr
      refine ⟨before.map fun c => (c.name, c.origin), after.map fun c => (c.name, c.origin), ?_, ?_⟩
      · rw [List.map_append, List.map_cons, hname, horigin]
      · intro x hx
        obtain ⟨c, hc, rfl⟩ := List.mem_map.mp hx
        simpa using (hbefore c hc).symm

/-- A line after the summary is an action that goes on with those before it. -/
theorem after_step {s' : State} (h : Actions expected installed as) :
    afterSummary expected installed (actionState s as) number line = .ok s' ↔
      ∃ a, matchAction line = some a ∧ Continues expected installed as a ∧ s' = actionState s (as ++ [a]) := by
  rw [afterSummary]
  cases hmatch : matchAction line with
  | none => exact iff_of_false (fun hs => by cases hs) fun ⟨a, ha, _⟩ => by cases ha
  | some a =>
    have hone : (∃ b, some a = some b ∧ Continues expected installed as b ∧ s' = actionState s (as ++ [b])) ↔
        Continues expected installed as a ∧ s' = actionState s (as ++ [a]) := by simp
    rw [hone]
    have hrefuse : ∀ {message : AptPlanError}, ¬ a.Valid expected installed →
        ((.error message : Except AptPlanError State) = .ok s' ↔
          Continues expected installed as a ∧ s' = actionState s (as ++ [a])) := fun hinvalid =>
      iff_of_false (fun hs => by cases hs) fun hs => hinvalid hs.1.valid
    dsimp only
    by_cases horigin : a.origin.getLast? = some ' '
    · rw [if_pos horigin]
      exact hrefuse fun hv => hv.origin horigin
    rw [if_neg horigin]
    cases hpackage : package a.package with
    | error e =>
      refine hrefuse fun hv => ?_
      obtain ⟨suffix, hok, -⟩ := hv.package
      rw [hpackage] at hok
      cases hok
    | ok result =>
      obtain ⟨name, suffix⟩ := result
      obtain rfl : name = a.name := package_name hpackage
      change (if ¬ validVersion a.version ∨ (a.arch ≠ arm64 ∧ a.arch ≠ allArchitectures) then _ else _) = _ ↔ _
      by_cases hversion : ¬ validVersion a.version = true ∨ (a.arch ≠ arm64 ∧ a.arch ≠ allArchitectures)
      · rw [if_pos hversion]
        refine hrefuse fun hv => ?_
        have hgood := hv.version
        have harch := hv.arch
        tauto
      rw [if_neg hversion]
      by_cases hsuffix : suffix ≠ none ∧ suffix ≠ some a.arch
      · rw [if_pos hsuffix]
        refine hrefuse fun hv => ?_
        obtain ⟨other, hok, hother⟩ := hv.package
        rw [hpackage] at hok
        cases hok
        tauto
      rw [if_neg hsuffix]
      by_cases hinstalled : a.name ∈ installed
      · rw [if_pos hinstalled]
        exact hrefuse fun hv => hv.added hinstalled
      rw [if_neg hinstalled]
      by_cases hexact : a.name = panelbridge ∧ (a.version ≠ expected ∨ a.arch ≠ arm64)
      · rw [if_pos hexact]
        refine hrefuse fun hv => ?_
        have hgood := hv.exact hexact.1
        tauto
      rw [if_neg hexact]
      have hvalid : a.Valid expected installed := by
        refine ⟨⟨suffix, hpackage, by tauto⟩, horigin, by tauto, by tauto, hinstalled, ?_⟩
        intro hname
        by_contra hbad
        exact hexact ⟨hname, by tauto⟩
      cases hverb : a.verb with
      | inst =>
        dsimp only
        have hnames : a.name ∈ (actionState s as).installs.map PackageAddition.package ↔
            a.name ∈ (installs as).map Action.name := by
          rw [actionState, List.map_map]
          rfl
        have hlength : (actionState s as).installs.length = (installs as).length := List.length_map ..
        rw [hlength]
        by_cases hknown : a.name ∈ (actionState s as).installs.map PackageAddition.package
        · rw [if_pos hknown]
          exact iff_of_false (fun hs => by cases hs) fun hs => (hs.1.new hverb).1 (hnames.mp hknown)
        rw [if_neg hknown]
        by_cases hmany : maxAdditions ≤ (installs as).length
        · rw [if_pos hmany]
          exact iff_of_false (fun hs => by cases hs) fun hs => absurd (hs.1.new hverb).2 (not_lt.mpr hmany)
        rw [if_neg hmany]
        have hnext : Continues expected installed as a :=
          ⟨hvalid, fun _ => ⟨fun hold => hknown (hnames.mpr hold), not_le.mp hmany⟩,
            fun hconf => by rw [hverb] at hconf; cases hconf⟩
        have hstate : { actionState s as with
            installs := (actionState s as).installs ++ [a.addition]
            origins := (actionState s as).origins ++ [(a.name, a.origin)] } = actionState s (as ++ [a]) := by
          have hconf : ¬ a.verb = .conf := by
            rw [hverb]
            decide
          rw [actionState, actionState, installs_snoc, configures_snoc, if_pos hverb, if_neg hconf,
            List.map_append, List.map_append, List.append_nil]
          rfl
        rw [← hstate]
        constructor
        · intro hs
          exact ⟨hnext, (Except.ok.inj hs).symm⟩
        · rintro ⟨-, rfl⟩
          rfl
      | conf =>
        dsimp only
        have hinst : ¬ a.verb = .inst := by
          rw [hverb]
          decide
        have hrecorded := recorded_iff (a := a) h.installed
        have hconfigured : a.name ∈ (actionState s as).configured ↔ a.name ∈ (configures as).map Action.name := by
          rw [actionState, List.mem_toFinset]
        by_cases hbad : a.name ∈ (actionState s as).configured ∨
            (actionState s as).installs.find? (fun x => x.package = a.name) ≠ some a.addition ∨
            (actionState s as).origins.lookup a.name ≠ some a.origin
        · refine (iff_of_eq (congrArg (· = Except.ok s') (if_pos hbad))).trans ?_
          refine iff_of_false (fun hs => by cases hs) fun hs => ?_
          obtain ⟨hnew, hpair⟩ := hs.1.paired hverb
          have hpair := hrecorded.mpr hpair
          rw [← hconfigured] at hnew
          exact hbad.elim hnew fun hor => hor.elim (fun hne => hne hpair.1) fun hne => hne hpair.2
        · refine (iff_of_eq (congrArg (· = Except.ok s') (if_neg hbad))).trans ?_
          rw [not_or, not_or, not_not, not_not] at hbad
          have hnext : Continues expected installed as a :=
            ⟨hvalid, fun hverb' => absurd hverb' hinst,
              fun _ => ⟨fun hold => hbad.1 (hconfigured.mpr hold), hrecorded.mp hbad.2⟩⟩
          have hstate : { actionState s as with configured := insert a.name (actionState s as).configured } =
              actionState s (as ++ [a]) := by
            have hset : ((configures as ++ [a]).map Action.name).toFinset =
                insert a.name ((configures as).map Action.name).toFinset := by
              rw [List.map_append, List.toFinset_append]
              ext other
              simp
            rw [actionState, actionState, installs_snoc, configures_snoc, if_neg hinst, if_pos hverb, hset,
              List.append_nil]
          rw [hstate]
          constructor
          · intro hs
            exact ⟨hnext, (Except.ok.inj hs).symm⟩
          · rintro ⟨-, rfl⟩
            rfl

end After

section Loop

variable {pairs : List (Text × Nat)}

theorem afterSummary_summary {s' : State} (h : afterSummary expected installed s number line = .ok s') :
    s'.summary = s.summary := by
  rw [afterSummary] at h
  cases hmatch : matchAction line with
  | none =>
    rw [hmatch] at h
    cases h
  | some a =>
    rw [hmatch] at h
    dsimp only at h
    split at h
    · cases h
    · cases hpackage : package a.package with
      | error e =>
        rw [hpackage] at h
        cases h
      | ok result =>
        rw [hpackage] at h
        change (if _ then _ else _) = _ at h
        repeat' split at h
        all_goals cases h
        all_goals rfl

theorem foldlM_snoc {x : Text × Nat} {s' : State} :
    (pairs ++ [x]).foldlM (inspectLine expected installed) s = .ok s' ↔
      ∃ t, pairs.foldlM (inspectLine expected installed) s = .ok t ∧ inspectLine expected installed t x = .ok s' := by
  rw [List.foldlM_append]
  cases hfold : pairs.foldlM (inspectLine expected installed) s with
  | error e => exact iff_of_false (fun h => by cases h) fun ⟨t, ht, _⟩ => by cases ht
  | ok t =>
    have hlast : [x].foldlM (inspectLine expected installed) t = inspectLine expected installed t x := by
      rw [List.foldlM_cons]
      cases inspectLine expected installed t x <;> rfl
    constructor
    · intro h
      exact ⟨t, rfl, hlast ▸ h⟩
    · rintro ⟨u, hu, h⟩
      cases hu
      exact hlast.trans h

theorem actionLines_blank {lines : List Text} {actions : List Action} :
    ActionLines (lines ++ [[]]) actions ↔ ActionLines lines actions := by
  rw [ActionLines, ActionLines, List.filter_append]
  simp

theorem actionLines_snoc {lines : List Text} {actions : List Action} (hne : line ≠ []) :
    ActionLines (lines ++ [line]) actions ↔
      ∃ as a, actions = as ++ [a] ∧ ActionLines lines as ∧ matchAction line = some a := by
  have hlast : [line].filter (· ≠ []) = [line] := by simp [hne]
  rw [ActionLines, List.filter_append, hlast, List.map_append, List.map_singleton]
  constructor
  · intro h
    obtain rfl | ⟨as, a, rfl⟩ := actions.eq_nil_or_concat
    · simp at h
    · rw [List.concat_eq_append, List.map_append, List.map_singleton] at h
      obtain ⟨hfront, hlast⟩ := List.append_inj' h rfl
      exact ⟨as, a, by rw [List.concat_eq_append], hfront, (List.cons.inj hlast).1⟩
  · rintro ⟨as, a, rfl, hlines, ha⟩
    rw [List.map_append, List.map_singleton, ha]
    exact congrArg (· ++ [some a]) hlines

/-- Without a summary, the lines are those of blocks. -/
theorem fold_before : (pairs.foldlM (inspectLine expected installed) State.initial = .ok s ∧ s.summary = none) ↔
    ∃ bs, Blocks (pairs.map Prod.fst) bs ∧ Loose bs ∧ s = stateOf (pairs.map Prod.fst) bs := by
  induction pairs using List.reverseRecOn generalizing s with
  | nil =>
    have hinitial : State.initial = stateOf [] [] := by
      rw [State.initial, stateOf]
      rfl
    constructor
    · rintro ⟨h, -⟩
      cases h
      exact ⟨[], ⟨rfl, List.nodup_nil, by simp, List.nodup_nil, by simp, by simp⟩, by simp [Loose], hinitial⟩
    · rintro ⟨bs, h, -, rfl⟩
      have hnil : bs = [] := by
        have hcontent := h.content
        cases bs with
        | nil => rfl
        | cons b bs => cases b <;> simp [content, Block.lines] at hcontent
      subst hnil
      exact ⟨congrArg Except.ok hinitial, rfl⟩
  | append_singleton pairs x ih =>
    rw [foldlM_snoc, List.map_append, List.map_singleton]
    constructor
    · rintro ⟨⟨t, ht, hx⟩, hnone⟩
      rw [inspectLine] at hx
      by_cases hblank : x.1 = []
      · rw [if_pos hblank] at hx
        cases hx
        obtain ⟨bs, hblocks, hloose, hs⟩ := ih.mp ⟨ht, hnone⟩
        refine ⟨bs, hblank ▸ blocks_blank.mpr hblocks, hloose, ?_⟩
        rw [hs, stateOf, stateOf, hblank, seen, seen, informed_other not_information_nil]
      · rw [if_neg hblank] at hx
        cases hsummary : t.summary with
        | some summary =>
          rw [hsummary] at hx
          rw [afterSummary_summary hx, hsummary] at hnone
          cases hnone
        | none =>
          rw [hsummary] at hx
          obtain ⟨bs, hblocks, hloose, rfl⟩ := ih.mp ⟨ht, hsummary⟩
          obtain hnext | ⟨summary, -, -, rfl⟩ := before_step hblocks hloose hblank hx
          · exact hnext
          · cases hnone
    · rintro ⟨bs', hblocks, hloose, rfl⟩
      refine ⟨?_, rfl⟩
      by_cases hblank : x.1 = []
      · rw [hblank] at hblocks
        obtain ⟨ht, -⟩ := ih.mpr ⟨bs', blocks_blank.mp hblocks, hloose, rfl⟩
        refine ⟨_, ht, ?_⟩
        rw [inspectLine, if_pos hblank, stateOf, stateOf, hblank, seen, seen, informed_other not_information_nil]
      · obtain ⟨bs, hfront, hfrontLoose, hstep⟩ := before_blocks hblank hblocks hloose
        obtain ⟨ht, -⟩ := ih.mpr ⟨bs, hfront, hfrontLoose, rfl⟩
        refine ⟨_, ht, ?_⟩
        rw [inspectLine, if_neg hblank]
        exact hstep x.2

/-- After the summary, the lines are those of actions. -/
theorem fold_after {summary : Summary} {s' : State} (hs : s.summary = some summary)
    (hstart : s = actionState s []) :
    pairs.foldlM (inspectLine expected installed) s = .ok s' ↔
      ∃ actions, ActionLines (pairs.map Prod.fst) actions ∧ Actions expected installed actions ∧
        s' = actionState s actions := by
  induction pairs using List.reverseRecOn generalizing s' with
  | nil =>
    constructor
    · intro h
      cases h
      exact ⟨[], rfl, ⟨by simp, List.nodup_nil, List.nodup_nil, Nat.zero_le _, by simp⟩, hstart⟩
    · rintro ⟨actions, hlines, -, rfl⟩
      have hnil : actions = [] := by
        rw [ActionLines] at hlines
        exact List.map_eq_nil_iff.mp hlines.symm
      rw [hnil]
      exact congrArg Except.ok hstart
  | append_singleton pairs x ih =>
    rw [foldlM_snoc, List.map_append, List.map_singleton]
    have hsummary : ∀ actions, (actionState s actions).summary = some summary := fun _ => hs
    by_cases hblank : x.1 = []
    · rw [hblank]
      simp only [inspectLine, hblank, if_true, actionLines_blank]
      rw [← ih]
      constructor
      · rintro ⟨t, ht, heq⟩
        cases heq
        exact ht
      · intro h
        exact ⟨s', h, rfl⟩
    · simp only [actionLines_snoc hblank]
      constructor
      · rintro ⟨t, ht, hx⟩
        obtain ⟨as, hlines, has, rfl⟩ := ih.mp ht
        rw [inspectLine, if_neg hblank, hsummary as] at hx
        obtain ⟨a, ha, hcontinues, rfl⟩ := (after_step has).mp hx
        exact ⟨as ++ [a], ⟨as, a, rfl, hlines, ha⟩, actions_snoc.mpr ⟨has, hcontinues⟩, rfl⟩
      · rintro ⟨actions, ⟨as, a, rfl, hlines, ha⟩, hactions, rfl⟩
        obtain ⟨has, hcontinues⟩ := actions_snoc.mp hactions
        refine ⟨actionState s as, ih.mpr ⟨as, hlines, has, rfl⟩, ?_⟩
        rw [inspectLine, if_neg hblank, hsummary as]
        exact (after_step has).mpr ⟨a, ha, hcontinues, rfl⟩

/-- The state after the summary of a reading. -/
def summaryState (before : List Text) (bs : List Block) (summary : Summary) : State :=
  { stateOf before bs with currentList := none, summary := some summary }

/-- With a summary, the lines are blocks, the summary and actions. -/
theorem fold_summary {summary : Summary} (hs : s.summary = some summary) :
    pairs.foldlM (inspectLine expected installed) State.initial = .ok s ↔
      ∃ before x after bs actions, pairs = before ++ x :: after ∧ Blocks (before.map Prod.fst) bs ∧
        (∀ block ∈ bs, block.Filled) ∧ Summarises x.1 summary ∧ ActionLines (after.map Prod.fst) actions ∧
        Actions expected installed actions ∧
        s = actionState (summaryState (before.map Prod.fst) bs summary) actions := by
  constructor
  · intro h
    induction pairs using List.reverseRecOn generalizing s with
    | nil =>
      cases h
      cases hs
    | append_singleton pairs x ih =>
      obtain ⟨t, ht, hx⟩ := foldlM_snoc.mp h
      rw [inspectLine] at hx
      by_cases hblank : x.1 = []
      · rw [if_pos hblank] at hx
        cases hx
        obtain ⟨before, y, after, bs, actions, rfl, hblocks, hfilled, hy, hlines, hactions, hstate⟩ := ih hs ht
        refine ⟨before, y, after ++ [x], bs, actions, by simp, hblocks, hfilled, hy, ?_, hactions, hstate⟩
        rw [List.map_append, List.map_singleton, hblank]
        exact actionLines_blank.mpr hlines
      · rw [if_neg hblank] at hx
        cases hsummary : t.summary with
        | none =>
          rw [hsummary] at hx
          obtain ⟨bs, hblocks, hloose, rfl⟩ := fold_before.mp ⟨ht, hsummary⟩
          obtain ⟨bs', -, -, rfl⟩ | ⟨other, hother, hfilled, rfl⟩ := before_step hblocks hloose hblank hx
          · cases hs
          · cases hs
            refine ⟨pairs, x, [], bs, [], rfl, hblocks, hfilled, hother, rfl, ?_, ?_⟩
            · exact ⟨by simp, List.nodup_nil, List.nodup_nil, Nat.zero_le _, by simp⟩
            · rfl
        | some other =>
          rw [hsummary] at hx
          have hsame := afterSummary_summary hx
          rw [hs, hsummary] at hsame
          cases hsame
          obtain ⟨before, y, after, bs, actions, rfl, hblocks, hfilled, hy, hlines, hactions, rfl⟩ :=
            ih hsummary ht
          obtain ⟨a, ha, hcontinues, rfl⟩ := (after_step hactions).mp hx
          refine ⟨before, y, after ++ [x], bs, actions ++ [a], by simp, hblocks, hfilled, hy, ?_,
            actions_snoc.mpr ⟨hactions, hcontinues⟩, rfl⟩
          rw [List.map_append, List.map_singleton]
          exact (actionLines_snoc hblank).mpr ⟨actions, a, rfl, hlines, ha⟩
  · rintro ⟨before, x, after, bs, actions, rfl, hblocks, hfilled, hx, hlines, hactions, rfl⟩
    have hloose : Loose bs := fun block hblock => hfilled block (List.mem_of_mem_dropLast hblock)
    obtain ⟨hbefore, -⟩ : before.foldlM (inspectLine expected installed) State.initial =
        .ok (stateOf (before.map Prod.fst) bs) ∧ (stateOf (before.map Prod.fst) bs).summary = none :=
      fold_before.mpr ⟨bs, hblocks, hloose, rfl⟩
    have hline : inspectLine expected installed (stateOf (before.map Prod.fst) bs) x =
        .ok (summaryState (before.map Prod.fst) bs summary) := by
      rw [inspectLine, if_neg (summary_plain hx.1).1.1]
      exact before_summary hblocks hfilled hx
    rw [← List.singleton_append, ← List.append_assoc, List.foldlM_append,
      foldlM_snoc.mpr ⟨_, hbefore, hline⟩]
    exact (fold_after (s := summaryState (before.map Prod.fst) bs summary) rfl rfl).mpr ⟨actions, hlines, hactions, rfl⟩

end Loop

section Inventory

/-- The base names of an inventory. -/
def inventoryNames (inventory : List (Text × Text)) : Finset Text :=
  (inventory.map fun item => baseName item.1).toFinset

/-- An installed package has a name and a version. -/
def InventoryItem (item : Text × Text) : Prop :=
  (∃ result, package item.1 = .ok result) ∧ validVersion item.2 = true

theorem inventory_fold {inventory : List (Text × Text)} {names names' : Finset Text} :
    inventory.foldlM (fun names item => do
      let (name, _) ← package item.1
      if validVersion item.2 then pure (insert name names)
      else (.error "Invalid installed package version" : Except AptPlanError (Finset Text))) names = .ok names' ↔
        (∀ item ∈ inventory, InventoryItem item) ∧ names' = names ∪ inventoryNames inventory := by
  induction inventory generalizing names with
  | nil =>
    have hnone : names ∪ inventoryNames [] = names := Finset.union_empty names
    rw [hnone]
    constructor
    · intro h
      cases h
      exact ⟨fun item hitem => absurd hitem List.not_mem_nil, rfl⟩
    · rintro ⟨-, rfl⟩
      rfl
  | cons item inventory ih =>
    rw [List.foldlM_cons, List.forall_mem_cons]
    cases hpackage : package item.1 with
    | error e =>
      refine iff_of_false (fun h => by cases h) fun h => ?_
      obtain ⟨result, hok⟩ := h.1.1.1
      rw [hpackage] at hok
      cases hok
    | ok result =>
      obtain ⟨name, arch⟩ := result
      obtain rfl : name = baseName item.1 := package_name hpackage
      by_cases hversion : validVersion item.2 = true
      · have hstep : (do
            let (name, _) ← Except.ok (ε := AptPlanError) (baseName item.1, arch)
            if validVersion item.2 then pure (insert name names)
            else .error "Invalid installed package version") =
              (.ok (insert (baseName item.1) names) : Except AptPlanError (Finset Text)) := if_pos hversion
        rw [hstep]
        refine (@ih (insert (baseName item.1) names)).trans ?_
        have hitem : InventoryItem item := ⟨⟨_, hpackage⟩, hversion⟩
        have hnames : insert (baseName item.1) names ∪ inventoryNames inventory =
            names ∪ inventoryNames (item :: inventory) := by
          rw [inventoryNames, inventoryNames, List.map_cons, List.toFinset_cons, Finset.insert_union,
            Finset.union_insert]
        rw [hnames]
        tauto
      · have hstep : (do
            let (name, _) ← Except.ok (ε := AptPlanError) (baseName item.1, arch)
            if validVersion item.2 then pure (insert name names)
            else .error "Invalid installed package version") =
              (.error "Invalid installed package version" : Except AptPlanError (Finset Text)) := if_neg hversion
        rw [hstep]
        exact iff_of_false (fun h => by cases h) fun h => hversion h.1.1.2

theorem installedNames_iff {inventory : List (Text × Text)} {names : Finset Text} :
    installedNames inventory = .ok names ↔ inventory.length ≤ maxInstalledPackages ∧
      (∀ item ∈ inventory, InventoryItem item) ∧ names = inventoryNames inventory := by
  rw [installedNames]
  by_cases hmany : maxInstalledPackages < inventory.length
  · rw [if_pos hmany]
    exact iff_of_false (fun h => by cases h) fun h => absurd h.1 (not_le.mpr hmany)
  · rw [if_neg hmany]
    refine inventory_fold.trans ?_
    rw [Finset.empty_union]
    have hle := not_lt.mp hmany
    tauto

end Inventory

section Finish

variable {r : Reading}

/-- The state that a reading leaves. -/
def Reading.state (r : Reading) : State :=
  actionState (summaryState r.before r.blocks r.summary) r.actions

/-- What the checks after the loop ask for. -/
structure Reading.Agrees (r : Reading) : Prop where
  complete : ∀ a ∈ r.actions, a.verb = .inst → ∃ b ∈ r.actions, b.verb = .conf ∧ b.name = a.name
  count : (installs r.actions).length = r.summary.new
  panelbridge : panelbridge ∈ r.names
  new : ∀ names, listed r.blocks .new = some names → names = r.names
  additional : ∀ names, listed r.blocks .additional = some names → names = r.names.erase Packaging.panelbridge
  kept : ∀ names, listed r.blocks .kept = some names → Disjoint names r.names ∧ names.card ≤ r.summary.held
  unused : ∀ names, listed r.blocks .unused = some names → Disjoint names r.names

theorem names_eq (r : Reading) : (r.state.installs.map PackageAddition.package).toFinset = r.names := by
  rw [Reading.state, actionState, Reading.names, List.map_map]
  rfl

/-- Every package is configured exactly when every installation has its configuration. -/
theorem configured_iff (h : Actions expected installed r.actions) :
    r.state.configured = r.names ↔
      ∀ a ∈ r.actions, a.verb = .inst → ∃ b ∈ r.actions, b.verb = .conf ∧ b.name = a.name := by
  have hinst : ∀ name, name ∈ r.names ↔ ∃ a ∈ r.actions, a.verb = .inst ∧ a.name = name := by
    intro name
    rw [Reading.names, List.mem_toFinset, List.mem_map]
    simp only [installs, List.mem_filter, decide_eq_true_iff, and_assoc]
  have hconf : ∀ name, name ∈ r.state.configured ↔ ∃ a ∈ r.actions, a.verb = .conf ∧ a.name = name := by
    intro name
    rw [Reading.state, actionState, List.mem_toFinset, List.mem_map]
    simp only [configures, List.mem_filter, decide_eq_true_iff, and_assoc]
  constructor
  · intro heq a ha hverb
    have hmem : a.name ∈ r.state.configured := heq ▸ (hinst a.name).mpr ⟨a, ha, hverb, rfl⟩
    exact (hconf a.name).mp hmem
  · intro hall
    ext name
    rw [hinst, hconf]
    constructor
    · rintro ⟨b, hb, hverb, rfl⟩
      obtain ⟨before, after, hsplit⟩ := List.append_of_mem hb
      obtain ⟨a, ha, hinst, hsame⟩ := h.earlier before b after hsplit hverb
      exact ⟨a, hsplit ▸ List.mem_append_left _ ha, hinst, hsame.1⟩
    · rintro ⟨a, ha, hverb, rfl⟩
      exact hall a ha hverb

theorem refused_iff {names : Finset Text} {found : Option (Finset Text)} :
    ¬ (found ≠ none ∧ found ≠ some names) ↔ ∀ other, found = some other → other = names := by
  cases found with
  | none => simp
  | some other => simp

theorem disjoint_iff {names : Finset Text} {found : Option (Finset Text)} :
    found.getD ∅ ∩ names = ∅ ↔ ∀ other, found = some other → Disjoint other names := by
  cases found with
  | none => simp
  | some other => simp [Finset.disjoint_iff_inter_eq_empty]

theorem held_iff {held : Nat} {found : Option (Finset Text)} :
    ¬ held < (found.getD ∅).card ↔ ∀ other, found = some other → other.card ≤ held := by
  cases found with
  | none => simp
  | some other => simp

theorem finish_iff (h : Actions expected installed r.actions) {plan : InstallPlan} :
    finish r.state = .ok plan ↔ r.Agrees ∧ plan = r.plan := by
  have hsummary : r.state.summary = some r.summary := rfl
  have hcount : r.state.installs.length = (installs r.actions).length := List.length_map ..
  have hlists : ∀ kind, r.state.lists kind = listed r.blocks kind := fun _ => rfl
  have hplan : (⟨r.state.installs, r.summary.held⟩ : InstallPlan) = r.plan := rfl
  have hrefuse : ∀ {message : AptPlanError}, ¬ r.Agrees →
      ((.error message : Except AptPlanError InstallPlan) = .ok plan ↔ r.Agrees ∧ plan = r.plan) := fun hnot =>
    iff_of_false (fun hs => by cases hs) fun hs => hnot hs.1
  rw [finish, hsummary]
  dsimp only
  rw [names_eq, hcount, hlists, hlists, hlists, hlists, hplan]
  by_cases hpanel : panelbridge ∉ r.names
  · rw [if_pos hpanel]
    exact hrefuse fun ha => hpanel ha.panelbridge
  rw [if_neg hpanel]
  by_cases hmatch : (installs r.actions).length ≠ r.summary.new ∨ r.state.configured ≠ r.names
  · rw [if_pos hmatch]
    refine hrefuse fun ha => hmatch.elim (fun hne => hne ha.count) fun hne => hne ?_
    exact (configured_iff h).mpr ha.complete
  rw [if_neg hmatch]
  by_cases hnew : listed r.blocks .new ≠ none ∧ listed r.blocks .new ≠ some r.names
  · rw [if_pos hnew]
    exact hrefuse fun ha => refused_iff.mpr ha.new hnew
  rw [if_neg hnew]
  by_cases hadditional : listed r.blocks .additional ≠ none ∧
      listed r.blocks .additional ≠ some (r.names.erase panelbridge)
  · rw [if_pos hadditional]
    exact hrefuse fun ha => refused_iff.mpr ha.additional hadditional
  rw [if_neg hadditional]
  by_cases hkept : (listed r.blocks .kept).getD ∅ ∩ r.names ≠ ∅ ∨
      r.summary.held < ((listed r.blocks .kept).getD ∅).card
  · rw [if_pos hkept]
    refine hrefuse fun ha => hkept.elim (fun hne => hne ?_) fun hlt => ?_
    · exact disjoint_iff.mpr fun other hother => (ha.kept other hother).1
    · exact held_iff.mpr (fun other hother => (ha.kept other hother).2) hlt
  rw [if_neg hkept]
  by_cases hunused : (listed r.blocks .unused).getD ∅ ∩ r.names ≠ ∅
  · rw [if_pos hunused]
    exact hrefuse fun ha => hunused (disjoint_iff.mpr ha.unused)
  rw [if_neg hunused]
  rw [not_or, not_not, not_not] at hmatch
  rw [not_or, not_not] at hkept
  rw [not_not] at hpanel hunused
  have hkeptNames := disjoint_iff.mp hkept.1
  have hheld := held_iff.mp hkept.2
  have hagrees : r.Agrees := ⟨(configured_iff h).mp hmatch.2, hmatch.1, hpanel, refused_iff.mp hnew,
    refused_iff.mp hadditional, fun other hother => ⟨hkeptNames other hother, hheld other hother⟩,
    disjoint_iff.mp hunused⟩
  constructor
  · intro hs
    exact ⟨hagrees, (Except.ok.inj hs).symm⟩
  · rintro ⟨-, rfl⟩
    rfl

theorem accepted_iff {lines : List Text} : r.Accepted expected installed lines ↔
    lines = r.before ++ r.line :: r.after ∧ Summarises r.line r.summary ∧ Blocks r.before r.blocks ∧
      (∀ block ∈ r.blocks, block.Filled) ∧ ActionLines r.after r.actions ∧
      Actions expected installed r.actions ∧ r.Agrees := by
  constructor
  · intro h
    exact ⟨h.lines, ⟨h.summary, h.unchanged, h.bounded⟩, h.blocks, h.filled, h.actionLines, h.actions,
      h.complete, h.count, h.panelbridge, h.new, h.additional, h.kept, h.unused⟩
  · rintro ⟨hlines, ⟨hsummary, hunchanged, hbounded⟩, hblocks, hfilled, hactionLines, hactions, ha⟩
    exact ⟨hlines, hsummary, hblocks, hfilled, hunchanged, hbounded, hactionLines, hactions, ha.complete,
      ha.count, ha.panelbridge, ha.new, ha.additional, ha.kept, ha.unused⟩

/-- The loop and the checks after it accept the lines that have a reading. -/
theorem inspect_lines {lines : List Text} {plan : InstallPlan} :
    (do
      let s ← (lines.zipIdx 1).foldlM (inspectLine expected installed) State.initial
      finish s) = .ok plan ↔ ∃ r : Reading, r.Accepted expected installed lines ∧ plan = r.plan := by
  have hfst : (lines.zipIdx 1).map Prod.fst = lines := List.zipIdx_map_fst 1 lines
  constructor
  · intro h
    obtain ⟨s, hfold, hfinish⟩ := bind_ok_iff.mp h
    cases hsummary : s.summary with
    | none =>
      rw [finish, hsummary] at hfinish
      cases hfinish
    | some summary =>
      obtain ⟨before, x, after, bs, actions, hsplit, hblocks, hfilled, hx, hlines, hactions, rfl⟩ :=
        (fold_summary hsummary).mp hfold
      let r : Reading := ⟨before.map Prod.fst, x.1, summary, after.map Prod.fst, bs, actions⟩
      obtain ⟨hagrees, hplan⟩ := (finish_iff (r := r) hactions).mp hfinish
      refine ⟨r, accepted_iff.mpr ⟨?_, hx, hblocks, hfilled, hlines, hactions, hagrees⟩, hplan⟩
      rw [← hfst, hsplit, List.map_append, List.map_cons]
  · rintro ⟨r, hr, rfl⟩
    obtain ⟨hlines, hsummary, hblocks, hfilled, hactionLines, hactions, hagrees⟩ := accepted_iff.mp hr
    rw [← hfst] at hlines
    obtain ⟨before, rest, hsplit, hbefore, hrest⟩ := List.map_eq_append_iff.mp hlines
    obtain ⟨x, after, rfl, hx, hafter⟩ := List.map_eq_cons_iff.mp hrest
    apply bind_ok_iff.mpr
    refine ⟨r.state, ?_, (finish_iff hactions).mpr ⟨hagrees, rfl⟩⟩
    have hstate : r.state.summary = some r.summary := rfl
    apply (fold_summary hstate).mpr
    refine ⟨before, x, after, r.blocks, r.actions, hsplit, ?_, hfilled, hx ▸ hsummary, hafter ▸ hactionLines,
      hactions, ?_⟩
    · rw [hbefore]
      exact hblocks
    · rw [hbefore]
      rfl

end Finish

section Soundness

variable {r : Reading} {lines : List Text}

/-- What an accepted text says of the machine. -/
structure Reading.Sound (expected : Text) (installed : Finset Text) (r : Reading) : Prop where
  /-- There is one summary. -/
  once : ∀ line ∈ r.before ++ r.after, matchSummary line = none
  /-- Every line after it is an action, or empty. -/
  actions : ∀ line ∈ r.after, line ≠ [] → ∃ a ∈ r.actions, matchAction line = some a
  /-- The additions are the packages of the installations. -/
  additions : r.plan.additions = (installs r.actions).map Action.addition
  /-- They are different packages. -/
  distinct : (r.plan.additions.map PackageAddition.package).Nodup
  /-- An installation has one configuration, which is later and of the same package. -/
  configured : ∀ before a after, r.actions = before ++ a :: after → a.verb = .inst →
    ∃ b ∈ after, b.verb = .conf ∧ a.Same b ∧
      ∀ c ∈ r.actions, c.verb = .conf → c.name = a.name → c = b
  /-- A configuration has its installation before it. -/
  preceded : ∀ before a after, r.actions = before ++ a :: after → a.verb = .conf →
    ∃ b ∈ before, b.verb = .inst ∧ b.Same a
  count : r.plan.additions.length = r.summary.new ∧ r.plan.additions.length ≤ maxAdditions
  /-- No package that is installed is changed, for any architecture. -/
  unchanged : ∀ addition ∈ r.plan.additions, addition.package ∉ installed
  architecture : ∀ addition ∈ r.plan.additions,
    addition.architecture = arm64 ∨ addition.architecture = allArchitectures
  panelbridge : ⟨panelbridge, expected, arm64⟩ ∈ r.plan.additions

/-- The line of an action begins with its verb. -/
theorem action_head {a : Action} (h : matchAction line = some a) : line.head? = a.verb.text.head? := by
  rw [matchAction] at h
  have hword := span_fst (fun c : Char => decide (c ≠ ' ')) line
  cases hspan : line.span (fun c : Char => decide (c ≠ ' ')) with
  | mk word rest =>
    rw [hspan] at h hword
    dsimp only at hword
    have hverb : ∃ verb, verbOf word = some verb ∧ a.verb = verb := by
      repeat' split at h
      all_goals first | cases h | skip
      obtain ⟨verb, hverb, rfl⟩ := Option.map_eq_some_iff.mp h
      simp_all
    obtain ⟨verb, hverb, hsame⟩ := hverb
    have htext : word = verb.text := by
      rw [verbOf] at hverb
      split at hverb
      · next heq =>
        cases hverb
        exact heq
      · split at hverb
        · next heq =>
          cases hverb
          exact heq
        · cases hverb
    rw [hsame, ← htext, hword]
    cases line with
    | nil => rfl
    | cons c line =>
      by_cases hc : c = ' '
      · have hnil : word = [] := by
          rw [hword, hc]
          rfl
        rw [hnil] at htext
        cases verb <;> cases htext
      · rw [List.takeWhile_cons_of_pos (by simpa using hc)]
        rfl

theorem action_not_summary {a : Action} (h : matchAction line = some a) : matchSummary line = none := by
  cases hsummary : matchSummary line with
  | none => rfl
  | some summary =>
    have hhead := summary_head hsummary
    rw [action_head h] at hhead
    cases hverb : a.verb with
    | inst =>
      rw [hverb] at hhead
      exact absurd hhead (by decide)
    | conf =>
      rw [hverb] at hhead
      exact absurd hhead (by decide)

/-- No line of blocks is a summary. -/
theorem before_not_summary {before : List Text} {bs : List Block} (h : Blocks before bs)
    (hline : line ∈ before) : matchSummary line = none := by
  cases hsummary : matchSummary line with
  | none => rfl
  | some summary =>
    obtain ⟨⟨hne, hni, hspaces⟩, hheader, hnotice, hselection⟩ := summary_plain hsummary
    have hcontent : line ∈ bs.flatMap Block.lines := by
      rw [← h.content, content, List.mem_filter]
      exact ⟨hline, by simp [hne, hni]⟩
    obtain ⟨block, hblock, hmem⟩ := List.mem_flatMap.mp hcontent
    have hformed := h.formed block hblock
    cases block with
    | list kind entries =>
      obtain rfl | hentry := List.mem_cons.mp hmem
      · rw [(header_plain kind).2] at hheader
        cases hheader
      · exact absurd (hformed.1 line hentry).1 hspaces
    | notice other =>
      rw [List.mem_singleton.mp hmem] at hnotice
      exact absurd hformed hnotice
    | selection other =>
      rw [List.mem_singleton.mp hmem, show isSelection other = true from hformed] at hselection
      cases hselection

theorem sound_of_accepted (h : r.Accepted expected installed lines) : r.Sound expected installed := by
  have hmem : ∀ a, a ∈ installs r.actions ↔ a ∈ r.actions ∧ a.verb = .inst := fun a => by
    rw [installs, List.mem_filter, decide_eq_true_iff]
  have haction : ∀ line ∈ r.after, line ≠ [] → ∃ a ∈ r.actions, matchAction line = some a := by
    intro line hline hne
    have hmap : matchAction line ∈ (r.after.filter (· ≠ [])).map matchAction :=
      List.mem_map_of_mem (List.mem_filter.mpr ⟨hline, decide_eq_true hne⟩)
    rw [show (r.after.filter (· ≠ [])).map matchAction = r.actions.map some from h.actionLines] at hmap
    obtain ⟨a, ha, heq⟩ := List.mem_map.mp hmap
    exact ⟨a, ha, heq.symm⟩
  have hadditions : ∀ addition ∈ r.plan.additions, ∃ a ∈ r.actions, a.verb = .inst ∧ a.addition = addition := by
    intro addition hmemAddition
    obtain ⟨a, ha, rfl⟩ := List.mem_map.mp hmemAddition
    exact ⟨a, ((hmem a).mp ha).1, ((hmem a).mp ha).2, rfl⟩
  exact {
    once := by
      intro line hline
      obtain hline | hline := List.mem_append.mp hline
      · exact before_not_summary h.blocks hline
      · by_cases hne : line = []
        · rw [hne]
          decide
        · obtain ⟨a, -, ha⟩ := haction line hline hne
          exact action_not_summary ha
    actions := haction
    additions := rfl
    distinct := by
      have hnodup := h.actions.installed
      rw [Reading.plan, List.map_map]
      exact hnodup
    configured := by
      intro before a after hsplit hverb
      have ha : a ∈ r.actions := hsplit ▸ List.mem_append_right _ List.mem_cons_self
      obtain ⟨b, hb, hconf, hname⟩ := h.complete a ha hverb
      obtain ⟨front, rest, hfront⟩ := List.append_of_mem hb
      obtain ⟨c, hc, hinst, hsame⟩ := h.actions.earlier front b rest hfront hconf
      have hcMem : c ∈ r.actions := hfront ▸ List.mem_append_left _ hc
      -- the installation before the configuration is this one
      have hca : c = a := List.inj_on_of_nodup_map h.actions.installed ((hmem c).mpr ⟨hcMem, hinst⟩)
        ((hmem a).mpr ⟨ha, hverb⟩) (hsame.1.trans hname)
      subst hca
      have hne : b ≠ c := by
        rintro rfl
        rw [hverb] at hconf
        cases hconf
      have hafter : b ∈ after := by
        have hnotBefore : b ∉ before := by
          intro hbefore
          obtain ⟨front', rest', hfront'⟩ := List.append_of_mem hbefore
          have hsplit' : r.actions = front' ++ b :: (rest' ++ c :: after) := by
            rw [hsplit, hfront', List.append_assoc, List.cons_append]
          obtain ⟨d, hd, hdinst, hdsame⟩ := h.actions.earlier front' b _ hsplit' hconf
          have hdMem : d ∈ r.actions := hsplit' ▸ List.mem_append_left _ hd
          have hdc : d = c := List.inj_on_of_nodup_map h.actions.installed ((hmem d).mpr ⟨hdMem, hdinst⟩)
            ((hmem c).mpr ⟨ha, hverb⟩) (hdsame.1.trans hname)
          have hnodup : (installs r.actions).Nodup := List.Nodup.of_map _ h.actions.installed
          rw [hsplit', installs, List.filter_append, List.nodup_append] at hnodup
          apply hnodup.2.2 d (List.mem_filter.mpr ⟨hd, decide_eq_true hdinst⟩) c _ hdc
          apply List.mem_filter.mpr
          refine ⟨?_, decide_eq_true hverb⟩
          exact List.mem_cons_of_mem _ (List.mem_append_right _ List.mem_cons_self)
        rw [hsplit] at hb
        obtain hb | hb := List.mem_append.mp hb
        · exact absurd hb hnotBefore
        · exact (List.mem_cons.mp hb).resolve_left hne
      refine ⟨b, hafter, hconf, hsame, ?_⟩
      intro d hd hdconf hdname
      have hconfMem : ∀ x, x ∈ configures r.actions ↔ x ∈ r.actions ∧ x.verb = .conf := fun x => by
        rw [configures, List.mem_filter, decide_eq_true_iff]
      exact List.inj_on_of_nodup_map h.actions.configured ((hconfMem d).mpr ⟨hd, hdconf⟩)
        ((hconfMem b).mpr ⟨hfront ▸ List.mem_append_right _ List.mem_cons_self, hconf⟩) (hdname.trans hname.symm)
    preceded := h.actions.earlier
    count := by
      have hlength : r.plan.additions.length = (installs r.actions).length := List.length_map ..
      exact ⟨hlength.trans h.count, hlength ▸ h.actions.bounded⟩
    unchanged := by
      intro addition haddition
      obtain ⟨a, ha, -, rfl⟩ := hadditions addition haddition
      exact (h.actions.valid a ha).added
    architecture := by
      intro addition haddition
      obtain ⟨a, ha, -, rfl⟩ := hadditions addition haddition
      exact (h.actions.valid a ha).arch
    panelbridge := by
      have hpanel := h.panelbridge
      rw [Reading.names, List.mem_toFinset] at hpanel
      obtain ⟨a, ha, hname⟩ := List.mem_map.mp hpanel
      have hexact := (h.actions.valid a ((hmem a).mp ha).1).exact hname
      apply List.mem_map.mpr
      exact ⟨a, ha, by rw [Action.addition, hname, hexact.1, hexact.2]⟩ }

end Soundness

section Samples

def informationLine : Text := "Reading package lists...".toList

def summaryLine : Text := "0 upgraded, 1 newly installed, 0 to remove and 0 not upgraded.".toList

def instLine : Text := "Inst panelbridge (1 o [arm64])".toList

def confLine : Text := "Conf panelbridge (1 o [arm64])".toList

/-- The installation of one package after lines of information. -/
def sampleText (before : List Text) : Text :=
  (before.flatMap fun line => line ++ ['\n']) ++ summaryLine ++ '\n' :: instLine ++ '\n' :: confLine

def sampleAction (verb : Verb) : Action := ⟨verb, panelbridge, ['1'], ['o'], arm64⟩

def sampleReading (before : List Text) : Reading :=
  ⟨before, summaryLine, ⟨0, 1, 0, 0⟩, [instLine, confLine], [], [sampleAction .inst, sampleAction .conf]⟩

theorem sampleAction_valid (verb : Verb) : (sampleAction verb).Valid ['1'] ∅ where
  package := ⟨none, by cases verb <;> rfl, Or.inl rfl⟩
  origin := by cases verb <;> decide
  version := by cases verb <;> decide
  arch := Or.inl rfl
  added := by simp
  exact _ := ⟨rfl, rfl⟩

theorem sample_actions : Actions ['1'] ∅ [sampleAction .inst, sampleAction .conf] := by
  have hnone : Actions ['1'] ∅ [] := ⟨by simp, List.nodup_nil, List.nodup_nil, Nat.zero_le _, by simp⟩
  have hinst : Actions ['1'] ∅ [sampleAction .inst] := by
    apply actions_snoc.mpr ⟨hnone, sampleAction_valid .inst, fun _ => ⟨List.not_mem_nil, by decide⟩, ?_⟩
    intro hverb
    cases hverb
  apply actions_snoc.mpr ⟨hinst, sampleAction_valid .conf, ?_, ?_⟩
  · intro hverb
    cases hverb
  · intro _
    exact ⟨List.not_mem_nil, sampleAction .inst, List.mem_singleton.mpr rfl, rfl, rfl, rfl, rfl, rfl⟩

theorem sample_action_lines : ActionLines [instLine, confLine] [sampleAction .inst, sampleAction .conf] := by
  rw [ActionLines]
  decide

theorem sample_agrees (before : List Text) : (sampleReading before).Agrees where
  complete a ha hverb := ⟨sampleAction .conf, by simp [sampleReading], rfl, by
    have hmem : a = sampleAction .inst ∨ a = sampleAction .conf := by simpa [sampleReading] using ha
    obtain rfl | rfl := hmem <;> rfl⟩
  count := rfl
  panelbridge := (by decide : panelbridge ∈ (sampleReading []).names)
  new names h := by cases h
  additional names h := by cases h
  kept names h := by cases h
  unused names h := by cases h

end Samples

section Acceptance

/-- The bounds on the text, the expected version and the inventory. -/
structure Bounded (text expected : Text) (inventory : List (Text × Text)) : Prop where
  bytes : boundedText text = true
  rows : (text.splitOn '\n').length ≤ maxLines
  row : ∀ line ∈ text.splitOn '\n', line.length ≤ maxLineBytes
  version : validVersion expected = true
  size : inventory.length ≤ maxInstalledPackages
  items : ∀ item ∈ inventory, InventoryItem item
  absent : panelbridge ∉ inventoryNames inventory

/-- A plan is returned exactly for a bounded text that has a reading, and what it adds is then
what the text says of packages that are not installed. -/
theorem inspect_install_plan_accepts (text expected : Text) (inventory : List (Text × Text))
    (plan : InstallPlan) :
    (inspectInstallPlan text expected inventory = .ok plan ↔ Bounded text expected inventory ∧
      ∃ r : Reading, r.Accepted expected (inventoryNames inventory) (text.splitOn '\n') ∧ plan = r.plan) ∧
    ∀ r : Reading, r.Accepted expected (inventoryNames inventory) (text.splitOn '\n') →
      r.Sound expected (inventoryNames inventory) := by
  refine ⟨?_, fun r hr => sound_of_accepted hr⟩
  have hrefuse : ∀ {message : AptPlanError} {P : Prop}, ¬ Bounded text expected inventory →
      ((.error message : Except AptPlanError InstallPlan) = .ok plan ↔ Bounded text expected inventory ∧ P) :=
    fun hnot => iff_of_false (fun hs => by cases hs) fun hs => hnot hs.1
  rw [inspectInstallPlan]
  by_cases htext : ¬ boundedText text = true
  · rw [if_pos htext]
    exact hrefuse fun hb => htext hb.bytes
  rw [if_neg htext]
  dsimp only
  by_cases hlines : maxLines < (text.splitOn '\n').length ∨
      ((text.splitOn '\n').any fun line => maxLineBytes < line.length) = true
  · rw [if_pos hlines]
    refine hrefuse fun hb => hlines.elim (fun hlt => absurd hb.rows (not_le.mpr hlt)) fun hany => ?_
    obtain ⟨line, hline, hlong⟩ := List.any_eq_true.mp hany
    exact absurd (hb.row line hline) (not_le.mpr (of_decide_eq_true hlong))
  rw [if_neg hlines]
  by_cases hversion : ¬ validVersion expected = true
  · rw [if_pos hversion]
    exact hrefuse fun hb => hversion hb.version
  rw [if_neg hversion]
  cases hinstalled : installedNames inventory with
  | error e =>
    refine hrefuse fun hb => ?_
    rw [installedNames_iff.mpr ⟨hb.size, hb.items, rfl⟩] at hinstalled
    cases hinstalled
  | ok installed =>
    obtain ⟨hsize, hitems, rfl⟩ := installedNames_iff.mp hinstalled
    change (if panelbridge ∈ inventoryNames inventory then _ else _) = _ ↔ _
    by_cases hpanel : panelbridge ∈ inventoryNames inventory
    · rw [if_pos hpanel]
      exact hrefuse fun hb => hb.absent hpanel
    · rw [if_neg hpanel]
      rw [not_or] at hlines
      have hb : Bounded text expected inventory := by
        refine ⟨not_not.mp htext, not_lt.mp hlines.1, ?_, not_not.mp hversion, hsize, hitems, hpanel⟩
        intro line hline
        by_contra hlong
        exact hlines.2 (List.any_eq_true.mpr ⟨line, hline, decide_eq_true (not_le.mp hlong)⟩)
      refine inspect_lines.trans ?_
      constructor
      · exact fun h => ⟨hb, h⟩
      · exact fun h => h.2

theorem inspect_install_plan_accepts_sample :
    inspectInstallPlan (sampleText [informationLine]) ['1'] [] = .ok ⟨[⟨panelbridge, ['1'], arm64⟩], 0⟩ := by
  apply (inspect_install_plan_accepts _ _ _ _).1.mpr
  refine ⟨⟨by decide +kernel, by decide +kernel, by decide +kernel, by decide, by decide, by simp,
    by simp [inventoryNames]⟩,
    sampleReading [informationLine], ?_, rfl⟩
  apply accepted_iff.mpr
  refine ⟨by decide +kernel, ⟨by decide, ⟨rfl, rfl⟩, by decide, by decide⟩, ?_, by simp [sampleReading],
    sample_action_lines, sample_actions, sample_agrees _⟩
  exact ⟨by decide, by decide, by simp [sampleReading], by simp [sampleReading], by simp [sampleReading],
    by simp [sampleReading]⟩

/-- A documented line before the summary. -/
def Documented (line : Text) : Prop :=
  line = [] ∨ line ∈ information ∨ (listHeader line).isSome ∨ line ∈ autoremoveNotices ∨
    isSelection line = true ∨ (twoSpaces <+: line ∧ ∀ item ∈ fields line, ListItem item)

/-- The conditions on the actions, the summary and the lists, with documented lines before the
summary, but with nothing about how often one occurs. -/
structure Reading.Described (expected : Text) (installed : Finset Text) (lines : List Text) (r : Reading) :
    Prop where
  lines : lines = r.before ++ r.line :: r.after
  summary : Summarises r.line r.summary
  documented : ∀ line ∈ r.before, Documented line
  blocks : content r.before = r.blocks.flatMap Block.lines
  actionLines : ActionLines r.after r.actions
  actions : Actions expected installed r.actions
  agrees : r.Agrees

/-- A line of information that occurs twice is refused. -/
theorem repeated_information_refused :
    ¬ ∀ (text expected : Text) (inventory : List (Text × Text)) (r : Reading), Bounded text expected inventory →
      r.Described expected (inventoryNames inventory) (text.splitOn '\n') →
        ∃ plan, inspectInstallPlan text expected inventory = .ok plan := by
  intro h
  have hdocumented : ∀ line ∈ [informationLine, informationLine], Documented line := by
    intro line hline
    have hinformation : line = informationLine := by simpa using hline
    exact Or.inr (Or.inl (by rw [hinformation]; decide))
  obtain ⟨plan, hplan⟩ := h (sampleText [informationLine, informationLine]) ['1'] []
    (sampleReading [informationLine, informationLine])
    ⟨by decide +kernel, by decide +kernel, by decide +kernel, by decide, by decide, by simp,
      by simp [inventoryNames]⟩
    ⟨by decide +kernel, ⟨by decide, ⟨rfl, rfl⟩, by decide, by decide⟩, hdocumented, by decide,
      sample_action_lines, sample_actions, sample_agrees _⟩
  have hrefused : (inspectInstallPlan (sampleText [informationLine, informationLine]) ['1'] []).isOk = false := by
    decide +kernel
  rw [hplan] at hrefused
  cases hrefused

end Acceptance

end HccastWired.Packaging
