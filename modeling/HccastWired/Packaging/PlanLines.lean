import HccastWired.Packaging.PlanGrammar

/-!
# Line by line

What one more line does to the blocks before the summary and to the actions after it, and
that the loop of the inspection does the same.
-/

namespace HccastWired.Packaging

attribute [local instance] lawfulBEq_text

section Splits

variable {α : Type}

/-- A condition on every place of a list, and on one more. -/
theorem forall_split_snoc {P : List α → α → Prop} {items : List α} {x : α} :
    (∀ before a after, items ++ [x] = before ++ a :: after → P before a) ↔
      (∀ before a after, items = before ++ a :: after → P before a) ∧ P items x := by
  constructor
  · intro h
    constructor
    · rintro before a after rfl
      exact h before a (after ++ [x]) (by simp)
    · exact h items x [] rfl
  · rintro ⟨hall, hlast⟩ before a after heq
    obtain rfl | ⟨front, last, rfl⟩ := after.eq_nil_or_concat
    · obtain ⟨rfl, hsingle⟩ := List.append_inj' heq rfl
      cases List.cons.inj hsingle with
      | intro ha _ => exact ha ▸ hlast
    · rw [List.concat_eq_append, ← List.cons_append, ← List.append_assoc] at heq
      obtain ⟨rfl, -⟩ := List.append_inj' heq rfl
      exact hall before a front rfl

theorem span_fst (p : α → Bool) (items : List α) : (items.span p).1 = items.takeWhile p := by
  rw [List.span_eq_takeWhile_dropWhile]

end Splits

section Blocks

variable {p : List Text} {line : Text} {bs front : List Block} {b : Block} {kind : ListKind}
  {entries : List Text}

theorem content_blank : content (p ++ [[]]) = content p := by
  rw [content, content, List.filter_append]
  simp

theorem content_information (h : line ∈ information) : content (p ++ [line]) = content p := by
  rw [content, content, List.filter_append]
  simp [h]

theorem content_line (hne : line ≠ []) (hni : line ∉ information) :
    content (p ++ [line]) = content p ++ [line] := by
  rw [content, content, List.filter_append]
  simp [hne, hni]

theorem informed_other (hni : line ∉ information) :
    (p ++ [line]).filter (· ∈ information) = p.filter (· ∈ information) := by
  rw [List.filter_append]
  simp [hni]

/-- The fixed lines of a plan are told apart: what the beginnings of the lines exclude. -/
theorem fixed_lines :
    (∀ line ∈ information, line ≠ [] ∧ line ≠ selectionMark ∧ ¬ selectionStart <+: line ∧
      ¬ line.head?.any Char.isDigit = true) ∧
    (∀ line ∈ autoremoveNotices, line ≠ [] ∧ line ∉ information ∧ ¬ twoSpaces <+: line ∧
      listHeader line = none ∧ ¬ selectionStart <+: line ∧ ¬ line.head?.any Char.isDigit = true) ∧
    ∀ kind ∈ ListKind.all, kind.header ≠ [] ∧ kind.header ∉ information ∧ ¬ twoSpaces <+: kind.header ∧
      listHeader kind.header = some kind ∧ ¬ selectionStart <+: kind.header ∧
      ¬ kind.header.head?.any Char.isDigit = true := by
  decide +kernel

theorem kind_mem_all (kind : ListKind) : kind ∈ ListKind.all := by
  cases kind <;> decide

theorem not_information_nil : ([] : Text) ∉ information :=
  fun h => (fixed_lines.1 [] h).1 rfl

theorem blocks_blank : Blocks (p ++ [[]]) bs ↔ Blocks p bs := by
  constructor
  · intro h
    obtain ⟨hcontent, hinformed, hformed, hkinds, hselections, hnotices⟩ := h
    rw [content_blank] at hcontent
    rw [informed_other not_information_nil] at hinformed
    exact ⟨hcontent, hinformed, hformed, hkinds, hselections, hnotices⟩
  · intro h
    refine ⟨?_, ?_, h.formed, h.kinds, h.selections, h.notices⟩
    · rw [content_blank, h.content]
    · rw [informed_other not_information_nil]
      exact h.informed

theorem informed_snoc (hline : line ∈ information) :
    ((p ++ [line]).filter (· ∈ information)).Nodup ↔ (p.filter (· ∈ information)).Nodup ∧ line ∉ p := by
  have hlast : [line].filter (· ∈ information) = [line] := by simp [hline]
  rw [List.filter_append, hlast, ← List.concat_eq_append, List.nodup_concat, List.mem_filter]
  simp [hline, and_comm]

theorem blocks_information (hline : line ∈ information) :
    Blocks (p ++ [line]) bs ↔ Blocks p bs ∧ line ∉ p := by
  constructor
  · intro h
    obtain ⟨hcontent, hinformed, hformed, hkinds, hselections, hnotices⟩ := h
    rw [content_information hline] at hcontent
    obtain ⟨hinformed, hnew⟩ := (informed_snoc hline).mp hinformed
    exact ⟨⟨hcontent, hinformed, hformed, hkinds, hselections, hnotices⟩, hnew⟩
  · rintro ⟨h, hnew⟩
    refine ⟨?_, (informed_snoc hline).mpr ⟨h.informed, hnew⟩, h.formed, h.kinds, h.selections, h.notices⟩
    rw [content_information hline, h.content]

theorem flatMap_snoc : (bs ++ [b]).flatMap Block.lines = bs.flatMap Block.lines ++ b.lines := by
  rw [List.flatMap_append, List.flatMap_singleton]

theorem kinds_snoc : ((bs ++ [b]).filterMap Block.kind).Nodup ↔
    (bs.filterMap Block.kind).Nodup ∧ ∀ kind, b.kind = some kind → kind ∉ bs.filterMap Block.kind := by
  rw [List.filterMap_append]
  cases hkind : b.kind with
  | none => simp [hkind]
  | some kind =>
    have hlast : [b].filterMap Block.kind = [kind] := by simp [hkind]
    rw [hlast, ← List.concat_eq_append, List.nodup_concat]
    simp [and_comm]

theorem selections_snoc : ((bs ++ [b]).filter Block.isSelection).length ≤ 1 ↔
    (bs.filter Block.isSelection).length ≤ 1 ∧
      (b.isSelection = true → bs.any Block.isSelection = false) := by
  rw [List.filter_append, List.length_append]
  have hnone : bs.any Block.isSelection = false ↔ (bs.filter Block.isSelection).length = 0 := by
    rw [List.length_eq_zero_iff, List.filter_eq_nil_iff, List.any_eq_false]
  cases hb : b.isSelection with
  | false => simp [hb]
  | true =>
    rw [hnone]
    have hlast : ([b].filter Block.isSelection).length = 1 := by simp [hb]
    rw [hlast]
    simp only [true_implies]
    omega

/-- A line that begins a block. -/
theorem blocks_block (hne : line ≠ []) (hni : line ∉ information) (hlines : b.lines = [line]) :
    Blocks (p ++ [line]) (bs ++ [b]) ↔ Blocks p bs ∧ b.Formed ∧
      (∀ kind, b.kind = some kind → kind ∉ bs.filterMap Block.kind) ∧
      (b.isSelection = true → bs.any Block.isSelection = false) ∧
      (b.isNotice = true → ListKind.unused ∈ bs.filterMap Block.kind) := by
  have hcontent : content (p ++ [line]) = (bs ++ [b]).flatMap Block.lines ↔
      content p = bs.flatMap Block.lines := by
    rw [content_line hne hni, flatMap_snoc, hlines, List.append_left_inj]
  constructor
  · intro h
    have hkinds := kinds_snoc.mp h.kinds
    have hselections := selections_snoc.mp h.selections
    have hnotices := forall_split_snoc.mp h.notices
    have hinformed := h.informed
    rw [informed_other hni] at hinformed
    refine ⟨⟨hcontent.mp h.content, hinformed, fun block hblock => ?_, hkinds.1, hselections.1, hnotices.1⟩,
      ?_, hkinds.2, hselections.2, hnotices.2⟩
    · exact h.formed block (List.mem_append_left _ hblock)
    · exact h.formed b (List.mem_append_right _ (List.mem_singleton.mpr rfl))
  · rintro ⟨h, hformed, hkind, hselection, hnotice⟩
    refine ⟨hcontent.mpr h.content, ?_, ?_, kinds_snoc.mpr ⟨h.kinds, hkind⟩,
      selections_snoc.mpr ⟨h.selections, hselection⟩, forall_split_snoc.mpr ⟨h.notices, hnotice⟩⟩
    · rw [informed_other hni]
      exact h.informed
    · intro block hblock
      obtain hblock | hblock := List.mem_append.mp hblock
      · exact h.formed block hblock
      · exact List.mem_singleton.mp hblock ▸ hformed

/-- A line of the last list. -/
theorem blocks_entry (hne : line ≠ []) (hni : line ∉ information) :
    Blocks (p ++ [line]) (front ++ [.list kind (entries ++ [line])]) ↔
      Blocks p (front ++ [.list kind entries]) ∧
        (Block.list kind (entries ++ [line])).Formed := by
  have hcontent : content (p ++ [line]) = (front ++ [Block.list kind (entries ++ [line])]).flatMap Block.lines ↔
      content p = (front ++ [Block.list kind entries]).flatMap Block.lines := by
    rw [content_line hne hni, flatMap_snoc, flatMap_snoc, Block.lines, Block.lines, ← List.cons_append,
      ← List.append_assoc, List.append_left_inj]
  have hkinds : (front ++ [Block.list kind (entries ++ [line])]).filterMap Block.kind =
      (front ++ [Block.list kind entries]).filterMap Block.kind := by
    rw [List.filterMap_append, List.filterMap_append]
    rfl
  have hselections : (front ++ [Block.list kind (entries ++ [line])]).filter Block.isSelection =
      (front ++ [Block.list kind entries]).filter Block.isSelection := by
    rw [List.filter_append, List.filter_append]
    rfl
  have hnotices : ∀ other, (∀ before block after,
      front ++ [Block.list kind other] = before ++ block :: after → block.isNotice = true →
        ListKind.unused ∈ before.filterMap Block.kind) ↔ ∀ before block after,
      front = before ++ block :: after → block.isNotice = true →
        ListKind.unused ∈ before.filterMap Block.kind := by
    intro other
    rw [forall_split_snoc (P := fun before block => block.isNotice = true →
      ListKind.unused ∈ before.filterMap Block.kind)]
    simp [Block.isNotice]
  constructor
  · intro h
    have hinformed := h.informed
    rw [informed_other hni] at hinformed
    have hlast := h.formed _ (List.mem_append_right _ (List.mem_singleton.mpr rfl))
    refine ⟨⟨hcontent.mp h.content, hinformed, ?_, hkinds ▸ h.kinds, hselections ▸ h.selections,
      (hnotices _).mpr ((hnotices _).mp h.notices)⟩, hlast⟩
    intro block hblock
    obtain hblock | hblock := List.mem_append.mp hblock
    · exact h.formed block (List.mem_append_left _ hblock)
    · obtain rfl := List.mem_singleton.mp hblock
      obtain ⟨hentries, hnodup⟩ := hlast
      refine ⟨fun entry hentry => hentries entry (List.mem_append_left _ hentry), ?_⟩
      rw [Block.names, List.flatMap_append, List.map_append, List.nodup_append] at hnodup
      exact hnodup.1
  · rintro ⟨h, hlast⟩
    refine ⟨hcontent.mpr h.content, ?_, ?_, hkinds.symm ▸ h.kinds, hselections.symm ▸ h.selections,
      (hnotices _).mpr ((hnotices _).mp h.notices)⟩
    · rw [informed_other hni]
      exact h.informed
    · intro block hblock
      obtain hblock | hblock := List.mem_append.mp hblock
      · exact h.formed block (List.mem_append_left _ hblock)
      · exact List.mem_singleton.mp hblock ▸ hlast

/-- A line of a block begins it, or belongs to the last list. -/
theorem blocks_last (hne : line ≠ []) (hni : line ∉ information) (h : Blocks (p ++ [line]) bs) :
    (∃ front b, bs = front ++ [b] ∧ b.lines = [line]) ∨
      ∃ front kind entries, bs = front ++ [.list kind (entries ++ [line])] := by
  have hcontent := h.content
  rw [content_line hne hni] at hcontent
  obtain rfl | ⟨front, b, rfl⟩ := bs.eq_nil_or_concat
  · simp at hcontent
  · rw [List.concat_eq_append] at hcontent ⊢
    rw [flatMap_snoc] at hcontent
    cases b with
    | notice other =>
      obtain ⟨-, heq⟩ := List.append_inj' hcontent rfl
      exact Or.inl ⟨front, .notice other, rfl, heq.symm⟩
    | selection other =>
      obtain ⟨-, heq⟩ := List.append_inj' hcontent rfl
      exact Or.inl ⟨front, .selection other, rfl, heq.symm⟩
    | list kind entries =>
      obtain rfl | ⟨rest, last, rfl⟩ := entries.eq_nil_or_concat
      · obtain ⟨-, heq⟩ := List.append_inj' hcontent rfl
        exact Or.inl ⟨front, .list kind [], rfl, heq.symm⟩
      · rw [List.concat_eq_append, Block.lines, ← List.cons_append, ← List.append_assoc] at hcontent
        obtain ⟨-, heq⟩ := List.append_inj' hcontent rfl
        cases heq
        exact Or.inr ⟨front, kind, rest, by rw [List.concat_eq_append]⟩

end Blocks

section Patterns

theorem matchPackage_name {value name : Text} {arch : Option Text}
    (h : matchPackage value = some (name, arch)) : name = baseName value := by
  have hfst := span_fst (fun c : Char => decide (c ≠ ':')) value
  rw [matchPackage] at h
  cases hspan : value.span (fun c : Char => decide (c ≠ ':')) with
  | mk first rest =>
    rw [hspan] at h hfst
    cases rest with
    | nil =>
      dsimp only at h
      split at h
      · cases h
        exact hfst
      · cases h
    | cons c rest =>
      dsimp only at h
      split at h
      · cases h
        exact hfst
      · cases h

theorem package_name {value name : Text} {arch : Option Text} (h : package value = .ok (name, arch)) :
    name = baseName value := by
  rw [package] at h
  split at h
  · split at h
    · next heq =>
      cases h
      exact matchPackage_name heq
    · cases h
  · cases h

/-- A line that can begin a block: it is not indented, and not a line of information. -/
def Plain (line : Text) : Prop :=
  line ≠ [] ∧ line ∉ information ∧ ¬ twoSpaces <+: line

theorem header_plain (kind : ListKind) : Plain kind.header ∧ listHeader kind.header = some kind := by
  obtain ⟨hne, hni, hspaces, hheader, -⟩ := fixed_lines.2.2 kind (kind_mem_all kind)
  exact ⟨⟨hne, hni, hspaces⟩, hheader⟩

theorem notice_plain : ∀ line ∈ autoremoveNotices, Plain line ∧ listHeader line = none := by
  intro line hline
  obtain ⟨hne, hni, hspaces, hheader, -⟩ := fixed_lines.2.1 line hline
  exact ⟨⟨hne, hni, hspaces⟩, hheader⟩

theorem listHeader_iff {line : Text} {kind : ListKind} : listHeader line = some kind ↔ line = kind.header := by
  constructor
  · intro h
    rw [listHeader] at h
    simpa using List.find?_some h
  · rintro rfl
    exact (header_plain kind).2

theorem selection_plain {line : Text} (h : isSelection line = true) :
    Plain line ∧ listHeader line = none ∧ line ∉ autoremoveNotices := by
  rw [isSelection, Bool.and_eq_true, decide_eq_true_iff] at h
  have hstart := h.1
  have hout : ∀ other, ¬ selectionStart <+: other → line ≠ other := by
    rintro other hother rfl
    exact hother hstart
  refine ⟨⟨hout [] (by decide), fun hmem => (fixed_lines.1 line hmem).2.2.1 hstart, ?_⟩, ?_,
    fun hmem => (fixed_lines.2.1 line hmem).2.2.2.2.1 hstart⟩
  · intro hspaces
    obtain ⟨rest, rfl⟩ := hspaces
    obtain ⟨more, heq⟩ := hstart
    have hhead : selectionStart.head? = some 'N' := by decide
    rw [twoSpaces] at heq
    cases hlist : selectionStart with
    | nil =>
      rw [hlist] at hhead
      cases hhead
    | cons c others =>
      rw [hlist] at hhead heq
      cases hhead
      cases heq
  · cases hheader : listHeader line with
    | none => rfl
    | some kind =>
      have heq := listHeader_iff.mp hheader
      have hkind := (fixed_lines.2.2 kind (kind_mem_all kind)).2.2.2.2.1
      exact absurd heq (hout _ hkind)

/-- A summary begins with a digit. -/
theorem summary_head {line : Text} {summary : Summary} (h : matchSummary line = some summary) :
    line.head?.any Char.isDigit = true := by
  obtain ⟨⟨upgraded, rest⟩, hcount, -⟩ := Option.bind_eq_some_iff.mp h
  rw [takeCount] at hcount
  cases line with
  | nil =>
    rw [List.span_eq_takeWhile_dropWhile] at hcount
    simp at hcount
  | cons c line =>
    by_cases hdigit : c.isDigit = true
    · exact hdigit
    · rw [List.span_eq_takeWhile_dropWhile, List.takeWhile_cons_of_neg hdigit] at hcount
      simp at hcount

theorem summary_plain {line : Text} {summary : Summary} (h : matchSummary line = some summary) :
    Plain line ∧ listHeader line = none ∧ line ∉ autoremoveNotices ∧ isSelection line = false := by
  have hhead := summary_head h
  refine ⟨⟨?_, fun hmem => (fixed_lines.1 line hmem).2.2.2 hhead, ?_⟩, ?_,
    fun hmem => (fixed_lines.2.1 line hmem).2.2.2.2.2 hhead, ?_⟩
  · rintro rfl
    cases hhead
  · rintro ⟨rest, rfl⟩
    cases hhead
  · cases hheader : listHeader line with
    | none => rfl
    | some kind =>
      rw [listHeader_iff.mp hheader] at hhead
      have hkind := (fixed_lines.2.2 kind (kind_mem_all kind)).2.2.2.2.2
      exact absurd hhead hkind
  · by_contra hselection
    rw [Bool.not_eq_false, isSelection, Bool.and_eq_true, decide_eq_true_iff] at hselection
    obtain ⟨rest, rfl⟩ := hselection.1
    cases hhead

end Patterns

section Before

variable {p : List Text} {line : Text} {bs front : List Block} {b : Block} {kind : ListKind}
  {entries : List Text} {number : Nat} {s : State}

/-- All the lists but an open one have packages. -/
def Loose (blocks : List Block) : Prop :=
  ∀ block ∈ blocks.dropLast, block.Filled

/-- The list that the next line may belong to. -/
def openList (blocks : List Block) : Option ListKind :=
  blocks.getLast?.bind Block.kind

def seen (p : List Text) (blocks : List Block) : Finset Text :=
  (p.filter (· ∈ information)).toFinset ∪
    if blocks.any Block.isSelection then {selectionMark} else ∅

/-- The variables of the loop after lines of blocks. -/
def stateOf (p : List Text) (blocks : List Block) : State where
  summary := none
  lists := listed blocks
  currentList := openList blocks
  installs := []
  origins := []
  configured := ∅
  seenInformation := seen p blocks

theorem listed_isSome : (listed bs kind).isSome ↔ kind ∈ bs.filterMap Block.kind := by
  rw [listed, List.isSome_findSome?, List.any_eq_true, List.mem_filterMap]
  constructor
  · rintro ⟨block, hblock, hsome⟩
    cases block with
    | list other entries =>
      dsimp only at hsome
      split at hsome
      · next heq => exact ⟨_, hblock, by rw [Block.kind, heq]⟩
      · cases hsome
    | notice line => cases hsome
    | selection line => cases hsome
  · rintro ⟨block, hblock, hkind⟩
    cases block with
    | list other entries =>
      cases hkind
      exact ⟨_, hblock, by simp⟩
    | notice line => cases hkind
    | selection line => cases hkind

theorem listed_list (hnew : kind ∉ bs.filterMap Block.kind) :
    listed (bs ++ [.list kind entries]) =
      Function.update (listed bs) kind (some (Block.names entries).toFinset) := by
  ext1 other
  rw [listed, List.findSome?_append, ← listed, Function.update_apply]
  by_cases heq : other = kind
  · subst heq
    have hnone : listed bs other = none := by
      rw [← Option.not_isSome_iff_eq_none, listed_isSome]
      exact hnew
    simp [hnone]
  · rw [if_neg heq]
    simp [Ne.symm heq]

theorem listed_other (hkind : b.kind = none) : listed (bs ++ [b]) = listed bs := by
  ext1 other
  rw [listed, List.findSome?_append, ← listed]
  cases b with
  | list kind entries => cases hkind
  | notice line => simp
  | selection line => simp

theorem openList_snoc : openList (bs ++ [b]) = b.kind := by
  rw [openList, List.getLast?_append]
  simp

theorem seen_other (hni : line ∉ information) (hselection : b.isSelection = false) :
    seen (p ++ [line]) (bs ++ [b]) = seen p bs := by
  rw [seen, seen, informed_other hni, List.any_append]
  simp [hselection]

theorem listEntries_cons {names : Finset Text} {item : Text} {items : List Text} {arch : Option Text}
    (h : package item = .ok (baseName item, arch)) :
    listEntries number names (item :: items) =
      (if (arch ≠ none ∧ arch ≠ some arm64 ∧ arch ≠ some allArchitectures) ∨ baseName item ∈ names then
        .error (atLine "Invalid or duplicate list entry" number)
      else pure (insert (baseName item) names)) >>= fun names => listEntries number names items := by
  rw [listEntries, List.foldlM_cons, h]
  rfl

theorem listEntries_ok {names names' : Finset Text} {items : List Text} :
    listEntries number names items = .ok names' ↔ (∀ item ∈ items, ListItem item) ∧
      (items.map baseName).Nodup ∧ (∀ item ∈ items, baseName item ∉ names) ∧
      names' = names ∪ (items.map baseName).toFinset := by
  induction items generalizing names with
  | nil =>
    simp [listEntries, pure, Except.pure, eq_comm]
  | cons item items ih =>
    cases hpackage : package item with
    | error e =>
      rw [listEntries, List.foldlM_cons, hpackage]
      constructor
      · intro h
        cases h
      · rintro ⟨hitems, -⟩
        obtain ⟨arch, harch, -⟩ := hitems item List.mem_cons_self
        rw [hpackage] at harch
        cases harch
    | ok result =>
      obtain ⟨name, arch⟩ := result
      have hname := package_name hpackage
      subst hname
      have hitem : ListItem item ↔ (arch = none ∨ arch = some arm64 ∨ arch = some allArchitectures) := by
        constructor
        · rintro ⟨other, hother, h⟩
          rw [hpackage] at hother
          cases hother
          exact h
        · intro h
          exact ⟨arch, hpackage, h⟩
      by_cases hbad : (arch ≠ none ∧ arch ≠ some arm64 ∧ arch ≠ some allArchitectures) ∨ baseName item ∈ names
      · rw [listEntries_cons hpackage, if_pos hbad]
        constructor
        · intro h
          cases h
        · rintro ⟨hitems, -, hnew, -⟩
          have harch := hitem.mp (hitems item List.mem_cons_self)
          have hnot := hnew item List.mem_cons_self
          tauto
      · rw [listEntries_cons hpackage, if_neg hbad]
        have hgood : ListItem item ∧ baseName item ∉ names := by
          rw [hitem]
          tauto
        refine (@ih (insert (baseName item) names)).trans ?_
        rw [List.map_cons, List.nodup_cons, List.forall_mem_cons, List.forall_mem_cons, List.toFinset_cons,
          Finset.insert_union, ← Finset.union_insert]
        have hdisjoint : (∀ other ∈ items, baseName other ∉ insert (baseName item) names) ↔
            baseName item ∉ items.map baseName ∧ ∀ other ∈ items, baseName other ∉ names := by
          simp only [Finset.mem_insert, not_or, List.mem_map, not_exists, not_and]
          constructor
          · intro h
            exact ⟨fun other hother => (h other hother).1, fun other hother => (h other hother).2⟩
          · intro h other hother
            exact ⟨h.1 other hother, h.2 other hother⟩
        rw [hdisjoint]
        tauto

/-- A line of information is read once. -/
theorem before_information (hline : line ∈ information) :
    beforeSummary (stateOf p bs) number line =
      if line ∈ p then .error (atLine "Duplicate informational line" number)
      else .ok (stateOf (p ++ [line]) bs) := by
  have hselection : line ≠ selectionMark := (fixed_lines.1 line hline).2.1
  have hmem : line ∈ (stateOf p bs).seenInformation ↔ line ∈ p := by
    rw [stateOf, seen, Finset.mem_union, List.mem_toFinset, List.mem_filter]
    have hmark : line ∉ (if bs.any Block.isSelection then {selectionMark} else ∅ : Finset Text) := by
      split
      · rw [Finset.mem_singleton]
        exact hselection
      · exact Finset.notMem_empty line
    simp only [hmark, hline, decide_true, and_true, or_false]
  rw [beforeSummary, if_pos hline]
  by_cases hp : line ∈ p
  · rw [if_pos (hmem.mpr hp), if_pos hp]
  · rw [if_neg (fun h => hp (hmem.mp h)), if_neg hp]
    congr 1
    rw [stateOf, stateOf]
    congr 1
    have hlast : [line].filter (· ∈ information) = [line] := by simp [hline]
    rw [seen, seen, List.filter_append, hlast]
    ext other
    simp only [Finset.mem_insert, Finset.mem_union, List.mem_toFinset, List.mem_append, List.mem_singleton]
    tauto

/-- An indented line after a list adds its packages to it. -/
theorem before_entry (h : Blocks p (front ++ [.list kind entries])) (hni : line ∉ information)
    (hspaces : twoSpaces <+: line) :
    beforeSummary (stateOf p (front ++ [.list kind entries])) number line = .ok s ↔
      (Block.list kind (entries ++ [line])).Formed ∧
        s = stateOf (p ++ [line]) (front ++ [.list kind (entries ++ [line])]) := by
  have hnew := (kinds_snoc.mp h.kinds).2 kind rfl
  have hformed := h.formed _ (List.mem_append_right _ (List.mem_singleton.mpr rfl))
  have hlist : listed (front ++ [.list kind entries]) =
      Function.update (listed front) kind (some (Block.names entries).toFinset) := listed_list hnew
  rw [beforeSummary, if_neg hni]
  have hopen : (stateOf p (front ++ [.list kind entries])).currentList = some kind := openList_snoc
  have hnames : ((stateOf p (front ++ [.list kind entries])).lists kind).getD ∅ =
      (Block.names entries).toFinset := by
    change ((listed (front ++ [.list kind entries])) kind).getD ∅ = _
    rw [hlist, Function.update_self, Option.getD_some]
  simp only [hopen, hnames, if_pos hspaces]
  cases hentries : listEntries number (Block.names entries).toFinset (fields line) with
  | error e =>
    constructor
    · intro h
      cases h
    · rintro ⟨⟨hitems, hnodup⟩, -⟩
      rw [Block.names, List.flatMap_append, List.map_append, List.nodup_append] at hnodup
      have hok : listEntries number (Block.names entries).toFinset (fields line) =
          .ok ((Block.names entries).toFinset ∪ ((fields line).map baseName).toFinset) := by
        refine listEntries_ok.mpr ⟨?_, ?_, ?_, rfl⟩
        · exact (hitems line (List.mem_append_right _ (List.mem_singleton.mpr rfl))).2
        · simpa using hnodup.2.1
        · intro item hitem hmem
          have hne := hnodup.2.2 (baseName item) (List.mem_toFinset.mp hmem) (baseName item)
          simp only [List.flatMap_singleton] at hne
          exact hne (List.mem_map_of_mem hitem) rfl
      rw [hentries] at hok
      cases hok
  | ok names' =>
    obtain ⟨hitems, hnodup, hfresh, rfl⟩ := listEntries_ok.mp hentries
    have hall : (Block.list kind (entries ++ [line])).Formed := by
      refine ⟨?_, ?_⟩
      · intro entry hentry
        obtain hentry | hentry := List.mem_append.mp hentry
        · exact hformed.1 entry hentry
        · exact List.mem_singleton.mp hentry ▸ ⟨hspaces, hitems⟩
      · rw [Block.names, List.flatMap_append, List.map_append, List.nodup_append, List.flatMap_singleton]
        refine ⟨hformed.2, hnodup, ?_⟩
        rintro name hname other hother rfl
        obtain ⟨item, hitem, rfl⟩ := List.mem_map.mp hother
        exact hfresh item hitem (List.mem_toFinset.mpr hname)
    have hstate : { stateOf p (front ++ [.list kind entries]) with
        lists := Function.update (stateOf p (front ++ [.list kind entries])).lists kind
          (some ((Block.names entries).toFinset ∪ ((fields line).map baseName).toFinset))
        currentList := some kind } =
        stateOf (p ++ [line]) (front ++ [.list kind (entries ++ [line])]) := by
      have hunion : (Block.names entries).toFinset ∪ ((fields line).map baseName).toFinset =
          (Block.names (entries ++ [line])).toFinset := by
        rw [Block.names, Block.names, List.flatMap_append, List.map_append, List.toFinset_append,
          List.flatMap_singleton]
      have hseen : seen (p ++ [line]) (front ++ [.list kind (entries ++ [line])]) =
          seen p (front ++ [.list kind entries]) := by
        rw [seen_other hni rfl, seen, seen, List.any_append]
        simp [Block.isSelection]
      have hlast : openList (front ++ [.list kind (entries ++ [line])]) = some kind := openList_snoc
      have hupdated : listed (front ++ [.list kind (entries ++ [line])]) = _ := listed_list hnew
      rw [stateOf, stateOf, hseen, hupdated, hlist, hunion, Function.update_idem, hlast]
    constructor
    · intro hs
      exact ⟨hall, (Except.ok.inj hs).symm.trans hstate⟩
    · rintro ⟨-, rfl⟩
      exact congrArg Except.ok hstate

/-- A block of one line. -/
structure Begins (bs : List Block) (b : Block) (line : Text) : Prop where
  lines : b.lines = [line]
  formed : b.Formed
  kind : ∀ kind, b.kind = some kind → kind ∉ bs.filterMap Block.kind
  selection : b.isSelection = true → bs.any Block.isSelection = false
  notice : b.isNotice = true → ListKind.unused ∈ bs.filterMap Block.kind

theorem Begins.plain (h : Begins bs b line) : Plain line := by
  have hlines := h.lines
  have hformed := h.formed
  cases b with
  | list kind entries =>
    rw [Block.lines, List.cons.injEq] at hlines
    exact hlines.1 ▸ (header_plain kind).1
  | notice other =>
    cases hlines
    exact (notice_plain _ hformed).1
  | selection other =>
    cases hlines
    exact (selection_plain hformed).1

/-- The summary is read: nothing is upgraded or removed, and what is new is bounded. -/
def Summarises (line : Text) (summary : Summary) : Prop :=
  matchSummary line = some summary ∧ (summary.upgraded = 0 ∧ summary.removed = 0) ∧
    1 ≤ summary.new ∧ summary.new ≤ maxAdditions

/-- Other lines begin a block, or are the summary. -/
theorem plainLine_iff (hni : line ∉ information) :
    plainLine { stateOf p bs with currentList := none } number line = .ok s ↔
      (∃ b, Begins bs b line ∧ s = stateOf (p ++ [line]) (bs ++ [b])) ∨
        ∃ summary, Summarises line summary ∧
          s = { stateOf p bs with currentList := none, summary := some summary } := by
  have hmark : selectionMark ∈ (stateOf p bs).seenInformation ↔ bs.any Block.isSelection = true := by
    have hnot : selectionMark ∉ information := fun h => (fixed_lines.1 selectionMark h).2.1 rfl
    rw [stateOf, seen, Finset.mem_union, List.mem_toFinset, List.mem_filter]
    simp only [hnot, decide_false, Bool.false_eq_true, and_false, false_or]
    split
    · next hany => simp [hany]
    · next hany => simp [hany]
  rw [plainLine]
  cases hheader : listHeader line with
  | some kind =>
    obtain rfl := listHeader_iff.mp hheader
    have hother : ∀ summary, ¬ Summarises kind.header summary := by
      intro summary hsummary
      rw [(summary_plain hsummary.1).2.1] at hheader
      cases hheader
    have hblock : ∀ b, Begins bs b kind.header → b = .list kind [] := by
      intro b hb
      have hlines := hb.lines
      have hformed := hb.formed
      cases b with
      | list other entries =>
        rw [Block.lines, List.cons.injEq] at hlines
        have hsame := listHeader_iff.mpr hlines.1.symm
        rw [hheader] at hsame
        cases hsame
        rw [hlines.2]
      | notice other =>
        cases hlines
        rw [(notice_plain _ hformed).2] at hheader
        cases hheader
      | selection other =>
        cases hlines
        rw [(selection_plain hformed).2.1] at hheader
        cases hheader
    have hstate : kind ∉ bs.filterMap Block.kind →
        { stateOf p bs with currentList := some kind, lists := Function.update (listed bs) kind (some ∅) } =
          stateOf (p ++ [kind.header]) (bs ++ [.list kind []]) := by
      intro hnew
      have hlast : openList (bs ++ [.list kind []]) = some kind := openList_snoc
      have hupdated : listed (bs ++ [.list kind []]) = _ := listed_list hnew
      have hseen : seen (p ++ [kind.header]) (bs ++ [.list kind []]) = seen p bs := seen_other hni rfl
      rw [stateOf, stateOf, hlast, hupdated, hseen]
      rfl
    by_cases hknown : kind ∈ bs.filterMap Block.kind
    · have herror : (if ((listed bs) kind).isSome then
          (.error (atLine "Duplicate package list" number) : Except AptPlanError State)
          else .ok { stateOf p bs with
            currentList := some kind, lists := Function.update (listed bs) kind (some ∅) }) =
            .error (atLine "Duplicate package list" number) := if_pos (listed_isSome.mpr hknown)
      refine (iff_of_eq (congrArg (· = _) herror)).trans ?_
      constructor
      · intro h
        cases h
      · rintro (⟨b, hb, -⟩ | ⟨summary, hsummary, -⟩)
        · rw [hblock b hb] at hb
          exact absurd hknown (hb.kind kind rfl)
        · exact absurd hsummary (hother summary)
    · have hok : (if ((listed bs) kind).isSome then
          (.error (atLine "Duplicate package list" number) : Except AptPlanError State)
          else .ok { stateOf p bs with
            currentList := some kind, lists := Function.update (listed bs) kind (some ∅) }) =
            .ok (stateOf (p ++ [kind.header]) (bs ++ [.list kind []])) :=
        (if_neg fun h => hknown (listed_isSome.mp h)).trans (congrArg Except.ok (hstate hknown))
      refine (iff_of_eq (congrArg (· = _) hok)).trans ?_
      constructor
      · intro h
        refine Or.inl ⟨.list kind [], ⟨rfl, ?_, ?_, fun h => (by cases h), fun h => (by cases h)⟩,
          (Except.ok.inj h).symm⟩
        · exact ⟨fun entry hentry => absurd hentry List.not_mem_nil, List.nodup_nil⟩
        · intro other hother
          cases hother
          exact hknown
      · rintro (⟨b, hb, rfl⟩ | ⟨summary, hsummary, -⟩)
        · rw [hblock b hb]
        · exact absurd hsummary (hother summary)
  | none =>
    have hlist : ∀ kind entries, ¬ Begins bs (.list kind entries) line := by
      intro kind entries hb
      have hlines := hb.lines
      rw [Block.lines, List.cons.injEq] at hlines
      rw [← hlines.1, (header_plain kind).2] at hheader
      cases hheader
    have hclosed : ∀ b, b.kind = none → b.isSelection = false →
        { stateOf p bs with currentList := none } = stateOf (p ++ [line]) (bs ++ [b]) := by
      intro b hkind hselection
      have hlast : openList (bs ++ [b]) = none := openList_snoc.trans hkind
      have hseen : seen (p ++ [line]) (bs ++ [b]) = seen p bs := seen_other hni hselection
      rw [stateOf, stateOf, hlast, listed_other hkind, hseen]
    dsimp only
    by_cases hnotice : line ∈ autoremoveNotices ∧ ((stateOf p bs).lists .unused).isSome
    · have hb : Begins bs (.notice line) line :=
        ⟨rfl, hnotice.1, fun kind h => (by cases h), fun h => (by cases h), fun _ => listed_isSome.mp hnotice.2⟩
      have hsummary : ∀ summary, ¬ Summarises line summary := fun summary h =>
        (summary_plain h.1).2.2.1 hnotice.1
      rw [if_pos hnotice, hclosed (.notice line) rfl rfl]
      constructor
      · intro h
        exact Or.inl ⟨.notice line, hb, (Except.ok.inj h).symm⟩
      · rintro (⟨b, hother, rfl⟩ | ⟨summary, h, -⟩)
        · cases b with
          | list kind entries => exact absurd hother (hlist kind entries)
          | notice other =>
            cases hother.lines
            rfl
          | selection other =>
            cases hother.lines
            exact absurd hnotice.1 (selection_plain hother.formed).2.2
        · exact absurd h (hsummary summary)
    · rw [if_neg hnotice]
      have hnever : ∀ other, ¬ Begins bs (.notice other) line := by
        intro other hother
        have hformed := hother.formed
        have hunused := hother.notice rfl
        cases hother.lines
        exact hnotice ⟨hformed, listed_isSome.mpr hunused⟩
      by_cases hselection : isSelection line = true
      · rw [if_pos hselection]
        have hsummary : ∀ summary, ¬ Summarises line summary := by
          intro summary h
          rw [(summary_plain h.1).2.2.2] at hselection
          cases hselection
        by_cases hseen : selectionMark ∈ (stateOf p bs).seenInformation
        · rw [if_pos hseen]
          constructor
          · intro h
            cases h
          · rintro (⟨b, hother, -⟩ | ⟨summary, h, -⟩)
            · cases b with
              | list kind entries => exact absurd hother (hlist kind entries)
              | notice other => exact absurd hother (hnever other)
              | selection other =>
                have hnone := hother.selection rfl
                rw [hmark.mp hseen] at hnone
                cases hnone
            · exact absurd h (hsummary summary)
        · rw [if_neg hseen]
          have hany : bs.any Block.isSelection = false := by
            by_contra h
            exact hseen (hmark.mpr (Bool.eq_true_of_not_eq_false h))
          have hb : Begins bs (.selection line) line :=
            ⟨rfl, hselection, fun kind h => (by cases h), fun _ => hany, fun h => (by cases h)⟩
          have hstate : { stateOf p bs with
              currentList := none
              seenInformation := insert selectionMark (stateOf p bs).seenInformation } =
                stateOf (p ++ [line]) (bs ++ [.selection line]) := by
            have hlast : openList (bs ++ [.selection line]) = none := openList_snoc
            have hseen : seen (p ++ [line]) (bs ++ [.selection line]) = insert selectionMark (seen p bs) := by
              rw [seen, seen, informed_other hni, List.any_append, hany]
              ext other
              simp [Block.isSelection]
            have hlisted : listed (bs ++ [.selection line]) = listed bs := listed_other rfl
            rw [stateOf, stateOf, hlast, hlisted, hseen]
          rw [hstate]
          constructor
          · intro h
            exact Or.inl ⟨.selection line, hb, (Except.ok.inj h).symm⟩
          · rintro (⟨b, hother, rfl⟩ | ⟨summary, h, -⟩)
            · cases b with
              | list kind entries => exact absurd hother (hlist kind entries)
              | notice other => exact absurd hother (hnever other)
              | selection other =>
                cases hother.lines
                rfl
            · exact absurd h (hsummary summary)
      · rw [if_neg hselection]
        have hblock : ∀ b, ¬ Begins bs b line := by
          intro b hb
          cases b with
          | list kind entries => exact hlist kind entries hb
          | notice other => exact hnever other hb
          | selection other =>
            have hformed := hb.formed
            cases hb.lines
            exact hselection hformed
        cases hmatch : matchSummary line with
        | none =>
          constructor
          · intro h
            cases h
          · rintro (⟨b, hb, -⟩ | ⟨summary, h, -⟩)
            · exact absurd hb (hblock b)
            · rw [Summarises, hmatch] at h
              cases h.1
        | some summary =>
          have hsame : ∀ other, Summarises line other ↔ other = summary ∧
              (summary.upgraded = 0 ∧ summary.removed = 0) ∧ 1 ≤ summary.new ∧ summary.new ≤ maxAdditions := by
            intro other
            rw [Summarises, hmatch]
            constructor
            · rintro ⟨heq, h⟩
              cases heq
              exact ⟨rfl, h⟩
            · rintro ⟨rfl, h⟩
              exact ⟨rfl, h⟩
          simp only [hsame]
          by_cases hchanged : summary.upgraded ≠ 0 ∨ summary.removed ≠ 0
          · rw [if_pos hchanged]
            constructor
            · intro h
              cases h
            · rintro (⟨b, hb, -⟩ | ⟨other, ⟨-, ⟨hup, hrem⟩, -⟩, -⟩)
              · exact absurd hb (hblock b)
              · exact absurd hchanged (by simp [hup, hrem])
          · rw [if_neg hchanged]
            rw [not_or, not_not, not_not] at hchanged
            by_cases hbound : 1 ≤ summary.new ∧ summary.new ≤ maxAdditions
            · rw [if_pos hbound]
              constructor
              · intro h
                exact Or.inr ⟨summary, ⟨rfl, hchanged, hbound⟩, (Except.ok.inj h).symm⟩
              · rintro (⟨b, hb, -⟩ | ⟨other, ⟨rfl, -⟩, rfl⟩)
                · exact absurd hb (hblock b)
                · rfl
            · rw [if_neg hbound]
              constructor
              · intro h
                cases h
              · rintro (⟨b, hb, -⟩ | ⟨other, ⟨-, -, h⟩, -⟩)
                · exact absurd hb (hblock b)
                · exact absurd h hbound

theorem openList_some (h : openList bs = some kind) : ∃ front entries, bs = front ++ [.list kind entries] := by
  obtain rfl | ⟨front, b, rfl⟩ := bs.eq_nil_or_concat
  · cases h
  · rw [List.concat_eq_append] at h ⊢
    rw [openList_snoc] at h
    cases b with
    | list other entries =>
      cases h
      exact ⟨front, entries, rfl⟩
    | notice other => cases h
    | selection other => cases h

theorem loose_snoc : Loose (front ++ [b]) ↔ ∀ block ∈ front, block.Filled := by
  rw [Loose, List.dropLast_concat]

/-- The open list has packages exactly when all the lists have. -/
theorem filled_iff (h : Blocks p bs) (hloose : Loose bs) :
    (∀ block ∈ bs, block.Filled) ↔ ∀ kind, openList bs = some kind → (listed bs kind).getD ∅ ≠ ∅ := by
  obtain rfl | ⟨front, b, rfl⟩ := bs.eq_nil_or_concat
  · exact ⟨fun _ kind hkind => (by cases hkind), fun _ block hblock => absurd hblock List.not_mem_nil⟩
  · rw [List.concat_eq_append] at *
    have hfront := loose_snoc.mp hloose
    have hall : (∀ block ∈ front ++ [b], block.Filled) ↔ b.Filled := by
      constructor
      · exact fun hall => hall b (List.mem_append_right _ (List.mem_singleton.mpr rfl))
      · intro hlast block hblock
        obtain hblock | hblock := List.mem_append.mp hblock
        · exact hfront block hblock
        · exact List.mem_singleton.mp hblock ▸ hlast
    rw [hall, openList_snoc]
    cases b with
    | list kind entries =>
      have hnew := (kinds_snoc.mp h.kinds).2 kind rfl
      rw [listed_list hnew]
      constructor
      · intro hfilled other hother
        cases hother
        rw [Function.update_self, Option.getD_some]
        intro hempty
        exact hfilled (List.toFinset_eq_empty_iff _ |>.mp hempty)
      · intro hopen
        have hne := hopen kind rfl
        rw [Function.update_self, Option.getD_some] at hne
        intro hempty
        exact hne (List.toFinset_eq_empty_iff _ |>.mpr hempty)
    | notice other => exact ⟨fun _ kind hkind => (by cases hkind), fun _ => trivial⟩
    | selection other => exact ⟨fun _ kind hkind => (by cases hkind), fun _ => trivial⟩

/-- A line that is not indented ends a list, which may not be empty. -/
theorem before_plain (h : Blocks p bs) (hloose : Loose bs) (hni : line ∉ information)
    (hspaces : ¬ twoSpaces <+: line) :
    beforeSummary (stateOf p bs) number line = .ok s ↔ (∀ block ∈ bs, block.Filled) ∧
      plainLine { stateOf p bs with currentList := none } number line = .ok s := by
  rw [filled_iff h hloose, beforeSummary, if_neg hni]
  cases hopen : openList bs with
  | none =>
    have hcurrent : (stateOf p bs).currentList = none := hopen
    have hstate : { stateOf p bs with currentList := none } = stateOf p bs := by
      rw [stateOf, hopen]
    rw [hcurrent, hstate]
    simp
  | some kind =>
    have hcurrent : (stateOf p bs).currentList = some kind := hopen
    rw [hcurrent]
    dsimp only
    rw [if_neg hspaces]
    by_cases hempty : ((stateOf p bs).lists kind).getD ∅ = ∅
    · rw [if_pos hempty]
      constructor
      · intro hs
        cases hs
      · rintro ⟨hne, -⟩
        exact absurd hempty (hne kind rfl)
    · rw [if_neg hempty]
      constructor
      · intro hs
        refine ⟨fun other hother => ?_, hs⟩
        cases hother
        exact hempty
      · exact fun hs => hs.2

/-- An indented line belongs to a list. -/
theorem before_indented (hni : line ∉ information) (hspaces : twoSpaces <+: line) (hopen : openList bs = none) :
    beforeSummary (stateOf p bs) number line ≠ .ok s := by
  intro hs
  have hcurrent : (stateOf p bs).currentList = none := hopen
  have hstate : { stateOf p bs with currentList := none } = stateOf p bs := by
    rw [stateOf, hopen]
  rw [beforeSummary, if_neg hni, hcurrent] at hs
  dsimp only at hs
  rw [← hstate] at hs
  obtain ⟨b, hb, -⟩ | ⟨summary, hsummary, -⟩ := (plainLine_iff hni).mp hs
  · exact hb.plain.2.2 hspaces
  · exact (summary_plain hsummary.1).1.2.2 hspaces

/-- A line that is read goes on with the blocks, or is the summary. -/
theorem before_step (h : Blocks p bs) (hloose : Loose bs) (hne : line ≠ [])
    (hs : beforeSummary (stateOf p bs) number line = .ok s) :
    (∃ bs', Blocks (p ++ [line]) bs' ∧ Loose bs' ∧ s = stateOf (p ++ [line]) bs') ∨
      ∃ summary, Summarises line summary ∧ (∀ block ∈ bs, block.Filled) ∧
        s = { stateOf p bs with currentList := none, summary := some summary } := by
  by_cases hni : line ∈ information
  · rw [before_information hni] at hs
    split at hs
    · cases hs
    · next hnew =>
      exact Or.inl ⟨bs, (blocks_information hni).mpr ⟨h, hnew⟩, hloose, (Except.ok.inj hs).symm⟩
  · by_cases hspaces : twoSpaces <+: line
    · cases hopen : openList bs with
      | none => exact absurd hs (before_indented hni hspaces hopen)
      | some kind =>
        obtain ⟨front, entries, rfl⟩ := openList_some hopen
        obtain ⟨hformed, rfl⟩ := (before_entry h hni hspaces).mp hs
        exact Or.inl ⟨_, (blocks_entry hne hni).mpr ⟨h, hformed⟩, loose_snoc.mpr (loose_snoc.mp hloose), rfl⟩
    · obtain ⟨hfilled, hs⟩ := (before_plain h hloose hni hspaces).mp hs
      obtain ⟨b, hb, rfl⟩ | ⟨summary, hsummary, rfl⟩ := (plainLine_iff hni).mp hs
      · have hblocks := (blocks_block hne hni hb.lines).mpr ⟨h, hb.formed, hb.kind, hb.selection, hb.notice⟩
        exact Or.inl ⟨bs ++ [b], hblocks, loose_snoc.mpr hfilled, rfl⟩
      · exact Or.inr ⟨summary, hsummary, hfilled, rfl⟩

/-- Lines that make up blocks are read. -/
theorem before_blocks (hne : line ≠ []) {bs' : List Block} (h : Blocks (p ++ [line]) bs') (hloose : Loose bs') :
    ∃ bs, Blocks p bs ∧ Loose bs ∧
      ∀ number, beforeSummary (stateOf p bs) number line = .ok (stateOf (p ++ [line]) bs') := by
  by_cases hni : line ∈ information
  · obtain ⟨hblocks, hnew⟩ := (blocks_information hni).mp h
    refine ⟨bs', hblocks, hloose, fun number => ?_⟩
    rw [before_information hni, if_neg hnew]
  · obtain ⟨front, b, rfl, hlines⟩ | ⟨front, kind, entries, rfl⟩ := blocks_last hne hni h
    · obtain ⟨hblocks, hformed, hkind, hselection, hnotice⟩ := (blocks_block hne hni hlines).mp h
      have hb : Begins front b line := ⟨hlines, hformed, hkind, hselection, hnotice⟩
      have hfilled := loose_snoc.mp hloose
      have hfront : Loose front := fun block hblock => hfilled block (List.mem_of_mem_dropLast hblock)
      refine ⟨front, hblocks, hfront, fun number => ?_⟩
      exact (before_plain hblocks hfront hni hb.plain.2.2).mpr ⟨hfilled, (plainLine_iff hni).mpr (Or.inl ⟨b, hb, rfl⟩)⟩
    · obtain ⟨hblocks, hformed⟩ := (blocks_entry hne hni).mp h
      have hspaces := (hformed.1 line (List.mem_append_right _ (List.mem_singleton.mpr rfl))).1
      refine ⟨_, hblocks, loose_snoc.mpr (loose_snoc.mp hloose), fun number => ?_⟩
      exact (before_entry hblocks hni hspaces).mpr ⟨hformed, rfl⟩

theorem before_summary (h : Blocks p bs) (hfilled : ∀ block ∈ bs, block.Filled) {summary : Summary}
    (hsummary : Summarises line summary) :
    beforeSummary (stateOf p bs) number line =
      .ok { stateOf p bs with currentList := none, summary := some summary } := by
  have hplain := (summary_plain hsummary.1).1
  have hloose : Loose bs := fun block hblock => hfilled block (List.mem_of_mem_dropLast hblock)
  apply (before_plain h hloose hplain.2.1 hplain.2.2).mpr
  exact ⟨hfilled, (plainLine_iff hplain.2.1).mpr (Or.inr ⟨summary, hsummary, rfl⟩)⟩

end Before

end HccastWired.Packaging
