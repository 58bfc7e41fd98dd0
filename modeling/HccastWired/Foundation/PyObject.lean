import HccastWired.Foundation.PyValue

/-!
# Objects of the interpreter

A value with the identities of its containers: its deep copy, its equality, and the value
that JSON writes for it. A tuple is written like a list, and a key as its text.
-/

namespace HccastWired.Foundation

/-- A key of a dictionary. -/
inductive PyKey
  | none
  | bool (b : Bool)
  | number (x : Number)
  | str (s : String)
  | other (id : Nat)
deriving DecidableEq

/-- `other` is an instance of another class. -/
inductive PyObject (σ : Type)
  | none
  | bool (b : Bool)
  | number (x : Number)
  | str (s : String)
  | list (id : Nat) (items : List (PyObject σ))
  | tuple (id : Nat) (items : List (PyObject σ))
  | dict (id : Nat) (fields : List (PyKey × PyObject σ))
  | other (id : Nat) (x : σ)

/-- The number that a `bool` is. -/
def boolNumber (b : Bool) : Number := .int (if b then 1 else 0)

namespace PyKey

/-- `==` of two keys. -/
def eq : PyKey → PyKey → Bool
  | none, none => true
  | bool a, bool b => decide (a = b)
  | bool a, number y => (boolNumber a).eq y
  | number x, bool b => x.eq (boolNumber b)
  | number x, number y => x.eq y
  | str s, str t => decide (s = t)
  | other i, other j => decide (i = j)
  | _, _ => false

/-- The text of a key in JSON, by the texts of the `float`s. -/
def text (floatText : Rat → String) : PyKey → Option String
  | none => some "null"
  | bool true => some "true"
  | bool false => some "false"
  | number (.int n) => if (Number.int n).printable = true then some (toString n) else Option.none
  | number (.float q) => some (floatText q)
  | number _ => Option.none
  | str s => some s
  | other _ => Option.none

@[simp] theorem str_eq {s : String} {k : PyKey} : (str s).eq k = true ↔ k = str s := by
  cases k <;> simp [eq, eq_comm]

end PyKey

namespace PyObject

variable {σ : Type}

abbrev Fields (σ : Type) := List (PyKey × PyObject σ)

/-- The value of a key. -/
def find (key : PyKey) (fields : Fields σ) : Option (PyObject σ) :=
  (fields.find? fun f => key.eq f.1).map Prod.snd

/-- `value.get(key)` of a dictionary. -/
def get (key : String) : PyObject σ → Option (PyObject σ)
  | dict _ fields => find (.str key) fields
  | _ => Option.none

/-- `fields[key] = value`. -/
def insert (key : String) (value : PyObject σ) : Fields σ → Fields σ
  | [] => [(.str key, value)]
  | f :: fields =>
      if f.1 = .str key then (f.1, value) :: fields else f :: insert key value fields

/-- `value[key] = item` of a dictionary. -/
def set : PyObject σ → String → PyObject σ → PyObject σ
  | dict id fields, key, item => dict id (insert key item fields)
  | x, _, _ => x

/-- `value.setdefault(key, item)`. -/
def setDefault (x : PyObject σ) (key : String) (item : PyObject σ) : PyObject σ :=
  if (get key x).isSome then x else set x key item

/-- The list or the dictionary with an identity. -/
def withId (id : Nat) : PyObject σ → PyObject σ
  | list _ items => list id items
  | dict _ fields => dict id fields
  | x => x

mutual
/-- The value without the identities. -/
def strip : PyObject σ → PyObject σ
  | list _ items => list 0 (stripItems items)
  | tuple _ items => tuple 0 (stripItems items)
  | dict _ fields => dict 0 (stripFields fields)
  | other _ x => other 0 x
  | x => x
def stripItems : List (PyObject σ) → List (PyObject σ)
  | [] => []
  | x :: items => x.strip :: stripItems items
def stripFields : Fields σ → Fields σ
  | [] => []
  | (k, x) :: fields => (k, x.strip) :: stripFields fields
end

mutual
/-- A copy of the object is the object itself. -/
def atomic : PyObject σ → Bool
  | list _ _ | dict _ _ | other _ _ => false
  | tuple _ items => atomicItems items
  | _ => true
def atomicItems : List (PyObject σ) → Bool
  | [] => true
  | x :: items => x.atomic && atomicItems items
end

mutual
/-- `copy.deepcopy`: every container has a new identity, and two places that shared one
share the new one. A tuple of what needs no copy is itself. -/
def deepcopy (next : Nat) : PyObject σ → PyObject σ
  | list id items => list (next + id) (copyItems next items)
  | tuple id items => tuple (if atomicItems items then id else next + id) (copyItems next items)
  | dict id fields => dict (next + id) (copyFields next fields)
  | other id x => other (next + id) x
  | x => x
def copyItems (next : Nat) : List (PyObject σ) → List (PyObject σ)
  | [] => []
  | x :: items => x.deepcopy next :: copyItems next items
def copyFields (next : Nat) : Fields σ → Fields σ
  | [] => []
  | (k, x) :: fields => (k, x.deepcopy next) :: copyFields next fields
end

mutual
/-- The identities of the lists and the dictionaries. -/
def mutables : PyObject σ → List Nat
  | list id items => id :: mutableItems items
  | tuple _ items => mutableItems items
  | dict id fields => id :: mutableFields fields
  | _ => []
def mutableItems : List (PyObject σ) → List Nat
  | [] => []
  | x :: items => x.mutables ++ mutableItems items
def mutableFields : Fields σ → List Nat
  | [] => []
  | (_, x) :: fields => x.mutables ++ mutableFields fields
end

mutual
/-- `==`. -/
def eq : PyObject σ → PyObject σ → Bool
  | none, none => true
  | bool a, bool b => decide (a = b)
  | bool a, number y => (boolNumber a).eq y
  | number x, bool b => x.eq (boolNumber b)
  | number x, number y => x.eq y
  | str s, str t => decide (s = t)
  | list _ xs, list _ ys => eqItems xs ys
  | tuple _ xs, tuple _ ys => eqItems xs ys
  | dict _ fs, dict _ gs => decide (fs.length = gs.length) && eqFields fs gs
  | _, _ => false
def eqItems : List (PyObject σ) → List (PyObject σ) → Bool
  | [], [] => true
  | x :: xs, y :: ys => eq x y && eqItems xs ys
  | _, _ => false
def eqFields : Fields σ → Fields σ → Bool
  | [], _ => true
  | (k, x) :: fs, gs => (find k gs).any (eq x) && eqFields fs gs
end

mutual
/-- What `json.dumps` writes, before the texts of the numbers. -/
def content (floatText : Rat → String) : PyObject σ → Option PyValue
  | none => some .none
  | bool b => some (.bool b)
  | number x => some (.number x)
  | str s => some (.str s)
  | list _ items | tuple _ items => (contentItems floatText items).map .list
  | dict _ fields => (contentFields floatText fields).map .dict
  | other _ _ => Option.none
def contentItems (floatText : Rat → String) : List (PyObject σ) → Option (List PyValue)
  | [] => some []
  | x :: items => (content floatText x).bind fun v => (contentItems floatText items).map (v :: ·)
def contentFields (floatText : Rat → String) : Fields σ → Option (List (String × PyValue))
  | [] => some []
  | (k, x) :: fields => (k.text floatText).bind fun s => (content floatText x).bind fun v =>
      (contentFields floatText fields).map ((s, v) :: ·)
end

mutual
/-- The object of a value, without identities. -/
def embed : PyValue → PyObject σ
  | .none => none
  | .bool b => bool b
  | .number x => number x
  | .str s => str s
  | .list items => list 0 (embedItems items)
  | .dict fields => dict 0 (embedFields fields)
def embedItems : List PyValue → List (PyObject σ)
  | [] => []
  | v :: items => embed v :: embedItems items
def embedFields : List (String × PyValue) → Fields σ
  | [] => []
  | (k, v) :: fields => (.str k, embed v) :: embedFields fields
end

mutual
/-- The object has no tuple, no key that is not a text and no instance of another class. -/
def plain : PyObject σ → Bool
  | list _ items => plainItems items
  | dict _ fields => plainFields fields
  | tuple _ _ | other _ _ => false
  | _ => true
def plainItems : List (PyObject σ) → Bool
  | [] => true
  | x :: items => x.plain && plainItems items
def plainFields : Fields σ → Bool
  | [] => true
  | (.str _, x) :: fields => x.plain && plainFields fields
  | _ => false
end

mutual
/-- No dictionary repeats a key. -/
def wellFormed : PyObject σ → Bool
  | list _ items | tuple _ items => formedItems items
  | dict _ fields => decide (fields.map Prod.fst).Nodup && formedFields fields
  | _ => true
def formedItems : List (PyObject σ) → Bool
  | [] => true
  | x :: items => x.wellFormed && formedItems items
def formedFields : Fields σ → Bool
  | [] => true
  | (_, x) :: fields => x.wellFormed && formedFields fields
end

/-! ## Copies -/

section Copy

variable {next : Nat}

mutual
theorem strip_deepcopy : ∀ x : PyObject σ, (x.deepcopy next).strip = x.strip
  | none | bool _ | number _ | str _ | other _ _ => by simp [deepcopy, strip]
  | list id items => by simp [deepcopy, strip, strip_copyItems items]
  | tuple id items => by simp [deepcopy, strip, strip_copyItems items]
  | dict id fields => by simp [deepcopy, strip, strip_copyFields fields]
theorem strip_copyItems : ∀ items : List (PyObject σ),
    stripItems (copyItems next items) = stripItems items
  | [] => rfl
  | x :: items => by simp [copyItems, stripItems, strip_deepcopy x, strip_copyItems items]
theorem strip_copyFields : ∀ fields : Fields σ,
    stripFields (copyFields next fields) = stripFields fields
  | [] => rfl
  | (k, x) :: fields => by
      simp [copyFields, stripFields, strip_deepcopy x, strip_copyFields fields]
end

mutual
/-- What a copy can change has a new identity. -/
theorem le_deepcopy : ∀ (x : PyObject σ), ∀ i ∈ (x.deepcopy next).mutables, next ≤ i
  | none | bool _ | number _ | str _ | other _ _ => by simp [deepcopy, mutables]
  | list id items => by
      simp only [deepcopy, mutables, List.forall_mem_cons]
      exact ⟨Nat.le_add_right next id, le_copyItems items⟩
  | tuple id items => by
      simp only [deepcopy, mutables]
      exact le_copyItems items
  | dict id fields => by
      simp only [deepcopy, mutables, List.forall_mem_cons]
      exact ⟨Nat.le_add_right next id, le_copyFields fields⟩
theorem le_copyItems : ∀ (items : List (PyObject σ)),
    ∀ i ∈ mutableItems (copyItems next items), next ≤ i
  | [] => by simp [copyItems, mutableItems]
  | x :: items => by
      simp only [copyItems, mutableItems, List.forall_mem_append]
      exact ⟨le_deepcopy x, le_copyItems items⟩
theorem le_copyFields : ∀ (fields : Fields σ),
    ∀ i ∈ mutableFields (copyFields next fields), next ≤ i
  | [] => by simp [copyFields, mutableFields]
  | (k, x) :: fields => by
      simp only [copyFields, mutableFields, List.forall_mem_append]
      exact ⟨le_deepcopy x, le_copyFields fields⟩
end

end Copy

/-! ## What does not depend on the identities -/

section Strip

variable (floatText : Rat → String)

mutual
@[simp] theorem content_strip : ∀ x : PyObject σ, x.strip.content floatText = x.content floatText
  | none | bool _ | number _ | str _ | other _ _ => by simp [strip, content]
  | list id items => by simp [strip, content, content_stripItems items]
  | tuple id items => by simp [strip, content, content_stripItems items]
  | dict id fields => by simp [strip, content, content_stripFields fields]
theorem content_stripItems : ∀ items : List (PyObject σ),
    contentItems floatText (stripItems items) = contentItems floatText items
  | [] => rfl
  | x :: items => by simp [stripItems, contentItems, content_strip x, content_stripItems items]
theorem content_stripFields : ∀ fields : Fields σ,
    contentFields floatText (stripFields fields) = contentFields floatText fields
  | [] => rfl
  | (k, x) :: fields => by
      simp [stripFields, contentFields, content_strip x, content_stripFields fields]
end

mutual
@[simp] theorem plain_strip : ∀ x : PyObject σ, x.strip.plain = x.plain
  | none | bool _ | number _ | str _ | other _ _ => by simp [strip, plain]
  | list id items => by simp [strip, plain, plain_stripItems items]
  | tuple id items => by simp [strip, plain]
  | dict id fields => by simp [strip, plain, plain_stripFields fields]
theorem plain_stripItems : ∀ items : List (PyObject σ), plainItems (stripItems items) = plainItems items
  | [] => rfl
  | x :: items => by simp [stripItems, plainItems, plain_strip x, plain_stripItems items]
theorem plain_stripFields : ∀ fields : Fields σ, plainFields (stripFields fields) = plainFields fields
  | [] => rfl
  | (k, x) :: fields => by
      cases k <;> simp [stripFields, plainFields, plain_strip x, plain_stripFields fields]
end

theorem keys_stripFields : ∀ fields : Fields σ,
    (stripFields fields).map Prod.fst = fields.map Prod.fst
  | [] => rfl
  | (k, x) :: fields => by simp [stripFields, keys_stripFields fields]

mutual
@[simp] theorem wellFormed_strip : ∀ x : PyObject σ, x.strip.wellFormed = x.wellFormed
  | none | bool _ | number _ | str _ | other _ _ => by simp [strip, wellFormed]
  | list id items => by simp [strip, wellFormed, formed_stripItems items]
  | tuple id items => by simp [strip, wellFormed, formed_stripItems items]
  | dict id fields => by
      simp [strip, wellFormed, formed_stripFields fields, keys_stripFields fields]
theorem formed_stripItems : ∀ items : List (PyObject σ),
    formedItems (stripItems items) = formedItems items
  | [] => rfl
  | x :: items => by simp [stripItems, formedItems, wellFormed_strip x, formed_stripItems items]
theorem formed_stripFields : ∀ fields : Fields σ,
    formedFields (stripFields fields) = formedFields fields
  | [] => rfl
  | (k, x) :: fields => by
      simp [stripFields, formedFields, wellFormed_strip x, formed_stripFields fields]
end

theorem find_strip (key : PyKey) : ∀ fields : Fields σ,
    find key (stripFields fields) = (find key fields).map strip
  | [] => rfl
  | (k, x) :: fields => by
      have hrest := find_strip key fields
      simp only [find, stripFields, List.find?_cons] at hrest ⊢
      cases hkey : key.eq k with
      | true => rfl
      | false => exact hrest

theorem get_strip (key : String) (x : PyObject σ) : get key x.strip = (get key x).map strip := by
  cases x with
  | dict id fields => exact find_strip (.str key) fields
  | _ => rfl

theorem insert_strip (key : String) (item : PyObject σ) : ∀ fields : Fields σ,
    stripFields (insert key item fields) = insert key item.strip (stripFields fields)
  | [] => rfl
  | (k, x) :: fields => by
      by_cases hkey : k = .str key
      · simp [insert, stripFields, hkey]
      · simp [insert, stripFields, hkey, insert_strip key item fields]

theorem set_strip (key : String) (item x : PyObject σ) :
    (set x key item).strip = set x.strip key item.strip := by
  cases x with
  | dict id fields => simp [set, strip, insert_strip]
  | _ => simp [set, strip]

mutual
theorem eq_strip : ∀ x y : PyObject σ, x.strip.eq y.strip = x.eq y
  | none, y | bool _, y | number _, y | str _, y | other _ _, y => by
      cases y <;> simp [strip, eq]
  | list _ xs, y => by
      cases y with
      | list _ ys => simp [strip, eq, eq_stripItems xs ys]
      | _ => simp [strip, eq]
  | tuple _ xs, y => by
      cases y with
      | tuple _ ys => simp [strip, eq, eq_stripItems xs ys]
      | _ => simp [strip, eq]
  | dict _ fs, y => by
      cases y with
      | dict _ gs =>
          have hlength : ∀ fs : Fields σ, (stripFields fs).length = fs.length := by
            intro fs
            have hkeys := congrArg List.length (keys_stripFields fs)
            simpa using hkeys
          simp [strip, eq, eq_stripFields fs gs, hlength]
      | _ => simp [strip, eq]
theorem eq_stripItems : ∀ xs ys : List (PyObject σ),
    eqItems (stripItems xs) (stripItems ys) = eqItems xs ys
  | [], ys => by cases ys <;> simp [stripItems, eqItems]
  | x :: xs, ys => by
      cases ys with
      | nil => simp [stripItems, eqItems]
      | cons y ys => simp [stripItems, eqItems, eq_strip x y, eq_stripItems xs ys]
theorem eq_stripFields : ∀ fs gs : Fields σ, eqFields (stripFields fs) (stripFields gs) = eqFields fs gs
  | [], gs => rfl
  | (k, x) :: fs, gs => by
      have hany : ((find k gs).map strip).any x.strip.eq = (find k gs).any x.eq := by
        cases find k gs with
        | none => rfl
        | some y => exact eq_strip x y
      simp [stripFields, eqFields, find_strip, hany, eq_stripFields fs gs]
end

end Strip

/-! ## The fields of a dictionary -/

theorem plainFields_iff {fields : Fields σ} : plainFields fields = true ↔
    ∀ f ∈ fields, (∃ s, f.1 = .str s) ∧ f.2.plain = true := by
  induction fields with
  | nil => simp [plainFields]
  | cons f fields ih =>
      obtain ⟨k, x⟩ := f
      cases k <;> simp [plainFields, ih]

theorem formedFields_iff {fields : Fields σ} : formedFields fields = true ↔
    ∀ f ∈ fields, f.2.wellFormed = true := by
  induction fields with
  | nil => simp [formedFields]
  | cons f fields ih =>
      obtain ⟨k, x⟩ := f
      simp [formedFields, ih]

/-- A key that is not repeated finds its value. -/
theorem find_of_mem {key : String} {x : PyObject σ} : ∀ {fields : Fields σ},
    (fields.map Prod.fst).Nodup → (PyKey.str key, x) ∈ fields → find (.str key) fields = some x
  | [], _, h => absurd h List.not_mem_nil
  | (k, y) :: fields, hnodup, h => by
      obtain ⟨hhead, htail⟩ := List.nodup_cons.mp hnodup
      rw [find, List.find?_cons]
      cases hkey : (PyKey.str key).eq k with
      | true =>
          rcases List.mem_cons.mp h with heq | hmem
          · cases heq
            rfl
          · rw [PyKey.str_eq.mp hkey] at hhead
            exact absurd (List.mem_map.mpr ⟨_, hmem, rfl⟩) hhead
      | false =>
          rcases List.mem_cons.mp h with heq | hmem
          · cases heq
            rw [PyKey.str_eq.mpr rfl] at hkey
            cases hkey
          · exact find_of_mem htail hmem

theorem mem_of_find {key : String} {x : PyObject σ} {fields : Fields σ}
    (h : find (.str key) fields = some x) : (PyKey.str key, x) ∈ fields := by
  obtain ⟨f, hf, rfl⟩ := Option.map_eq_some_iff.mp h
  obtain ⟨k, x⟩ := f
  have hkey : k = .str key := PyKey.str_eq.mp
    (List.find?_some (p := fun f : PyKey × PyObject σ => (PyKey.str key).eq f.1) hf)
  subst hkey
  exact List.mem_of_find?_eq_some hf

/-! ## Updates -/

section Update

variable {key other : String} {item x y : PyObject σ} {fields : Fields σ}

theorem find_insert_self (key : String) (item : PyObject σ) : ∀ fields : Fields σ,
    find (.str key) (insert key item fields) = some item
  | [] => by simp [insert, find]
  | (k, y) :: fields => by
      by_cases hkey : k = .str key
      · simp [insert, find, hkey]
      · have hne : (PyKey.str key).eq k = false := by
          rw [Bool.eq_false_iff]
          exact fun heq => hkey (PyKey.str_eq.mp heq)
        simpa [insert, find, hkey, hne] using find_insert_self key item fields

theorem find_insert_ne (h : other ≠ key) (item : PyObject σ) : ∀ fields : Fields σ,
    find (.str other) (insert key item fields) = find (.str other) fields
  | [] => by
      have hne : (PyKey.str other).eq (.str key) = false := by simpa [PyKey.eq] using h
      simp [insert, find, hne]
  | (k, y) :: fields => by
      by_cases hkey : k = .str key
      · have hne : (PyKey.str other).eq (.str key) = false := by simpa [PyKey.eq] using h
        subst hkey
        simp [insert, find, hne]
      · have hrest := find_insert_ne h item fields
        simp only [find, insert, hkey, if_false, List.find?_cons] at hrest ⊢
        cases (PyKey.str other).eq k with
        | true => rfl
        | false => exact hrest

theorem insert_self : ∀ {fields : Fields σ}, find (.str key) fields = some item →
    insert key item fields = fields
  | [], h => by cases h
  | (k, y) :: fields, h => by
      by_cases hkey : k = .str key
      · subst hkey
        have hitem : y = item := by simpa [find] using h
        simp [insert, hitem]
      · have hne : (PyKey.str key).eq k = false := by
          rw [Bool.eq_false_iff]
          exact fun heq => hkey (PyKey.str_eq.mp heq)
        have hrest : find (.str key) fields = some item := by simpa [find, hne] using h
        simp [insert, hkey, insert_self hrest]

theorem keys_insert (key : String) (item : PyObject σ) : ∀ fields : Fields σ,
    (insert key item fields).map Prod.fst =
      if .str key ∈ fields.map Prod.fst then fields.map Prod.fst
      else fields.map Prod.fst ++ [.str key]
  | [] => by simp [insert]
  | (k, y) :: fields => by
      by_cases hkey : k = .str key
      · simp [insert, hkey]
      · have hne : ¬ PyKey.str key = k := fun h => hkey h.symm
        simp only [insert, hkey, if_false, List.map_cons, keys_insert key item fields,
          List.mem_cons, hne, false_or]
        split <;> rfl

theorem mem_insert {f : PyKey × PyObject σ} : ∀ {fields : Fields σ}, f ∈ insert key item fields →
    f = (.str key, item) ∨ f ∈ fields
  | [], h => .inl (List.mem_singleton.mp h)
  | (k, y) :: fields, h => by
      by_cases hkey : k = .str key
      · rw [insert, if_pos hkey] at h
        rcases List.mem_cons.mp h with rfl | hmem
        · exact .inl (by rw [hkey])
        · exact .inr (List.mem_cons_of_mem _ hmem)
      · rw [insert, if_neg hkey] at h
        rcases List.mem_cons.mp h with rfl | hmem
        · exact .inr List.mem_cons_self
        · rcases mem_insert hmem with heq | hfields
          · exact .inl heq
          · exact .inr (List.mem_cons_of_mem _ hfields)

theorem wellFormed_set (hitem : item.wellFormed = true) (hx : x.wellFormed = true) :
    (set x key item).wellFormed = true := by
  cases x with
  | dict id fields =>
      simp only [wellFormed, Bool.and_eq_true, decide_eq_true_eq] at hx
      simp only [set, wellFormed, Bool.and_eq_true, decide_eq_true_eq]
      constructor
      · rw [keys_insert]
        split
        next => exact hx.1
        next hfresh => exact List.nodup_append.mpr ⟨hx.1, List.nodup_singleton _, by
          intro a ha b hb heq
          rw [List.mem_singleton] at hb
          exact hfresh (by rwa [← hb, ← heq])⟩
      · rw [formedFields_iff]
        intro f hf
        rcases mem_insert hf with rfl | hmem
        · exact hitem
        · exact formedFields_iff.mp hx.2 f hmem
  | _ => exact hx

theorem plain_get (hx : x.plain = true) (h : get key x = some y) : y.plain = true := by
  cases x with
  | dict id fields =>
      exact (plainFields_iff.mp (by simpa [plain] using hx) _ (mem_of_find h)).2
  | _ => cases h

theorem mutableFields_iff {i : Nat} {fields : Fields σ} :
    i ∈ mutableFields fields ↔ ∃ f ∈ fields, i ∈ f.2.mutables := by
  induction fields with
  | nil => simp [mutableFields]
  | cons f fields ih =>
      obtain ⟨k, x⟩ := f
      simp [mutableFields, ih]

/-- An update has the containers of the object and of the item. -/
theorem mutables_set {i : Nat} (h : i ∈ (set x key item).mutables) :
    i ∈ item.mutables ∨ i ∈ x.mutables := by
  cases x with
  | dict id fields =>
      simp only [set, mutables, List.mem_cons, mutableFields_iff] at h ⊢
      rcases h with rfl | ⟨f, hf, hi⟩
      · exact .inr (.inl rfl)
      · rcases mem_insert hf with rfl | hmem
        · exact .inl hi
        · exact .inr (.inr ⟨f, hmem, hi⟩)
  | _ => exact .inr h

theorem mutables_get {i : Nat} (h : get key x = some y) (hi : i ∈ y.mutables) :
    i ∈ x.mutables := by
  cases x with
  | dict id fields =>
      simp only [mutables, List.mem_cons, mutableFields_iff]
      exact .inr ⟨_, mem_of_find h, hi⟩
  | _ => cases h

theorem wellFormed_get (hx : x.wellFormed = true) (h : get key x = some y) :
    y.wellFormed = true := by
  cases x with
  | dict id fields =>
      simp only [wellFormed, Bool.and_eq_true] at hx
      exact formedFields_iff.mp hx.2 _ (mem_of_find h)
  | _ => cases h

/-- The object is a dictionary. -/
def isDict : PyObject σ → Bool
  | dict _ _ => true
  | _ => false

@[simp] theorem isDict_set : (set x key item).isDict = x.isDict := by
  cases x <;> rfl

theorem get_set_self (hx : x.isDict = true) : get key (set x key item) = some item := by
  cases x with
  | dict id fields => exact find_insert_self key item fields
  | _ => cases hx

theorem get_set_ne (h : other ≠ key) : get other (set x key item) = get other x := by
  cases x with
  | dict id fields => exact find_insert_ne h item fields
  | _ => rfl

/-- The keys of a dictionary. -/
def keys : PyObject σ → List PyKey
  | dict _ fields => fields.map Prod.fst
  | _ => []

theorem mem_keys_set {k : PyKey} (hx : x.isDict = true) :
    k ∈ (set x key item).keys ↔ k ∈ x.keys ∨ k = .str key := by
  cases x with
  | dict id fields =>
      simp only [set, keys, keys_insert]
      split
      next hmem =>
        constructor
        · exact .inl
        · rintro (h | rfl)
          · exact h
          · exact hmem
      next => rw [List.mem_append, List.mem_singleton]
  | _ => cases hx

theorem get_isSome {key : String} {x : PyObject σ} :
    (get key x).isSome = true ↔ .str key ∈ x.keys := by
  cases x with
  | dict id fields =>
      simp only [get, find, keys, Option.isSome_map, List.find?_isSome, PyKey.str_eq, List.mem_map]
  | _ => simp [get, keys]

theorem set_self (h : get key x = some item) : set x key item = x := by
  cases x with
  | dict id fields =>
      rw [set, insert_self h]
  | _ => rfl

mutual
@[simp] theorem strip_embed : ∀ v : PyValue, (embed v : PyObject σ).strip = embed v
  | .none | .bool _ | .number _ | .str _ => by simp [embed, strip]
  | .list items => by simp [embed, strip, strip_embedItems items]
  | .dict fields => by simp [embed, strip, strip_embedFields fields]
theorem strip_embedItems : ∀ items : List PyValue,
    stripItems (embedItems items : List (PyObject σ)) = embedItems items
  | [] => rfl
  | v :: items => by simp [embedItems, stripItems, strip_embed v, strip_embedItems items]
theorem strip_embedFields : ∀ fields : List (String × PyValue),
    stripFields (embedFields fields : Fields σ) = embedFields fields
  | [] => rfl
  | (k, v) :: fields => by simp [embedFields, stripFields, strip_embed v, strip_embedFields fields]
end

@[simp] theorem strip_withId (id : Nat) : (x.withId id).strip = x.strip := by
  cases x <;> rfl

end Update

/-! ## Plain objects -/

section Plain

variable (floatText : Rat → String)

mutual
@[simp] theorem plain_embed : ∀ v : PyValue, (embed v : PyObject σ).plain = true
  | .none | .bool _ | .number _ | .str _ => by simp [embed, plain]
  | .list items => by simp [embed, plain, plain_embedItems items]
  | .dict fields => by simp [embed, plain, plain_embedFields fields]
theorem plain_embedItems : ∀ items : List PyValue, plainItems (embedItems items : List (PyObject σ)) = true
  | [] => rfl
  | v :: items => by simp [embedItems, plainItems, plain_embed v, plain_embedItems items]
theorem plain_embedFields : ∀ fields : List (String × PyValue),
    plainFields (embedFields fields : Fields σ) = true
  | [] => rfl
  | (k, v) :: fields => by simp [embedFields, plainFields, plain_embed v, plain_embedFields fields]
end

mutual
/-- JSON holds all of a plain object. -/
theorem content_plain : ∀ x : PyObject σ, x.plain = true →
    ∃ v, x.content floatText = some v ∧ x.strip = embed v
  | none, _ => ⟨.none, rfl, by simp [strip, embed]⟩
  | bool b, _ => ⟨.bool b, rfl, by simp [strip, embed]⟩
  | number x, _ => ⟨.number x, rfl, by simp [strip, embed]⟩
  | str s, _ => ⟨.str s, rfl, by simp [strip, embed]⟩
  | list id items, h => by
      obtain ⟨vs, hvs, hstrip⟩ := content_plainItems items (by simpa [plain] using h)
      exact ⟨.list vs, by simp [content, hvs], by simp [strip, embed, hstrip]⟩
  | dict id fields, h => by
      obtain ⟨vs, hvs, hstrip⟩ := content_plainFields fields (by simpa [plain] using h)
      exact ⟨.dict vs, by simp [content, hvs], by simp [strip, embed, hstrip]⟩
  | tuple _ _, h | other _ _, h => by simp [plain] at h
theorem content_plainItems : ∀ items : List (PyObject σ), plainItems items = true →
    ∃ vs, contentItems floatText items = some vs ∧ stripItems items = embedItems vs
  | [], _ => ⟨[], rfl, rfl⟩
  | x :: items, h => by
      simp only [plainItems, Bool.and_eq_true] at h
      obtain ⟨v, hv, hstrip⟩ := content_plain x h.1
      obtain ⟨vs, hvs, hrest⟩ := content_plainItems items h.2
      exact ⟨v :: vs, by simp [contentItems, hv, hvs], by simp [stripItems, embedItems, hstrip, hrest]⟩
theorem content_plainFields : ∀ fields : Fields σ, plainFields fields = true →
    ∃ vs, contentFields floatText fields = some vs ∧ stripFields fields = embedFields vs
  | [], _ => ⟨[], rfl, rfl⟩
  | (.str s, x) :: fields, h => by
      simp only [plainFields, Bool.and_eq_true] at h
      obtain ⟨v, hv, hstrip⟩ := content_plain x h.1
      obtain ⟨vs, hvs, hrest⟩ := content_plainFields fields h.2
      exact ⟨(s, v) :: vs, by simp [contentFields, PyKey.text, hv, hvs],
        by simp [stripFields, embedFields, hstrip, hrest]⟩
  | (.none, _) :: _, h | (.bool _, _) :: _, h | (.number _, _) :: _, h | (.other _, _) :: _, h => by
      simp [plainFields] at h
end

theorem keys_embedFields : ∀ fields : List (String × PyValue),
    (embedFields fields : Fields σ).map Prod.fst = (fields.map Prod.fst).map PyKey.str
  | [] => rfl
  | (k, v) :: fields => by simp [embedFields, keys_embedFields fields]

theorem str_injective : Function.Injective PyKey.str := fun _ _ h => PyKey.str.inj h

mutual
@[simp] theorem wellFormed_embed : ∀ v : PyValue, (embed v : PyObject σ).wellFormed = v.unique
  | .none | .bool _ | .number _ | .str _ => by simp [embed, wellFormed, PyValue.unique]
  | .list items => by simp [embed, wellFormed, PyValue.unique, formed_embedItems items]
  | .dict fields => by
      have hkeys : ((embedFields fields : Fields σ).map Prod.fst).Nodup ↔
          (fields.map Prod.fst).Nodup := by
        rw [keys_embedFields, List.nodup_map_iff str_injective]
      simp only [embed, wellFormed, PyValue.unique, formed_embedFields fields, hkeys]
theorem formed_embedItems : ∀ items : List PyValue,
    formedItems (embedItems items : List (PyObject σ)) = PyValue.uniqueItems items
  | [] => rfl
  | v :: items => by
      simp [embedItems, formedItems, PyValue.uniqueItems, wellFormed_embed v, formed_embedItems items]
theorem formed_embedFields : ∀ fields : List (String × PyValue),
    formedFields (embedFields fields : Fields σ) = PyValue.uniqueFields fields
  | [] => rfl
  | (k, v) :: fields => by
      simp [embedFields, formedFields, PyValue.uniqueFields, wellFormed_embed v,
        formed_embedFields fields]
end

theorem number_eq_self {x : Number} (h : x.printable = true) : x.eq x = true := by
  cases x with
  | int n => simp [Number.eq, Number.le]
  | float q => simp [Number.eq, Number.le]
  | infinite negative => cases h
  | nan => cases h

mutual
/-- A value without NaN equals itself. -/
theorem embed_eq_self : ∀ v : PyValue, v.unique = true → v.printable = true →
    (embed v : PyObject σ).eq (embed v) = true
  | .none, _, _ | .bool _, _, _ | .str _, _, _ => by simp [embed, eq]
  | .number x, _, h => by simpa [embed, eq] using number_eq_self (by simpa [PyValue.printable] using h)
  | .list items, hunique, h => by
      simp only [PyValue.unique] at hunique
      simp only [PyValue.printable] at h
      simpa [embed, eq] using embedItems_eq_self items hunique h
  | .dict fields, hunique, h => by
      simp only [PyValue.unique, Bool.and_eq_true, decide_eq_true_eq] at hunique
      simp only [PyValue.printable] at h
      have hnodup : ((embedFields fields : Fields σ).map Prod.fst).Nodup := by
        rw [keys_embedFields]
        exact hunique.1.map str_injective
      simp only [embed, eq, decide_true, Bool.true_and]
      apply embedFields_eq_self fields _ hunique.2 h
      rintro ⟨k, x⟩ hf
      obtain ⟨⟨s, rfl⟩, -⟩ := plainFields_iff.mp (plain_embedFields fields) _ hf
      exact find_of_mem hnodup hf
theorem embedItems_eq_self : ∀ items : List PyValue, PyValue.uniqueItems items = true →
    PyValue.printableItems items = true →
    eqItems (embedItems items : List (PyObject σ)) (embedItems items) = true
  | [], _, _ => rfl
  | v :: items, hunique, h => by
      simp only [PyValue.uniqueItems, Bool.and_eq_true] at hunique
      simp only [PyValue.printableItems, Bool.and_eq_true] at h
      simp [embedItems, eqItems, embed_eq_self v hunique.1 h.1,
        embedItems_eq_self items hunique.2 h.2]
theorem embedFields_eq_self : ∀ (fields : List (String × PyValue)) (all : Fields σ),
    PyValue.uniqueFields fields = true → PyValue.printableFields fields = true →
    (∀ f ∈ (embedFields fields : Fields σ), find f.1 all = some f.2) →
    eqFields (embedFields fields : Fields σ) all = true
  | [], _, _, _, _ => rfl
  | (k, v) :: fields, all, hunique, h, hfind => by
      simp only [PyValue.uniqueFields, Bool.and_eq_true] at hunique
      simp only [PyValue.printableFields, Bool.and_eq_true] at h
      simp only [embedFields, List.forall_mem_cons] at hfind
      simp [embedFields, eqFields, hfind.1, embed_eq_self v hunique.1 h.1,
        embedFields_eq_self fields all hunique.2 h.2 hfind.2]
end

/-- Of two dictionaries of one size, the second has no key of its own when it has those of
the first. -/
theorem keys_subset {fs gs : Fields σ} (hfs : (fs.map Prod.fst).Nodup)
    (hlength : fs.length = gs.length) (h : fs.map Prod.fst ⊆ gs.map Prod.fst) :
    gs.map Prod.fst ⊆ fs.map Prod.fst := by
  have hperm : (fs.map Prod.fst).Perm (gs.map Prod.fst) := by
    apply (List.subperm_of_subset hfs h).perm_of_length_le
    rw [List.length_map, List.length_map, hlength]
  exact hperm.symm.subset

mutual
/-- What equals a plain object is plain. -/
theorem plain_of_eq : ∀ x y : PyObject σ, x.eq y = true → x.plain = true →
    x.wellFormed = true → y.wellFormed = true → y.plain = true
  | none, y, h, _, _, _ | bool _, y, h, _, _, _ | number _, y, h, _, _, _ | str _, y, h, _, _, _ => by
      cases y <;> simp [eq, plain] at h ⊢
  | list _ xs, y, h, hx, hformed, hy => by
      cases y with
      | list _ ys =>
          simp only [eq] at h
          simp only [plain] at hx ⊢
          simp only [wellFormed] at hformed hy
          exact plain_of_eqItems xs ys h hx hformed hy
      | _ => simp [eq] at h
  | tuple _ _, _, _, hx, _, _ | other _ _, _, _, hx, _, _ => by simp [plain] at hx
  | dict _ fs, y, h, hx, hformed, hy => by
      cases y with
      | dict _ gs =>
          simp only [eq, Bool.and_eq_true, decide_eq_true_eq] at h
          simp only [wellFormed, Bool.and_eq_true, decide_eq_true_eq] at hformed hy
          simp only [plain] at hx ⊢
          obtain ⟨hlength, hfields⟩ := h
          have hpaired := plain_of_eqFields fs gs hfields hx hformed.2 hy.2
          have hsubset : fs.map Prod.fst ⊆ gs.map Prod.fst := by
            intro k hk
            obtain ⟨f, hf, rfl⟩ := List.mem_map.mp hk
            obtain ⟨s, hs, w, hw, -⟩ := hpaired f hf
            rw [hs]
            exact List.mem_map.mpr ⟨_, mem_of_find hw, rfl⟩
          rw [plainFields_iff]
          intro g hg
          obtain ⟨f, hf, hkey⟩ := List.mem_map.mp
            (keys_subset hformed.1 hlength hsubset (List.mem_map_of_mem hg))
          obtain ⟨s, hs, w, hw, hplain⟩ := hpaired f hf
          obtain ⟨k, z⟩ := g
          dsimp only at hkey
          rw [hkey] at hs
          subst hs
          rw [find_of_mem hy.1 hg] at hw
          cases hw
          exact ⟨⟨s, rfl⟩, hplain⟩
      | _ => simp [eq] at h
theorem plain_of_eqItems : ∀ xs ys : List (PyObject σ), eqItems xs ys = true →
    plainItems xs = true → formedItems xs = true → formedItems ys = true → plainItems ys = true
  | [], [], _, _, _, _ => rfl
  | [], _ :: _, h, _, _, _ => by simp [eqItems] at h
  | _ :: _, [], h, _, _, _ => by simp [eqItems] at h
  | x :: xs, y :: ys, h, hx, hformed, hy => by
      simp only [eqItems, Bool.and_eq_true] at h
      simp only [plainItems, Bool.and_eq_true] at hx ⊢
      simp only [formedItems, Bool.and_eq_true] at hformed hy
      exact ⟨plain_of_eq x y h.1 hx.1 hformed.1 hy.1,
        plain_of_eqItems xs ys h.2 hx.2 hformed.2 hy.2⟩
theorem plain_of_eqFields : ∀ fs gs : Fields σ, eqFields fs gs = true → plainFields fs = true →
    formedFields fs = true → formedFields gs = true →
    ∀ f ∈ fs, ∃ s, f.1 = .str s ∧ ∃ w, find (.str s) gs = some w ∧ w.plain = true
  | [], _, _, _, _, _ => fun f hf => absurd hf List.not_mem_nil
  | (k, x) :: fs, gs, h, hx, hformed, hgs => by
      simp only [eqFields, Bool.and_eq_true, Option.any_eq_true] at h
      obtain ⟨⟨w, hw, heq⟩, hrest⟩ := h
      obtain ⟨⟨⟨s, hs⟩, hplain⟩, hfields⟩ := List.forall_mem_cons.mp (plainFields_iff.mp hx)
      simp only [formedFields, Bool.and_eq_true] at hformed
      dsimp only at hs hplain
      subst hs
      have hwformed := formedFields_iff.mp hgs _ (mem_of_find hw)
      refine List.forall_mem_cons.mpr ⟨⟨s, rfl, w, hw, ?_⟩, ?_⟩
      · exact plain_of_eq x w heq hplain hformed.1 hwformed
      · exact plain_of_eqFields fs gs hrest (plainFields_iff.mpr hfields) hformed.2 hgs
end

end Plain

end PyObject

end HccastWired.Foundation
