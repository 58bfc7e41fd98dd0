import HccastWired.Foundation.Json
import HccastWired.Foundation.Sha256

/-!
# Python values that JSON can hold

Numbers keep their type, and a comparison with a number that is not one is false.
-/

namespace HccastWired.Foundation

inductive Number
  | int (n : Int)
  | float (q : Rat)
  | infinite (negative : Bool)
  | nan
deriving DecidableEq

namespace Number

/-- The value of a finite number. -/
def toRat : Number → Option Rat
  | int n => some n
  | float q => some q
  | infinite _ => none
  | nan => none

/-- `math.isfinite`. -/
def isFinite (x : Number) : Bool :=
  x.toRat.isSome

/-- The first integer that has no nearest `float`. -/
def floatLimit : Nat := 2 ^ 1024 - 2 ^ 970

/-- `math.isfinite` raises `OverflowError`. -/
def overflows : Number → Bool
  | int n => floatLimit ≤ n.natAbs
  | _ => false

/-- The digits of an integer that the interpreter converts to text. -/
def maxDigits : Nat := 4300

/-- The number has a decimal text. -/
def printable : Number → Bool
  | int n => n.natAbs < 10 ^ maxDigits
  | x => x.isFinite

def le : Number → Number → Bool
  | nan, _ => false
  | _, nan => false
  | infinite true, _ => true
  | _, infinite false => true
  | infinite false, _ => false
  | _, infinite true => false
  | x, y => (x.toRat.getD 0) ≤ (y.toRat.getD 0)

/-- Python's `==`, which ignores the type. -/
def eq (x y : Number) : Bool :=
  x.le y && y.le x

def lt (x y : Number) : Bool :=
  x.le y && !y.le x

def add : Number → Number → Number
  | int m, int n => int (m + n)
  | nan, _ => nan
  | _, nan => nan
  | infinite a, infinite b => if a = b then infinite a else nan
  | infinite a, _ => infinite a
  | _, infinite b => infinite b
  | x, y => float (x.toRat.getD 0 + y.toRat.getD 0)

end Number

inductive PyValue
  | none
  | bool (b : Bool)
  | number (x : Number)
  | str (s : String)
  | list (items : List PyValue)
  | dict (fields : List (String × PyValue))

namespace PyValue

abbrev int (n : Int) : PyValue := number (.int n)

/-- `value.get(key)` of a dictionary; a value of another type has no keys. -/
def get (v : PyValue) (key : String) : Option PyValue :=
  match v with
  | dict fields => fields.lookup key
  | _ => .none

/-- `isinstance(value, dict) and set(value) == names`. -/
def hasKeys (v : PyValue) (names : List String) : Bool :=
  match v with
  | dict fields => fields.all (fun f => names.contains f.1) &&
      names.all fun name => (fields.map Prod.fst).contains name
  | _ => false

/-- `value == 1`. -/
def isOne : PyValue → Bool
  | bool b => b
  | number x => x.eq (.int 1)
  | _ => false

section DecEq

mutual
def decEq : (v w : PyValue) → Decidable (v = w)
  | none, none => isTrue rfl
  | bool a, bool b => decidable_of_iff (a = b) (by simp)
  | number x, number y => decidable_of_iff (x = y) (by simp)
  | str s, str t => decidable_of_iff (s = t) (by simp)
  | list vs, list ws => @decidable_of_iff _ (vs = ws) (by simp) (decEqItems vs ws)
  | dict vs, dict ws => @decidable_of_iff _ (vs = ws) (by simp) (decEqFields vs ws)
  | none, bool _ | none, number _ | none, str _ | none, list _ | none, dict _
  | bool _, none | bool _, number _ | bool _, str _ | bool _, list _ | bool _, dict _
  | number _, none | number _, bool _ | number _, str _ | number _, list _ | number _, dict _
  | str _, none | str _, bool _ | str _, number _ | str _, list _ | str _, dict _
  | list _, none | list _, bool _ | list _, number _ | list _, str _ | list _, dict _
  | dict _, none | dict _, bool _ | dict _, number _ | dict _, str _ | dict _, list _ =>
      isFalse nofun
def decEqItems : (vs ws : List PyValue) → Decidable (vs = ws)
  | [], [] => isTrue rfl
  | v :: vs, w :: ws => @decidable_of_iff _ (v = w ∧ vs = ws) (by simp)
      (@instDecidableAnd _ _ (decEq v w) (decEqItems vs ws))
  | [], _ :: _ | _ :: _, [] => isFalse nofun
def decEqFields : (vs ws : List (String × PyValue)) → Decidable (vs = ws)
  | [], [] => isTrue rfl
  | (k, v) :: vs, (l, w) :: ws => @decidable_of_iff _ (k = l ∧ v = w ∧ vs = ws) (by simp [and_assoc])
      (@instDecidableAnd _ _ _ (@instDecidableAnd _ _ (decEq v w) (decEqFields vs ws)))
  | [], _ :: _ | _ :: _, [] => isFalse nofun
end

instance : DecidableEq PyValue := decEq

end DecEq

mutual
/-- No dictionary of the value repeats a key. -/
def unique : PyValue → Bool
  | list items => uniqueItems items
  | dict fields => (fields.map Prod.fst).Nodup && uniqueFields fields
  | _ => true
def uniqueItems : List PyValue → Bool
  | [] => true
  | v :: items => v.unique && uniqueItems items
def uniqueFields : List (String × PyValue) → Bool
  | [] => true
  | (_, v) :: fields => v.unique && uniqueFields fields
end

mutual
/-- Every number of the value has a decimal text. -/
def printable : PyValue → Bool
  | number x => x.printable
  | list items => printableItems items
  | dict fields => printableFields fields
  | _ => true
def printableItems : List PyValue → Bool
  | [] => true
  | v :: items => v.printable && printableItems items
def printableFields : List (String × PyValue) → Bool
  | [] => true
  | (_, v) :: fields => v.printable && printableFields fields
end

section Fields

variable {fields : List (String × Option PyValue)} {key : String}

/-- The dictionary of the fields that are there. -/
def ofFields (fields : List (String × Option PyValue)) : PyValue :=
  .dict (fields.filterMap fun f => f.2.map (Prod.mk f.1))

/-- `value[key]`, where it has to be a `str`. -/
def text (v : PyValue) (key : String) : Option String :=
  match v.get key with
  | some (.str s) => some s
  | _ => .none

/-- `value[key]`, where its type has to be `int`. -/
def integer (v : PyValue) (key : String) : Option Int :=
  match v.get key with
  | some (.number (.int n)) => some n
  | _ => .none

/-- `value[key]`, where its type has to be `int` or `float`. -/
def numeric (v : PyValue) (key : String) : Option Number :=
  match v.get key with
  | some (.number x) => some x
  | _ => .none

theorem lookup_filterMap_none (h : key ∉ fields.map Prod.fst) :
    (fields.filterMap fun f => f.2.map (Prod.mk f.1)).lookup key = Option.none := by
  rw [List.lookup_eq_none_iff]
  intro p hp
  obtain ⟨f, hf, hfp⟩ := List.mem_filterMap.mp hp
  obtain ⟨v, -, rfl⟩ := Option.map_eq_some_iff.mp hfp
  simp only [bne_iff_ne, ne_eq]
  rintro rfl
  exact h (List.mem_map.mpr ⟨f, hf, rfl⟩)

/-- With no repeated name, a field is read back as it was given. -/
theorem get_ofFields (h : (fields.map Prod.fst).Nodup) :
    (ofFields fields).get key = (fields.lookup key).join := by
  simp only [ofFields, get]
  induction fields with
  | nil => rfl
  | cons f rest ih =>
      obtain ⟨hfresh, hrest⟩ := List.nodup_cons.mp h
      obtain ⟨name, value⟩ := f
      by_cases hkey : key = name
      · subst hkey
        cases value with
        | none => simpa [List.lookup] using lookup_filterMap_none hfresh
        | some v => simp
      · have hne : (key == name) = false := by simpa using hkey
        cases value with
        | none => simpa [List.lookup, hne] using ih hrest
        | some v => simpa [List.lookup, hne] using ih hrest

theorem ofFields_unique (h : (fields.map Prod.fst).Nodup)
    (hvalues : ∀ f ∈ fields, ∀ v, f.2 = some v → v.unique = true) :
    (ofFields fields).unique = true := by
  have hnames : ((fields.filterMap fun f => f.2.map (Prod.mk f.1)).map Prod.fst).Nodup := by
    refine List.Sublist.nodup ?_ h
    induction fields with
    | nil => exact List.Sublist.slnil
    | cons f rest ih =>
        obtain ⟨-, hrest⟩ := List.nodup_cons.mp h
        have hsub := ih hrest fun f hf => hvalues f (List.mem_cons_of_mem _ hf)
        obtain ⟨name, value⟩ := f
        cases value with
        | none => simpa using hsub.cons name
        | some v => simpa using hsub
  have hfields : uniqueFields (fields.filterMap fun f => f.2.map (Prod.mk f.1)) = true := by
    clear h hnames
    induction fields with
    | nil => rfl
    | cons f rest ih =>
        obtain ⟨hf, hrest⟩ := List.forall_mem_cons.mp hvalues
        obtain ⟨name, value⟩ := f
        cases value with
        | none => simpa using ih hrest
        | some v => simpa [uniqueFields, hf v rfl] using ih hrest
  simp only [ofFields, unique, hnames, hfields, decide_true, Bool.and_self]

end Fields

end PyValue

/-- The text of an exception. -/
abbrev Message := { text : String // text ≠ "" }

/-- What `json.loads` raises: `ValueError`, or `RecursionError` for a text that is nested
too deeply. -/
inductive JsonError
  | value (message : Message)
  | recursion
deriving DecidableEq

/-- `json.dumps` without NaN, `json.loads`, and a digest that tells two texts apart. -/
structure Encoding where
  dumps : PyValue → Option Bytes
  loads : Bytes → Except JsonError PyValue
  sha256 : Bytes → String
  dumps_printable : ∀ v, v.printable = true → ∃ raw, dumps v = some raw
  loads_dumps : ∀ v raw, v.unique = true → dumps v = some raw → loads raw = .ok v
  sha256_injective : Function.Injective sha256

section Tagged

namespace PyValue

def chars (s : String) : List Json :=
  s.toList.map fun c => Json.int c.toNat

def charOf : Json → Option Char
  | .int n => some (Char.ofNat n.toNat)
  | _ => .none

def ofChars (codes : List Json) : Option String :=
  (codes.mapM charOf).map String.ofList

mutual
/-- The value as nested arrays of numbers, each led by the number of its type. -/
def tagged : PyValue → Json
  | none => .arr [.int 0]
  | bool b => .arr [.int 1, .bool b]
  | number (.int n) => .arr [.int 2, .int n]
  | number (.float q) => .arr [.int 3, .int q.num, .int q.den]
  | number (.infinite negative) => .arr [.int 4, .bool negative]
  | number .nan => .arr [.int 5]
  | str s => .arr (.int 6 :: chars s)
  | list items => .arr (.int 7 :: taggedItems items)
  | dict fields => .arr (.int 8 :: taggedFields fields)
def taggedItems : List PyValue → List Json
  | [] => []
  | v :: items => v.tagged :: taggedItems items
def taggedFields : List (String × PyValue) → List Json
  | [] => []
  | (k, v) :: fields => .arr (chars k) :: v.tagged :: taggedFields fields
end

mutual
def untagged : Json → Option PyValue
  | .arr [.int 0] => some none
  | .arr [.int 1, .bool b] => some (bool b)
  | .arr [.int 2, .int n] => some (number (.int n))
  | .arr [.int 3, .int n, .int d] => some (number (.float (mkRat n d.toNat)))
  | .arr [.int 4, .bool negative] => some (number (.infinite negative))
  | .arr [.int 5] => some (number .nan)
  | .arr (.int 6 :: codes) => (ofChars codes).map str
  | .arr (.int 7 :: items) => (untaggedItems items).map list
  | .arr (.int 8 :: fields) => (untaggedFields fields).map dict
  | _ => .none
def untaggedItems : List Json → Option (List PyValue)
  | [] => some []
  | j :: items => (untagged j).bind fun v => (untaggedItems items).map (v :: ·)
def untaggedFields : List Json → Option (List (String × PyValue))
  | [] => some []
  | .arr k :: j :: fields => (ofChars k).bind fun k => (untagged j).bind fun v =>
      (untaggedFields fields).map ((k, v) :: ·)
  | _ => .none
end

theorem ofChars_chars (s : String) : ofChars (chars s) = some s := by
  have hmap : ∀ cs : List Char, (cs.map fun c => Json.int c.toNat).mapM charOf = some cs := by
    intro cs
    induction cs with
    | nil => rfl
    | cons c cs ih => simp [charOf, ih]
  simp [ofChars, chars, hmap]

mutual
theorem untagged_tagged : ∀ v : PyValue, untagged v.tagged = some v
  | none => by rw [tagged, untagged]
  | bool b => by rw [tagged, untagged]
  | number (.int n) => by rw [tagged, untagged]
  | number (.float q) => by
      rw [tagged, untagged]
      simp [Rat.mkRat_self]
  | number (.infinite negative) => by rw [tagged, untagged]
  | number .nan => by rw [tagged, untagged]
  | str s => by simp [tagged, untagged, ofChars_chars]
  | list items => by simp [tagged, untagged, untaggedItems_tagged items]
  | dict fields => by simp [tagged, untagged, untaggedFields_tagged fields]
theorem untaggedItems_tagged : ∀ items : List PyValue,
    untaggedItems (taggedItems items) = some items
  | [] => rfl
  | v :: items => by
      simp [taggedItems, untaggedItems, untagged_tagged v, untaggedItems_tagged items]
theorem untaggedFields_tagged : ∀ fields : List (String × PyValue),
    untaggedFields (taggedFields fields) = some fields
  | [] => rfl
  | (k, v) :: fields => by
      simp [taggedFields, untaggedFields, ofChars_chars, untagged_tagged v,
        untaggedFields_tagged fields]
end

theorem plainItems_chars (cs : List Char) :
    Json.plainItems (cs.map fun c => Json.int c.toNat) = true := by
  induction cs with
  | nil => rfl
  | cons c cs ih => simp [Json.plainItems, Json.plain, ih]

mutual
theorem tagged_plain : ∀ v : PyValue, v.tagged.plain = true
  | none | bool _ | number (.int _) | number (.float _) | number (.infinite _) | number .nan => by
      simp [tagged, Json.plain, Json.plainItems]
  | str s => by simp [tagged, Json.plain, Json.plainItems, chars, plainItems_chars]
  | list items => by simp [tagged, Json.plain, Json.plainItems, taggedItems_plain items]
  | dict fields => by simp [tagged, Json.plain, Json.plainItems, taggedFields_plain fields]
theorem taggedItems_plain : ∀ items : List PyValue, Json.plainItems (taggedItems items) = true
  | [] => rfl
  | v :: items => by
      simp [taggedItems, Json.plainItems, tagged_plain v, taggedItems_plain items]
theorem taggedFields_plain : ∀ fields : List (String × PyValue),
    Json.plainItems (taggedFields fields) = true
  | [] => rfl
  | (k, v) :: fields => by
      simp [taggedFields, Json.plainItems, Json.plain, chars, plainItems_chars, tagged_plain v,
        taggedFields_plain fields]
end

end PyValue

/-- Some encoding has the laws. -/
def Encoding.tagged : Encoding where
  dumps v := Json.asciiBytes v.tagged.dumps
  loads raw := (((Json.asciiText raw).bind Json.loads).bind PyValue.untagged).elim
    (.error (.value ⟨"Expecting value", by decide⟩)) .ok
  sha256 raw := String.ofList (Base64.encode raw)
  dumps_printable v _ := by
    obtain ⟨raw, hraw, -, -⟩ := Json.asciiText_asciiBytes (Json.dumps_ascii v.tagged v.tagged_plain)
    exact ⟨raw, hraw⟩
  loads_dumps v raw _ hraw := by
    obtain ⟨text, htext, -, hback⟩ :=
      Json.asciiText_asciiBytes (Json.dumps_ascii v.tagged v.tagged_plain)
    obtain rfl : text = raw := Option.some.inj (htext.symm.trans hraw)
    have hloads : Json.loads v.tagged.dumps = some v.tagged := by
      have hblank := @Json.loads_dumps _ v.tagged_plain [] rfl
      rwa [List.append_nil] at hblank
    simp [hback, hloads, PyValue.untagged_tagged]
  sha256_injective a b h := by
    apply Base64.encode_injective
    have hlist := congrArg String.toList h
    rwa [String.toList_ofList, String.toList_ofList] at hlist

theorem PyValue.tagged_head (v : PyValue) : ∃ cs, v.tagged.dumps = '[' :: cs := by
  cases v with
  | number x => cases x <;> exact ⟨_, by rw [tagged, Json.dumps]⟩
  | _ => exact ⟨_, by rw [tagged, Json.dumps]⟩

theorem Encoding.tagged_ne {v : PyValue} {raw : Bytes} (hraw : raw.head? = some 123) :
    tagged.dumps v ≠ some raw := by
  intro h
  obtain ⟨cs, hcs⟩ := v.tagged_head
  simp only [tagged, Json.asciiBytes, hcs] at h
  split at h
  · obtain rfl := Option.some.inj h
    simp at hraw
  · cases h

/-- An encoding that has a given text, and its digest, for one object. -/
def Encoding.sample (v : PyValue) (raw : Bytes) (hraw : raw.head? = some 123) : Encoding where
  dumps w := if w = v then some raw else tagged.dumps w
  loads text := if text = raw then .ok v else tagged.loads text
  sha256 text := if text = raw then Sha256.hexdigest raw else
    String.ofList ('=' :: Base64.encode text)
  dumps_printable w hw := by
    split
    · exact ⟨raw, rfl⟩
    · exact tagged.dumps_printable w hw
  loads_dumps w text hw htext := by
    split at htext
    · next heq =>
      obtain rfl := Option.some.inj htext
      rw [if_pos rfl, heq]
    · rw [if_neg fun heq => tagged_ne hraw (heq ▸ htext)]
      exact tagged.loads_dumps w text hw htext
  sha256_injective a b h := by
    have hne : ∀ cs, Sha256.hexdigest raw ≠ String.ofList ('=' :: cs) := by
      intro cs hcs
      have hmem := Sha256.hexdigest_mem raw '=' (by simp [hcs])
      revert hmem
      decide
    simp only at h
    split at h <;> split at h
    · next ha hb => rw [ha, hb]
    · exact absurd h (hne _)
    · exact absurd h.symm (hne _)
    · apply Base64.encode_injective
      have hlist := congrArg String.toList h
      simpa using hlist

theorem Encoding.sample_loads {v : PyValue} {raw : Bytes} (hraw : raw.head? = some 123) :
    (Encoding.sample v raw hraw).loads raw = .ok v :=
  if_pos rfl

theorem Encoding.sample_dumps {v : PyValue} {raw : Bytes} (hraw : raw.head? = some 123) :
    (Encoding.sample v raw hraw).dumps v = some raw :=
  if_pos rfl

end Tagged

end HccastWired.Foundation
