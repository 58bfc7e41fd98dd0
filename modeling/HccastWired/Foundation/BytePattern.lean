import HccastWired.Foundation.Base64

/-!
# Patterns over bytes

A pattern is a list of alternatives, each a sequence of atoms. Letters match in
either case. A pattern occurs in a text if one of its alternatives reads some part of it.
-/

namespace HccastWired.Foundation

/-- A position in a text: the bytes before it, the nearest first, and those after it. -/
structure Place where
  before : Bytes
  rest : Bytes

inductive Atom
  | oneOf (texts : List Bytes)
  | boundary
  | anything
  | digits

/-- The bytes of an ASCII text. -/
def ascii (text : String) : Bytes :=
  text.toList.map fun c => UInt8.ofNat c.toNat

namespace BytePattern

def lower (b : UInt8) : UInt8 :=
  if 65 ≤ b ∧ b ≤ 90 then b + 32 else b

def isDigit (b : UInt8) : Bool :=
  48 ≤ b && b ≤ 57

/-- A letter, a digit or an underscore. -/
def isWord (b : UInt8) : Bool :=
  isDigit b || (97 ≤ lower b && lower b ≤ 122) || b = 95

end BytePattern

open BytePattern

/-- The atom reads these bytes at this place. -/
def Atom.accepts (p : Place) (taken : Bytes) : Atom → Bool
  | .oneOf texts => texts.any fun t => t.map lower = taken.map lower
  | .boundary => taken.isEmpty && p.before.head?.any isWord != p.rest.head?.any isWord
  | .anything => taken.all (· ≠ 10)
  | .digits => !taken.isEmpty && taken.all isDigit

def Place.after (p : Place) (n : Nat) : Place :=
  ⟨(p.rest.take n).reverse ++ p.before, p.rest.drop n⟩

/-- The atoms, one after the other, read some bytes that follow the place. -/
def Reads : List Atom → Place → Prop
  | [], _ => True
  | a :: atoms, p => ∃ n ≤ p.rest.length, a.accepts p (p.rest.take n) = true ∧ Reads atoms (p.after n)

def readsAt : List Atom → Place → Bool
  | [], _ => true
  | a :: atoms, p =>
      (List.range (p.rest.length + 1)).any fun n =>
        a.accepts p (p.rest.take n) && readsAt atoms (p.after n)

theorem readsAt_iff (atoms : List Atom) (p : Place) : readsAt atoms p = true ↔ Reads atoms p := by
  induction atoms generalizing p with
  | nil => simp [readsAt, Reads]
  | cons a atoms ih => simp [readsAt, Reads, ih]

abbrev BytePattern := List (List Atom)

namespace BytePattern

def Occurs (pattern : BytePattern) (raw : Bytes) : Prop :=
  ∃ n ≤ raw.length, ∃ atoms ∈ pattern, Reads atoms (Place.after ⟨[], raw⟩ n)

/-- `re.search`. -/
def search (pattern : BytePattern) (raw : Bytes) : Bool :=
  (List.range (raw.length + 1)).any fun n =>
    pattern.any fun atoms => readsAt atoms (Place.after ⟨[], raw⟩ n)

theorem search_iff (pattern : BytePattern) (raw : Bytes) :
    pattern.search raw = true ↔ pattern.Occurs raw := by
  simp [search, Occurs, readsAt_iff]

example : search [[.boundary, .oneOf [ascii "mmc"], .anything, .boundary, .oneOf [ascii "error"]]]
    (ascii "xMMC mmc0: i/o Error\n") = true := by
  decide +kernel

end BytePattern

end HccastWired.Foundation
