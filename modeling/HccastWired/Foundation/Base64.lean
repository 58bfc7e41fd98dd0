import Mathlib

/-!
# Base64

The standard alphabet with padding: three bytes are four characters.
-/

namespace HccastWired.Foundation

abbrev Bytes := List UInt8

namespace Base64

def alphabet : List Char :=
  "ABCDEFGHIJKLMNOPQRSTUVWXYZabcdefghijklmnopqrstuvwxyz0123456789+/".toList

def digit (n : Nat) : Char :=
  alphabet.getD (n % 64) '='

def value (c : Char) : Option Nat :=
  alphabet.findIdx? (· = c)

def encode : Bytes → List Char
  | [] => []
  | [x] =>
      let n := x.toNat * 65536
      [digit (n / 262144), digit (n / 4096), '=', '=']
  | [x, y] =>
      let n := x.toNat * 65536 + y.toNat * 256
      [digit (n / 262144), digit (n / 4096), digit (n / 64), '=']
  | x :: y :: z :: rest =>
      let n := x.toNat * 65536 + y.toNat * 256 + z.toNat
      digit (n / 262144) :: digit (n / 4096) :: digit (n / 64) :: digit n :: encode rest

/-- Padding ends the text; spare bits of the last digit are dropped. -/
def decode : List Char → Option Bytes
  | [] => some []
  | a :: b :: c :: d :: rest =>
      (value a).bind fun i => (value b).bind fun j =>
        if c = '=' then
          if d = '=' ∧ rest = [] then some [UInt8.ofNat (i * 4 + j / 16)] else none
        else (value c).bind fun k =>
          if d = '=' then
            if rest = [] then some [UInt8.ofNat (i * 4 + j / 16), UInt8.ofNat (j * 16 + k / 4)]
            else none
          else (value d).bind fun l => (decode rest).map fun bytes =>
            UInt8.ofNat (i * 4 + j / 16) :: UInt8.ofNat (j * 16 + k / 4) ::
              UInt8.ofNat (k * 64 + l) :: bytes
  | _ => none

theorem digit_all : ∀ n < 64, value (digit n) = some n ∧ digit n ≠ '=' := by
  decide +kernel

theorem digit_mod (n : Nat) : digit (n % 64) = digit n := by
  simp [digit]

@[simp] theorem value_digit (n : Nat) : value (digit n) = some (n % 64) := by
  rw [← digit_mod]
  exact (digit_all (n % 64) (Nat.mod_lt n (by decide))).1

@[simp] theorem digit_ne (n : Nat) : digit n ≠ '=' := by
  rw [← digit_mod]
  exact (digit_all (n % 64) (Nat.mod_lt n (by decide))).2

theorem ofNat_eq {x : UInt8} {n : Nat} (h : n % 256 = x.toNat) : UInt8.ofNat n = x := by
  apply UInt8.toNat_inj.mp
  simpa using h

theorem decode_encoded (bytes : Bytes) : decode (encode bytes) = some bytes := by
  fun_induction encode bytes with
  | case1 => rfl
  | case2 x n =>
      have hx := x.toNat_lt
      simp only [decode, value_digit, Option.bind_some, if_true, and_self]
      rw [ofNat_eq (x := x) (by omega)]
  | case3 x y n =>
      have hx := x.toNat_lt
      have hy := y.toNat_lt
      simp only [decode, value_digit, Option.bind_some, digit_ne, if_false, if_true]
      rw [ofNat_eq (x := x) (by omega), ofNat_eq (x := y) (by omega)]
  | case4 x y z rest n ih =>
      have hx := x.toNat_lt
      have hy := y.toNat_lt
      have hz := z.toNat_lt
      simp only [decode, value_digit, Option.bind_some, digit_ne, if_false, ih, Option.map_some]
      rw [ofNat_eq (x := x) (by omega), ofNat_eq (x := y) (by omega), ofNat_eq (x := z) (by omega)]

theorem encode_injective : Function.Injective encode := by
  intro a b h
  have hdecode := decode_encoded a
  rw [h, decode_encoded b] at hdecode
  exact (Option.some.inj hdecode).symm

theorem encode_length (bytes : Bytes) : (encode bytes).length = 4 * ((bytes.length + 2) / 3) := by
  fun_induction encode bytes with
  | case1 => rfl
  | case2 => simp
  | case3 => simp
  | case4 x y z rest n ih =>
      simp only [List.length_cons, ih]
      omega

theorem digit_mem (n : Nat) : digit n ∈ '=' :: alphabet := by
  rw [← digit_mod]
  exact (by decide +kernel : ∀ n < 64, digit n ∈ '=' :: alphabet) (n % 64)
    (Nat.mod_lt n (by decide))

theorem mem_encode (bytes : Bytes) : ∀ c ∈ encode bytes, c ∈ '=' :: alphabet := by
  have hpad : '=' ∈ '=' :: alphabet := List.mem_cons_self
  fun_induction encode bytes with
  | case1 => exact List.forall_mem_nil _
  | case2 x n =>
      simp only [List.forall_mem_cons]
      exact ⟨digit_mem _, digit_mem _, hpad, hpad, List.forall_mem_nil _⟩
  | case3 x y n =>
      simp only [List.forall_mem_cons]
      exact ⟨digit_mem _, digit_mem _, digit_mem _, hpad, List.forall_mem_nil _⟩
  | case4 x y z rest n ih =>
      simp only [List.forall_mem_cons]
      exact ⟨digit_mem _, digit_mem _, digit_mem _, digit_mem _, ih⟩

end Base64

end HccastWired.Foundation
