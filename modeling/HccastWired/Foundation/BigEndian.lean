import Mathlib

/-!
# Big-endian words

Fixed-width unsigned words as byte lists, most significant byte first.
-/

namespace HccastWired.Foundation.BigEndian

/-- The number whose base-256 digits are the given bytes. -/
def ofBytes (bytes : List UInt8) : Nat :=
  bytes.foldl (fun n b => n * 256 + b.toNat) 0

/-- The lowest `k` bytes of a number. -/
def toBytes : Nat → Nat → List UInt8
  | 0, _ => []
  | k + 1, n => toBytes k (n / 256) ++ [UInt8.ofNat n]

@[simp] theorem length_toBytes (k n : Nat) : (toBytes k n).length = k := by
  induction k generalizing n with
  | zero => rfl
  | succ k ih => simp [toBytes, ih]

theorem ofBytes_append_singleton (bytes : List UInt8) (b : UInt8) :
    ofBytes (bytes ++ [b]) = ofBytes bytes * 256 + b.toNat := by
  simp [ofBytes, List.foldl_append]

theorem ofBytes_toBytes (k n : Nat) (h : n < 256 ^ k) : ofBytes (toBytes k n) = n := by
  induction k generalizing n with
  | zero =>
      have : n = 0 := by simpa using h
      subst n
      rfl
  | succ k ih =>
      have hdiv : n / 256 < 256 ^ k := by
        apply Nat.div_lt_of_lt_mul
        simpa [Nat.pow_succ, Nat.mul_comm] using h
      have hbyte : (UInt8.ofNat n).toNat = n % 256 := by simp
      rw [toBytes, ofBytes_append_singleton, ih _ hdiv, hbyte]
      omega

theorem ofBytes_lt (bytes : List UInt8) : ofBytes bytes < 256 ^ bytes.length := by
  induction bytes using List.reverseRecOn with
  | nil => simp [ofBytes]
  | append_singleton bytes b ih =>
      rw [ofBytes_append_singleton, List.length_append, List.length_singleton, Nat.pow_succ]
      have hb : b.toNat < 256 := b.toNat_lt
      omega

theorem toBytes_ofBytes (bytes : List UInt8) : toBytes bytes.length (ofBytes bytes) = bytes := by
  induction bytes using List.reverseRecOn with
  | nil => rfl
  | append_singleton bytes b ih =>
      have hb : b.toNat < 256 := b.toNat_lt
      have hdiv : (ofBytes bytes * 256 + b.toNat) / 256 = ofBytes bytes := by omega
      have hbyte : UInt8.ofNat (ofBytes bytes * 256 + b.toNat) = b := by
        have hmod : ∀ n, (UInt8.ofNat n).toNat = n % 256 := by simp
        apply UInt8.toNat_inj.mp
        rw [hmod]
        omega
      rw [ofBytes_append_singleton, List.length_append, List.length_singleton, toBytes, hdiv, hbyte, ih]

end HccastWired.Foundation.BigEndian
