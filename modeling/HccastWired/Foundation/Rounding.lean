import HccastWired.Foundation.Binary64

/-!
# Laws of rounding

Rounding to the nearest integer or to 53 significant bits keeps the order, and leaves a
number alone that needs no rounding.
-/

namespace HccastWired.Foundation

variable {p q : Rat} {n : Int}

theorem roundHalfEven_cases (q : Rat) :
    roundHalfEven q = q.floor ∧ q - q.floor ≤ 1 / 2 ∨
      roundHalfEven q = q.floor + 1 ∧ 1 / 2 ≤ q - q.floor := by
  unfold roundHalfEven
  dsimp only
  split
  · next h => exact Or.inl ⟨rfl, h.le⟩
  · next hlow =>
    split
    · next h => exact Or.inr ⟨rfl, h.le⟩
    · next hhigh =>
      split
      · exact Or.inl ⟨rfl, not_lt.mp hhigh⟩
      · exact Or.inr ⟨rfl, not_lt.mp hlow⟩

@[simp] theorem roundHalfEven_intCast (n : Int) : roundHalfEven n = n := by
  obtain ⟨h, -⟩ | ⟨-, h⟩ := roundHalfEven_cases (n : Rat)
  · rw [h, Rat.floor_intCast]
  · rw [Rat.floor_intCast, sub_self] at h
    norm_num at h

theorem floor_le_roundHalfEven (q : Rat) : q.floor ≤ roundHalfEven q := by
  obtain ⟨h, -⟩ | ⟨h, -⟩ := roundHalfEven_cases q <;> omega

theorem roundHalfEven_le_floor (q : Rat) : roundHalfEven q ≤ q.floor + 1 := by
  obtain ⟨h, -⟩ | ⟨h, -⟩ := roundHalfEven_cases q <;> omega

theorem roundHalfEven_mono (h : p ≤ q) : roundHalfEven p ≤ roundHalfEven q := by
  have hfloor : p.floor ≤ q.floor := Rat.floor_monotone h
  obtain hlt | heq := hfloor.lt_or_eq
  · calc
      roundHalfEven p ≤ p.floor + 1 := roundHalfEven_le_floor p
      _ ≤ q.floor := hlt
      _ ≤ roundHalfEven q := floor_le_roundHalfEven q
  · obtain ⟨hp, -⟩ | ⟨hp, hhalf⟩ := roundHalfEven_cases p
    · rw [hp, heq]
      exact floor_le_roundHalfEven q
    · obtain ⟨hq, hrest⟩ | ⟨hq, -⟩ := roundHalfEven_cases q
      · have hpq : p = q := by
          rw [heq] at hhalf
          linarith
        rw [hpq]
      · rw [hp, hq, heq]

theorem roundHalfEven_le (h : q ≤ n) : roundHalfEven q ≤ n :=
  (roundHalfEven_mono h).trans_eq (roundHalfEven_intCast n)

theorem le_roundHalfEven (h : n ≤ q) : n ≤ roundHalfEven q :=
  (roundHalfEven_intCast n).symm.trans_le (roundHalfEven_mono h)

/-- The powers of two around a quotient. -/
theorem log2_div_bounds {n d : Nat} (hn : n ≠ 0) (hd : d ≠ 0) :
    (2 : Rat) ^ ((Nat.log2 n : Int) - Nat.log2 d - 1) ≤ (n : Rat) / d ∧
      (n : Rat) / d < (2 : Rat) ^ ((Nat.log2 n : Int) - Nat.log2 d + 1) := by
  have hbounds : ∀ {n : Nat}, n ≠ 0 →
      (2 : Rat) ^ (Nat.log2 n : Int) ≤ n ∧ (n : Rat) < (2 : Rat) ^ ((Nat.log2 n : Int) + 1) := by
    intro n hn
    constructor
    · exact_mod_cast Nat.log2_self_le hn
    · exact_mod_cast Nat.lt_log2_self
  obtain ⟨hnLow, hnHigh⟩ := hbounds hn
  obtain ⟨hdLow, hdHigh⟩ := hbounds hd
  have hpos : (0 : Rat) < d := Nat.cast_pos.mpr (Nat.pos_of_ne_zero hd)
  constructor
  · rw [le_div_iff₀ hpos]
    calc
      _ ≤ (2 : Rat) ^ ((Nat.log2 n : Int) - Nat.log2 d - 1) * (2 : Rat) ^ ((Nat.log2 d : Int) + 1) := by
        gcongr
      _ = (2 : Rat) ^ (Nat.log2 n : Int) := by
        rw [← zpow_add₀ two_ne_zero]
        congr 1
        ring
      _ ≤ n := hnLow
  · rw [div_lt_iff₀ hpos]
    calc
      (n : Rat) < (2 : Rat) ^ ((Nat.log2 n : Int) + 1) := hnHigh
      _ = (2 : Rat) ^ ((Nat.log2 n : Int) - Nat.log2 d + 1) * (2 : Rat) ^ (Nat.log2 d : Int) := by
        rw [← zpow_add₀ two_ne_zero]
        congr 1
        ring
      _ ≤ _ := by gcongr

/-- The power of two below a positive number. -/
theorem binaryExponent_spec (h : 0 < q) :
    (2 : Rat) ^ binaryExponent q ≤ q ∧ q < (2 : Rat) ^ (binaryExponent q + 1) := by
  have hnum : 0 < q.num := Rat.num_pos.mpr h
  have hvalue : (q.num.natAbs : Rat) / q.den = q := by
    have habs : (q.num.natAbs : Rat) = q.num := by
      rw [← Int.cast_natCast, Int.natAbs_of_nonneg hnum.le]
    rw [habs]
    exact Rat.num_div_den q
  obtain ⟨hlow, hhigh⟩ := log2_div_bounds (Int.natAbs_ne_zero.mpr hnum.ne') q.den_pos.ne'
  rw [hvalue] at hlow hhigh
  unfold binaryExponent
  dsimp only
  split
  · next hle => exact ⟨hle, hhigh⟩
  · next hlt =>
    rw [sub_add_cancel]
    exact ⟨hlow, not_le.mp hlt⟩

theorem binaryExponent_mono (hp : 0 < p) (h : p ≤ q) : binaryExponent p ≤ binaryExponent q := by
  have hlow := (binaryExponent_spec hp).1
  have hhigh := (binaryExponent_spec (hp.trans_le h)).2
  have hpow : (2 : Rat) ^ binaryExponent p < (2 : Rat) ^ (binaryExponent q + 1) :=
    (hlow.trans h).trans_lt hhigh
  have hlt := (zpow_lt_zpow_iff_right₀ (one_lt_two)).mp hpow
  omega

/-- The unit in the last of the 53 places. -/
def lastPlace (q : Rat) : Rat := (2 : Rat) ^ (binaryExponent q - 52)

theorem lastPlace_pos (q : Rat) : 0 < lastPlace q :=
  zpow_pos two_pos _

theorem roundBinary64_zero : roundBinary64 0 = 0 := rfl

/-- A positive number is rounded to a multiple of the unit in its last place. -/
theorem roundBinary64_of_pos (h : 0 < q) :
    roundBinary64 q = roundHalfEven (q / lastPlace q) * lastPlace q := by
  have hscale : (2 : Rat) ^ (52 - binaryExponent q) = (lastPlace q)⁻¹ := by
    rw [lastPlace, ← zpow_neg]
    congr 1
    ring
  rw [roundBinary64, if_neg h.ne', abs_of_pos h, if_neg h.not_gt, hscale, div_inv_eq_mul,
    ← div_eq_mul_inv]

theorem roundBinary64_neg (q : Rat) : roundBinary64 (-q) = -roundBinary64 q := by
  obtain hlt | rfl | hgt := lt_trichotomy q 0
  · rw [roundBinary64, roundBinary64, if_neg (neg_ne_zero.mpr hlt.ne), if_neg hlt.ne, abs_neg,
      if_pos hlt, if_neg (neg_pos.mpr hlt).not_gt, neg_neg]
  · rw [neg_zero, roundBinary64_zero, neg_zero]
  · rw [roundBinary64, roundBinary64, if_neg (neg_ne_zero.mpr hgt.ne'), if_neg hgt.ne', abs_neg,
      if_neg hgt.not_gt, if_pos (neg_lt_zero.mpr hgt)]

theorem two_pow_mul_lastPlace (k : Nat) (q : Rat) :
    ((2 ^ k : Int) : Rat) * lastPlace q = (2 : Rat) ^ (binaryExponent q - 52 + k) := by
  rw [lastPlace, Int.cast_pow, Int.cast_ofNat, ← zpow_natCast, ← zpow_add₀ two_ne_zero, add_comm]

/-- The rounded significand has 53 bits, or is the next power of two. -/
theorem significand_bounds (h : 0 < q) :
    2 ^ 52 ≤ roundHalfEven (q / lastPlace q) ∧ roundHalfEven (q / lastPlace q) ≤ 2 ^ 53 := by
  obtain ⟨hlow, hhigh⟩ := binaryExponent_spec h
  constructor
  · apply le_roundHalfEven
    rw [le_div_iff₀ (lastPlace_pos q), two_pow_mul_lastPlace]
    simpa using hlow
  · apply roundHalfEven_le
    rw [div_le_iff₀ (lastPlace_pos q), two_pow_mul_lastPlace,
      show binaryExponent q - 52 + (53 : Nat) = binaryExponent q + 1 by push_cast; ring]
    exact hhigh.le

/-- Rounding stays between the powers of two around a positive number. -/
theorem roundBinary64_bounds (h : 0 < q) :
    (2 : Rat) ^ binaryExponent q ≤ roundBinary64 q ∧
      roundBinary64 q ≤ (2 : Rat) ^ (binaryExponent q + 1) := by
  obtain ⟨hlow, hhigh⟩ := significand_bounds h
  have hplace := (lastPlace_pos q).le
  rw [roundBinary64_of_pos h]
  constructor
  · calc
      (2 : Rat) ^ binaryExponent q = ((2 ^ 52 : Int) : Rat) * lastPlace q := by
        rw [two_pow_mul_lastPlace]
        congr 1
        push_cast
        ring
      _ ≤ _ := mul_le_mul_of_nonneg_right (Int.cast_le.mpr hlow) hplace
  · calc
      _ ≤ ((2 ^ 53 : Int) : Rat) * lastPlace q := mul_le_mul_of_nonneg_right (Int.cast_le.mpr hhigh) hplace
      _ = (2 : Rat) ^ (binaryExponent q + 1) := by
        rw [two_pow_mul_lastPlace]
        congr 1
        push_cast
        ring

theorem roundBinary64_pos (h : 0 < q) : 0 < roundBinary64 q :=
  (zpow_pos two_pos _).trans_le (roundBinary64_bounds h).1

theorem roundBinary64_nonneg (h : 0 ≤ q) : 0 ≤ roundBinary64 q := by
  obtain rfl | h := h.eq_or_lt
  · rfl
  · exact (roundBinary64_pos h).le

theorem roundBinary64_mono_pos (hp : 0 < p) (h : p ≤ q) : roundBinary64 p ≤ roundBinary64 q := by
  have hq := hp.trans_le h
  obtain hlt | heq := (binaryExponent_mono hp h).lt_or_eq
  · calc
      roundBinary64 p ≤ (2 : Rat) ^ (binaryExponent p + 1) := (roundBinary64_bounds hp).2
      _ ≤ (2 : Rat) ^ binaryExponent q := zpow_le_zpow_right₀ one_le_two hlt
      _ ≤ roundBinary64 q := (roundBinary64_bounds hq).1
  · have hplace : lastPlace p = lastPlace q := by rw [lastPlace, lastPlace, heq]
    rw [roundBinary64_of_pos hp, roundBinary64_of_pos hq, hplace]
    apply mul_le_mul_of_nonneg_right _ (lastPlace_pos q).le
    apply Int.cast_le.mpr
    apply roundHalfEven_mono
    exact div_le_div_of_nonneg_right h (lastPlace_pos q).le

theorem roundBinary64_mono (h : p ≤ q) : roundBinary64 p ≤ roundBinary64 q := by
  obtain hp | hp := lt_or_ge 0 p
  · exact roundBinary64_mono_pos hp h
  · obtain hq | hq := lt_or_ge q 0
    · rw [← neg_neg p, ← neg_neg q, roundBinary64_neg, roundBinary64_neg (-q)]
      exact neg_le_neg (roundBinary64_mono_pos (neg_pos.mpr hq) (neg_le_neg h))
    · have hneg : roundBinary64 p ≤ 0 := by
        rw [← neg_neg p, roundBinary64_neg]
        exact neg_nonpos.mpr (roundBinary64_nonneg (neg_nonneg.mpr hp))
      exact hneg.trans (roundBinary64_nonneg hq)

theorem abs_roundBinary64 (q : Rat) : |roundBinary64 q| = roundBinary64 |q| := by
  obtain h | h := le_total 0 q
  · rw [abs_of_nonneg h, abs_of_nonneg (roundBinary64_nonneg h)]
  · have hneg := roundBinary64_nonneg (neg_nonneg.mpr h)
    rw [abs_of_nonpos h, ← abs_neg, ← roundBinary64_neg, abs_of_nonneg hneg]

end HccastWired.Foundation
