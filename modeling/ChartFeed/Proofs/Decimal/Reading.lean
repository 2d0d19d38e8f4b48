import ChartFeed.Proofs.Decimal.Operations

/-!
# Decimals are read exactly

* `Double.isNearest_ofScientific` : whole digits under a power of ten become the nearest double, by
  one operation on two exact doubles where both are, else by one long division or multiplication.
* `Decimal.isNearest_toFloat` : a decimal becomes the nearest double, however far its power reaches.
* `Numeral.Denotes` : the double that a numeral denotes; `Numeral.denotes_iff` says that it is the
  value.
-/

namespace ChartFeed

namespace Double

open Float.Model Float.Model.UnpackedFloat

/-! ## Digits under a power of ten -/

theorem ceiling_le_pow {k : Nat} (hk : 310 ≤ k) : ceiling ≤ 10 ^ k := by
  have hnat : 2 ^ 1024 ≤ 10 ^ 310 := by decide +kernel
  calc ceiling ≤ 2 ^ 53 * 2 ^ (971 : ℤ) :=
        mul_le_mul_of_nonneg_right (by norm_num) (by positivity)
    _ = 2 ^ 1024 := by rw [← zpow_natCast, ← zpow_add₀ two_ne_zero, ← zpow_natCast]; rfl
    _ ≤ 10 ^ 310 := by exact_mod_cast hnat
    _ ≤ 10 ^ k := pow_le_pow_right₀ (by norm_num) hk

theorem inv_pow_le {k : Nat} (hk : 331 ≤ k) : ((10 : ℚ) ^ k)⁻¹ ≤ 2 ^ (-1075 : ℤ) := by
  have hnat : 2 ^ 1075 ≤ 10 ^ 331 := by decide +kernel
  rw [zpow_neg]
  refine inv_anti₀ (by positivity) ?_
  calc (2 : ℚ) ^ (1075 : ℤ) = 2 ^ 1075 := zpow_natCast 2 1075
    _ ≤ 10 ^ 331 := by exact_mod_cast hnat
    _ ≤ 10 ^ k := pow_le_pow_right₀ (by norm_num) hk

theorem isNearest_of_large {m w : Nat} (hw : 10 ^ w ≤ m) {e : ℤ} (he : 310 ≤ w + e) :
    IsNearest (1.0 / 0.0) (m * 10 ^ e) := by
  refine isNearest_infinity ?_
  have hpos : (0 : ℚ) < 10 ^ e := by positivity
  calc ceiling ≤ 10 ^ (w + e).toNat := ceiling_le_pow (by omega)
    _ = 10 ^ w * 10 ^ e := by
      rw [← zpow_natCast, ← zpow_natCast, ← zpow_add₀ (by norm_num), Int.toNat_of_nonneg (by omega)]
    _ ≤ m * 10 ^ e := mul_le_mul_of_nonneg_right (by exact_mod_cast hw) hpos.le

theorem isNearest_of_small {m w : Nat} (hw : m ≤ 10 ^ w) {e : ℤ} (he : w + e ≤ -331) :
    IsNearest 0.0 (m * 10 ^ e) := by
  refine isNearest_zero (by positivity) ?_
  have hpos : (0 : ℚ) < 10 ^ e := by positivity
  calc (m : ℚ) * 10 ^ e ≤ 10 ^ w * 10 ^ e :=
        mul_le_mul_of_nonneg_right (by exact_mod_cast hw) hpos.le
    _ = (10 ^ (-(w + e)).toNat)⁻¹ := by
      rw [← zpow_natCast, ← zpow_natCast, ← zpow_add₀ (by norm_num), ← zpow_neg,
        Int.toNat_of_nonneg (by omega), neg_neg]
    _ ≤ 2 ^ (-1075 : ℤ) := inv_pow_le (by omega)

theorem ten_zpow_of_nonneg {e : ℤ} (he : 0 ≤ e) : (10 : ℚ) ^ e = 10 ^ e.natAbs := by
  rw [← zpow_natCast, Int.natAbs_of_nonneg he]

theorem ten_zpow_of_neg {e : ℤ} (he : e < 0) : (10 : ℚ) ^ e = (10 ^ e.natAbs)⁻¹ := by
  rw [← zpow_natCast, ← zpow_neg, Int.ofNat_natAbs_of_nonpos he.le, neg_neg]

theorem isNearest_longProduct {m k : Nat} {h₁ : 0 < m <<< 53} {h₂ : 0 < 10 ^ k} (hm : 0 < m) :
    IsNearest (Float.ofModel (.pack (UnpackedFloat.mul Format.binary64
      (.finite .positive (m <<< 53) (-53) h₁) (.finite .positive (10 ^ k) 0 h₂))))
      (m * 10 ^ k) := by
  have hlong : 2 ^ 52 ≤ (m <<< 53) * 10 ^ k := by
    have hpower : 2 ^ 52 ≤ 2 ^ 53 := Nat.pow_le_pow_right (by decide) (by decide)
    rw [Nat.shiftLeft_eq, Nat.mul_assoc]
    calc 2 ^ 52 ≤ 2 ^ 53 * 10 ^ k := hpower.trans (Nat.le_mul_of_pos_right _ h₂)
      _ ≤ m * (2 ^ 53 * 10 ^ k) := Nat.le_mul_of_pos_left _ hm
  have hq : ((m <<< 53 : ℕ) * 2 ^ (-53 : ℤ)) * ((10 ^ k : ℕ) * 2 ^ (0 : ℤ)) =
      (m : ℚ) * 10 ^ k := by
    rw [Nat.shiftLeft_eq]
    push_cast
    ring
  rw [← hq]
  exact isNearest_mul hlong

theorem isNearest_longQuotient {m k : Nat} {h₁ : 0 < m} {h₂ : 0 < 10 ^ k} :
    IsNearest (Float.ofModel (.pack (UnpackedFloat.div Format.binary64
      (.finite .positive m 0 h₁) (.finite .positive (10 ^ k) 0 h₂)))) (m / 10 ^ k) := by
  have hq : ((m : ℚ) * 2 ^ (0 : ℤ)) / ((10 ^ k : ℕ) * 2 ^ (0 : ℤ)) = m / 10 ^ k := by
    push_cast
    ring
  rw [← hq]
  exact isNearest_div

theorem isNearest_model {m : Nat} (hm : 0 < m) (e : ℤ) :
    IsNearest (Float.ofModel (Float.Model.ofScientific m e)) (m * 10 ^ e) := by
  have hbits : (2 : ℤ) ^ Format.binary64.exponentBits = 2048 := by norm_num
  unfold Float.Model.ofScientific UnpackedFloat.ofScientific
  rw [dif_neg hm.ne', hbits]
  split
  · exact isNearest_of_large (w := 0) hm (by omega)
  split
  · have hwidth : m ≤ 10 ^ (m.log2 + 1) :=
      Nat.lt_log2_self.le.trans (Nat.pow_le_pow_left (by decide) _)
    exact isNearest_of_small hwidth (by push_cast; omega)
  split
  · rename_i hnonneg
    rw [ten_zpow_of_nonneg hnonneg, show e.natAbs = e.toNat by omega]
    exact isNearest_longProduct hm
  · rename_i hneg
    rw [ten_zpow_of_neg (not_le.mp hneg), ← div_eq_mul_inv, show e.natAbs = (-e).toNat by omega]
    exact isNearest_longQuotient

/-- **Digits under a power of ten become the nearest double.** -/
theorem isNearest_ofScientific {m : Nat} (hm : 0 < m) (e : ℤ) :
    IsNearest (Float.ofScientific m (decide (e < 0)) e.natAbs) (m * 10 ^ e) := by
  unfold Float.ofScientific
  split
  · rename_i hfast
    have hdigits : IsExact m.toUInt64.toFloat m := isExact_toFloat hm hfast.1
    have hpower := isExact_power (Nat.lt_succ_of_le hfast.2)
    have hm' : (1 : ℚ) ≤ m := by exact_mod_cast hm
    have hone : (1 : ℚ) ≤ 10 ^ e.natAbs := one_le_pow₀ (by norm_num)
    by_cases hneg : e < 0
    · rw [if_pos (decide_eq_true hneg), ten_zpow_of_neg hneg, ← div_eq_mul_inv]
      exact isNearest_quotient hdigits hpower hm' hone
    · rw [if_neg (by simpa using hneg), ten_zpow_of_nonneg (not_lt.mp hneg)]
      exact isNearest_product hdigits hpower hm' hone
  · have hexponent :
        (if decide (e < 0) = true then Int.negOfNat e.natAbs else Int.ofNat e.natAbs) = e := by
      by_cases hneg : e < 0
      · rw [if_pos (decide_eq_true hneg), Int.negOfNat_eq]
        show -(e.natAbs : ℤ) = e
        omega
      · rw [if_neg (by simpa using hneg)]
        exact Int.natAbs_of_nonneg (not_lt.mp hneg)
    simp only [hexponent]
    exact isNearest_model hm e

end Double

namespace Decimal

theorem lt_pow_width (n : Nat) : n < 10 ^ width n :=
  (Nat.length_toDigits_le_iff (by decide) Nat.length_toDigits_pos).mp le_rfl

theorem pow_le_of_lt_width {n w : Nat} (hn : 0 < n) (h : w < width n) : 10 ^ w ≤ n := by
  by_contra hlt
  rcases Nat.eq_zero_or_pos w with rfl | hw
  · exact hlt hn
  · exact absurd ((Nat.length_toDigits_le_iff (by decide) hw).mpr (Nat.lt_of_not_le hlt))
      (Nat.not_le.mpr h)

/-- **A decimal becomes the nearest double**, however far its power of ten reaches. -/
theorem isNearest_toFloat (d : Decimal) :
    Double.IsNearest d.toFloat (d.digits * 10 ^ d.exponent) := by
  have hwidth : 0 < width d.digits := Nat.length_toDigits_pos
  unfold toFloat
  dsimp only
  split
  · rename_i hzero
    rw [hzero, Nat.cast_zero, zero_mul]
    exact Double.isNearest_zero le_rfl (by positivity)
  rename_i hzero
  have hdigits : 0 < d.digits := Nat.pos_of_ne_zero hzero
  split
  · have hlow := pow_le_of_lt_width hdigits (Nat.sub_lt hwidth Nat.one_pos)
    exact Double.isNearest_of_large hlow (by omega)
  split
  · exact Double.isNearest_of_small (lt_pow_width d.digits).le (by omega)
  · exact Double.isNearest_ofScientific hdigits d.exponent

end Decimal

namespace Numeral

/-- The power of ten that a numeral is multiplied by: one without an exponent. -/
def power (n : Numeral) : ℤ :=
  match n.exponent with
  | some e => e.power
  | none => 0

/-- What a numeral denotes, its sign aside: whole digits and fraction digits, by the power of ten of
its exponent. -/
def magnitude (n : Numeral) : ℚ :=
  (Text.natOfDigits n.whole + Text.natOfDigits n.fraction / 10 ^ n.fraction.length) * 10 ^ n.power

theorem natOfDigits_append (xs ys : List Char) : Text.natOfDigits (xs ++ ys) =
    10 ^ ys.length * Text.natOfDigits xs + Text.natOfDigits ys :=
  (Nat.ofDigitChars_append 0).trans Nat.ofDigitChars_eq_ofDigitChars_zero

theorem decimal_eq_magnitude (n : Numeral) :
    (n.decimal.digits * 10 ^ n.decimal.exponent : ℚ) = n.magnitude := by
  have hten : (10 : ℚ) ≠ 0 := by norm_num
  have hexponent : n.decimal.exponent = n.power - n.fraction.length := rfl
  have hdigits : n.decimal.digits = 10 ^ n.fraction.length * Text.natOfDigits n.whole +
      Text.natOfDigits n.fraction := natOfDigits_append n.whole n.fraction
  rw [hexponent, hdigits, magnitude, zpow_sub₀ hten, zpow_natCast]
  push_cast
  field_simp

/-- A numeral denotes the double nearest to its magnitude, under its sign. -/
def Denotes (n : Numeral) (x : Float) : Prop :=
  ∃ y, Double.IsNearest y n.magnitude ∧ x = if n.sign = some '-' then -y else y

/-- **The value of a numeral is what it denotes**, and nothing else is. -/
theorem denotes_iff {n : Numeral} {x : Float} : n.Denotes x ↔ n.value = x := by
  have hnearest : Double.IsNearest n.decimal.toFloat n.magnitude :=
    n.decimal_eq_magnitude ▸ n.decimal.isNearest_toFloat
  have hvalue : n.value = if n.sign = some '-' then -n.decimal.toFloat else n.decimal.toFloat := by
    simp only [value, Decimal.toSignedFloat, beq_iff_eq]
  rw [hvalue]
  constructor
  · rintro ⟨y, hy, rfl⟩
    rw [hy.unique hnearest]
  · rintro rfl
    exact ⟨_, hnearest, rfl⟩

end Numeral

end ChartFeed
