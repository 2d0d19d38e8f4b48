import ChartFeed.Proofs.Decimal.Nearest

/-!
# Operations on doubles

* `Double.isNearest_roundWithAccuracy` : rounding gives the nearest double.
* `Double.isNearest_mul`, `Double.isNearest_div` : products and quotients of mantissas become the
  nearest doubles.
* `Double.IsExact` : the double stands for exactly a number; `Double.isExact_toFloat` has such doubles
  for the whole numbers that fit a mantissa, `Double.isExact_power` for small powers of ten.
* `Double.isNearest_product`, `Double.isNearest_quotient` : products and quotients of exact doubles.
-/

namespace ChartFeed

namespace Double

open Float.Model Float.Model.UnpackedFloat

variable {q : ℚ}

/-! ## Rounded operations -/

theorem isNearest_roundWithAccuracy {m : Nat} {e : ℤ} {accuracy : Accuracy}
    (hq : StandsFor (.ofMantissaAndAccuracy m accuracy) (q / 2 ^ e))
    (he : e ≤ Format.binary64.targetExponent (totalExponent m e)) :
    IsNearest
      (Float.ofModel (.pack (roundWithAccuracy Format.binary64 .positive m e accuracy))) q := by
  obtain ⟨r, t, hplace, hr, hround⟩ := roundWithAccuracy_eq_place .positive hq he
  rw [hround]
  exact hplace.isNearest hr

theorem isNearest_zero (hq : 0 ≤ q) (hsmall : q ≤ 2 ^ (-1075 : ℤ)) : IsNearest 0.0 q := by
  have hpos : (0 : ℚ) < 2 ^ (-1074 : ℤ) := by positivity
  have hhalf : (2 : ℚ) ^ (-1075 : ℤ) = 1 / 2 * 2 ^ (-1074 : ℤ) := by
    rw [show (-1075 : ℤ) = -1074 - 1 from rfl, zpow_sub_one₀ two_ne_zero]
    ring
  have hplace : HasLastPlace q (-1074) := by
    refine ⟨le_rfl, hsmall.trans_lt ?_, Or.inl rfl⟩
    rw [hhalf]
    exact mul_lt_mul_of_pos_right (by norm_num) hpos
  have hr : IsRounded 0 (q / 2 ^ (-1074 : ℤ)) := by
    refine ⟨?_, fun _ => rfl⟩
    rw [Nat.cast_zero, zero_sub, abs_neg, abs_of_nonneg (div_nonneg hq hpos.le),
      div_le_iff₀ hpos, ← hhalf]
    exact hsmall
  exact hplace.isNearest hr

theorem standsFor_quotient (m : Nat) {d : Nat} (hd : 0 < d) :
    StandsFor (.ofMantissaAndAccuracy (m / d) (accuracyOfFraction (m % d) d)) ((m : ℚ) / d) := by
  have hpos : (0 : ℚ) < d := by exact_mod_cast hd
  have hm : (m : ℚ) = (m / d : ℕ) * d + (m % d : ℕ) := by
    exact_mod_cast (Nat.div_add_mod' m d).symm
  have hquotient : (m : ℚ) / d = (m / d : ℕ) + ((m % d : ℕ) : ℚ) / d := by
    calc (m : ℚ) / d = ((m / d : ℕ) * d + (m % d : ℕ)) / d := by rw [← hm]
      _ = (m / d : ℕ) + ((m % d : ℕ) : ℚ) / d := by rw [add_div, mul_div_cancel_right₀ _ hpos.ne']
  have hlt : ((m % d : ℕ) : ℚ) / d < 1 := by
    rw [div_lt_one hpos]
    exact_mod_cast Nat.mod_lt m hd
  have hdouble : 2 * (((m % d : ℕ) : ℚ) / d) = ((2 * (m % d) : ℕ) : ℚ) / d := by
    push_cast
    ring
  rw [hquotient]
  unfold accuracyOfFraction
  by_cases hzero : m % d = 0
  · rw [if_pos hzero, hzero]
    simp [StandsFor, ExtendedMantissa.ofMantissaAndAccuracy]
  · rw [if_neg hzero]
    have hrest : 0 < ((m % d : ℕ) : ℚ) / d := by
      have : 0 < m % d := Nat.pos_of_ne_zero hzero
      positivity
    cases hcompare : compare (2 * (m % d)) d with
    | lt =>
      have hhalf : 2 * (((m % d : ℕ) : ℚ) / d) < 1 := by
        rw [hdouble, div_lt_one hpos]
        exact_mod_cast Nat.compare_eq_lt.mp hcompare
      show ((m / d : ℕ) : ℚ) < _ ∧ _ < ((m / d : ℕ) : ℚ) + 1 / 2
      constructor <;> linarith
    | eq =>
      have hhalf : 2 * (((m % d : ℕ) : ℚ) / d) = 1 := by
        rw [hdouble, div_eq_one_iff_eq hpos.ne']
        exact_mod_cast Nat.compare_eq_eq.mp hcompare
      show _ = ((m / d : ℕ) : ℚ) + 1 / 2
      linarith
    | gt =>
      have hhalf : 1 < 2 * (((m % d : ℕ) : ℚ) / d) := by
        rw [hdouble, one_lt_div hpos]
        exact_mod_cast Nat.compare_eq_gt.mp hcompare
      show ((m / d : ℕ) : ℚ) + 1 / 2 < _ ∧ _ < ((m / d : ℕ) : ℚ) + 1
      constructor <;> linarith

theorem isNearest_mul {m₁ m₂ : Nat} {e₁ e₂ : ℤ} {h₁ : 0 < m₁} {h₂ : 0 < m₂}
    (hlong : 2 ^ 52 ≤ m₁ * m₂) :
    IsNearest (Float.ofModel (.pack (UnpackedFloat.mul Format.binary64 (.finite .positive m₁ e₁ h₁)
      (.finite .positive m₂ e₂ h₂)))) ((m₁ * 2 ^ e₁) * (m₂ * 2 ^ e₂)) := by
  have hlog : 52 ≤ (m₁ * m₂).log2 := (Nat.le_log2 (Nat.mul_pos h₁ h₂).ne').mpr hlong
  refine isNearest_roundWithAccuracy ?_ ?_
  · show _ = (((m₁ * m₂ : ℕ)) : ℚ)
    rw [zpow_add₀ two_ne_zero]
    push_cast
    field_simp
  · rw [targetExponent_eq]
    omega

theorem long_quotient {m₁ m₂ k : Nat} (h₁ : m₁ ≠ 0) (h₂ : 0 < m₂)
    (hk : 53 + m₂.log2 ≤ m₁.log2 + k) : 2 ^ 52 ≤ m₁ * 2 ^ k / m₂ := by
  rw [Nat.le_div_iff_mul_le h₂]
  calc 2 ^ 52 * m₂ ≤ 2 ^ 52 * 2 ^ (m₂.log2 + 1) := Nat.mul_le_mul_left _ Nat.lt_log2_self.le
    _ = 2 ^ (53 + m₂.log2) := by
      rw [← Nat.pow_add]
      congr 1
      omega
    _ ≤ 2 ^ (m₁.log2 + k) := Nat.pow_le_pow_right (by decide) hk
    _ = 2 ^ m₁.log2 * 2 ^ k := Nat.pow_add ..
    _ ≤ m₁ * 2 ^ k := Nat.mul_le_mul_right _ (Nat.log2_self_le h₁)

theorem isNearest_div {m₁ m₂ : Nat} {e₁ e₂ : ℤ} {h₁ : 0 < m₁} {h₂ : 0 < m₂} :
    IsNearest (Float.ofModel (.pack (UnpackedFloat.div Format.binary64 (.finite .positive m₁ e₁ h₁)
      (.finite .positive m₂ e₂ h₂)))) ((m₁ * 2 ^ e₁) / (m₂ * 2 ^ e₂)) := by
  obtain ⟨t, ht⟩ : ∃ t, t = min (e₁ - e₂)
    (Format.binary64.targetExponent (totalExponent m₁ e₁ - totalExponent m₂ e₂)) := ⟨_, rfl⟩
  obtain ⟨k, hk⟩ : ∃ k, k = (e₁ - e₂ - t).toNat := ⟨_, rfl⟩
  have hcore : divCore Format.binary64 m₁ e₁ m₂ e₂ =
      (m₁ * 2 ^ k / m₂, t, accuracyOfFraction (m₁ * 2 ^ k % m₂) m₂) := by
    rw [← Nat.shiftLeft_eq, hk, ht]
    rfl
  have hshift : (k : ℤ) = e₁ - e₂ - t := by omega
  have hpos : (0 : ℚ) < m₂ := by exact_mod_cast h₂
  show IsNearest (Float.ofModel (.pack (roundWithAccuracy Format.binary64 .positive
    (divCore Format.binary64 m₁ e₁ m₂ e₂).1 (divCore Format.binary64 m₁ e₁ m₂ e₂).2.1
    (divCore Format.binary64 m₁ e₁ m₂ e₂).2.2))) _
  rw [hcore]
  refine isNearest_roundWithAccuracy ?_ ?_
  · have hq : (m₁ * 2 ^ e₁ : ℚ) / (m₂ * 2 ^ e₂) / 2 ^ t = ((m₁ * 2 ^ k : ℕ) : ℚ) / m₂ := by
      have he : (2 : ℚ) ^ e₁ = 2 ^ k * 2 ^ e₂ * 2 ^ t := by
        rw [← zpow_natCast, ← zpow_add₀ two_ne_zero, ← zpow_add₀ two_ne_zero, hshift]
        congr 1
        omega
      rw [he]
      push_cast
      field_simp
    rw [hq]
    exact standsFor_quotient (m₁ * 2 ^ k) h₂
  · rw [targetExponent_eq]
    by_cases hmin : t ≤ -1074
    · exact le_max_of_le_right hmin
    · have htarget : t ≤ (m₁.log2 + 1 + e₁) - (m₂.log2 + 1 + e₂) - 53 := by
        have : t ≤ max ((m₁.log2 + 1 + e₁) - (m₂.log2 + 1 + e₂) - 53) (-1074) :=
          ht.le.trans (min_le_right _ _)
        omega
      have hlong := long_quotient h₁.ne' h₂ (show 53 + m₂.log2 ≤ m₁.log2 + k by omega)
      have hlog := (Nat.le_log2 (by omega)).mpr hlong
      refine le_max_of_le_left ?_
      show t ≤ ((m₁ * 2 ^ k / m₂).log2 : ℤ) + 1 + t - 53
      omega

/-! ## Exact doubles -/

/-- The double stands for exactly this number, with no sign. -/
structure IsExact (x : Float) (q : ℚ) : Prop where
  positive : IsPositive x.toModel.unpack
  number : rat? x = some q

variable {x y : Float} {p : ℚ}

theorem IsExact.unpack (hx : IsExact x q) (hq : 1 ≤ q) : ∃ m e hm,
    x.toModel.unpack = .finite .positive m e hm ∧ 2 ^ 52 ≤ m ∧ (m : ℚ) * 2 ^ e = q := by
  obtain ⟨m, e, hm, hu, rfl⟩ := exists_place hx.positive hx.number
  have hlong : 2 ^ 52 ≤ m := by
    by_contra hshort
    obtain rfl := hm.long.resolve_right hshort
    refine absurd hq (not_le.mpr ?_)
    have hm' : (m : ℚ) < 2 ^ 52 := by exact_mod_cast Nat.lt_of_not_le hshort
    calc (m : ℚ) * 2 ^ (-1074 : ℤ) < 2 ^ 52 * 2 ^ (-1074 : ℤ) :=
          mul_lt_mul_of_pos_right hm' (by positivity)
      _ = 2 ^ (-1022 : ℤ) := by
        rw [← zpow_natCast, ← zpow_add₀ two_ne_zero]
        rfl
      _ ≤ 1 := zpow_le_one_of_nonpos₀ one_le_two (by decide)
  refine ⟨m, e, by omega, ?_, hlong, rfl⟩
  rw [hu, place, dif_neg (by omega), if_pos hm.lt]

theorem isNearest_product (hx : IsExact x p) (hy : IsExact y q) (hp : 1 ≤ p) (hq : 1 ≤ q) :
    IsNearest (x * y) (p * q) := by
  obtain ⟨m₁, e₁, h₁, hu₁, hlong, rfl⟩ := hx.unpack hp
  obtain ⟨m₂, e₂, h₂, hu₂, -, rfl⟩ := hy.unpack hq
  show IsNearest (Float.ofModel (.pack (UnpackedFloat.mul _ x.toModel.unpack y.toModel.unpack))) _
  rw [hu₁, hu₂]
  exact isNearest_mul (hlong.trans (Nat.le_mul_of_pos_right m₁ h₂))

theorem isNearest_quotient (hx : IsExact x p) (hy : IsExact y q) (hp : 1 ≤ p) (hq : 1 ≤ q) :
    IsNearest (x / y) (p / q) := by
  obtain ⟨m₁, e₁, h₁, hu₁, -, rfl⟩ := hx.unpack hp
  obtain ⟨m₂, e₂, h₂, hu₂, -, rfl⟩ := hy.unpack hq
  show IsNearest (Float.ofModel (.pack (UnpackedFloat.div _ x.toModel.unpack y.toModel.unpack))) _
  rw [hu₁, hu₂]
  exact isNearest_div

theorem IsNearest.isExact (h : IsNearest x q) (hq : q < ceiling) (hy : rat? y = some q) :
    IsExact x q := by
  obtain ⟨v, hv⟩ := Option.isSome_iff_exists.mp (h.finite hq)
  have hdist := h.near v hv y q hy
  rw [sub_self, abs_zero] at hdist
  have hzero : v - q = 0 := abs_eq_zero.mp (le_antisymm hdist (abs_nonneg _))
  exact ⟨h.positive, by rw [hv, sub_eq_zero.mp hzero]⟩

/-- The bits are those of a whole number. -/
def isWhole (n : Nat) : UnpackedFloat → Bool
  | .finite .positive m e _ => m * 2 ^ e.toNat == n * 2 ^ (-e).toNat
  | _ => false

theorem isExact_of_isWhole {n : Nat} (h : isWhole n x.toModel.unpack = true) : IsExact x n := by
  unfold isWhole at h
  split at h
  · rename_i m e hm hu
    have hnat : (m : ℚ) * 2 ^ e.toNat = n * 2 ^ (-e).toNat := by exact_mod_cast beq_iff_eq.mp h
    have he : (2 : ℚ) ^ e * 2 ^ (-e).toNat = 2 ^ e.toNat := by
      rw [← zpow_natCast, ← zpow_natCast, ← zpow_add₀ two_ne_zero]
      congr 1
      omega
    have hpos : (2 : ℚ) ^ (-e).toNat ≠ 0 := by positivity
    have hvalue : (m : ℚ) * 2 ^ e = n := mul_right_cancel₀ hpos (by rw [mul_assoc, he, hnat])
    refine ⟨by rw [hu]; rfl, ?_⟩
    rw [rat?, hu, ← hvalue]
    rfl
  · cases h

theorem isExact_power {k : Nat} (hk : k < Float.exactlyRepresentablePowersOfTen.size) :
    IsExact Float.exactlyRepresentablePowersOfTen[k] (10 ^ k) := by
  have table : ∀ k, (hk : k < Float.exactlyRepresentablePowersOfTen.size) →
      isWhole (10 ^ k) Float.exactlyRepresentablePowersOfTen[k].toModel.unpack = true := by
    decide
  exact_mod_cast isExact_of_isWhole (table k hk)

theorem two_pow_le_ceiling : (2 : ℚ) ^ 53 ≤ ceiling := by
  have hone : (2 : ℚ) ^ (1 : ℤ) ≤ 2 ^ (971 : ℤ) := zpow_le_zpow_right₀ one_le_two (by decide)
  rw [zpow_one] at hone
  calc (2 : ℚ) ^ 53 ≤ (2 ^ 53 - 1 / 2) * 2 := by norm_num
    _ ≤ ceiling := mul_le_mul_of_nonneg_left hone (by norm_num)

theorem long_of_log2 {n k : Nat} (hn : 0 < n) (hk : n.log2 + k = 52) :
    2 ^ 52 ≤ n * 2 ^ k ∧ n * 2 ^ k < 2 ^ 53 := by
  constructor
  · rw [← hk, Nat.pow_add]
    exact Nat.mul_le_mul_right _ (Nat.log2_self_le hn.ne')
  · calc n * 2 ^ k < 2 ^ (n.log2 + 1) * 2 ^ k :=
          Nat.mul_lt_mul_of_pos_right Nat.lt_log2_self (by positivity)
      _ = 2 ^ 53 := by
        rw [← Nat.pow_add]
        congr 1
        omega

theorem toFloat_eq_round {n k : Nat} (hn : 0 < n) (hk : n.log2 + k = 52) :
    n.toUInt64.toFloat = Float.ofModel (.pack (roundWithAccuracy Format.binary64
      .positive (n * 2 ^ k) (0 - k) .exact)) := by
  have hlt : n < 2 ^ 53 := (Nat.log2_lt hn.ne').mp (by omega)
  have hword : n.toUInt64.toNat = n := by
    rw [Nat.toUInt64_eq, UInt64.toNat_ofNat', Nat.mod_eq_of_lt (by omega)]
  have hshift : (0 - Format.binary64.targetExponent (totalExponent n 0)).toNat = k := by
    rw [targetExponent_eq]
    omega
  show Float.ofModel (.pack
    (UnpackedFloat.normalize Format.binary64 (n.toUInt64.toNat : ℤ) 0 .positive)) = _
  rw [hword, UnpackedFloat.normalize, Int.compare_eq_gt.mpr (by omega), ← Nat.shiftLeft_eq,
    ← hshift]
  rfl

theorem isExact_toFloat {n : Nat} (hn : 0 < n) (hlt : n < 2 ^ 53) :
    IsExact n.toUInt64.toFloat n := by
  have hlog : n.log2 < 53 := (Nat.log2_lt hn.ne').mpr hlt
  obtain ⟨k, hk⟩ : ∃ k, n.log2 + k = 52 := ⟨52 - n.log2, by omega⟩
  obtain ⟨hlong, hshort⟩ := long_of_log2 hn hk
  have hvalue : ((n * 2 ^ k : ℕ) : ℚ) * 2 ^ (0 - k : ℤ) = n := by
    rw [zero_sub, zpow_neg, zpow_natCast]
    push_cast
    exact mul_inv_cancel_right₀ (by positivity) _
  have hnearest : IsNearest n.toUInt64.toFloat n := by
    rw [toFloat_eq_round hn hk]
    refine isNearest_roundWithAccuracy ?_ ?_
    · show _ = ((n * 2 ^ k : ℕ) : ℚ)
      rw [← hvalue, mul_div_cancel_right₀ _ (by positivity)]
    · have hlog' := (Nat.le_log2 (by omega)).mpr hlong
      rw [targetExponent_eq]
      omega
  have hplaced : IsPlaced (n * 2 ^ k) (0 - k) := ⟨hshort, by omega, by omega, Or.inr hlong⟩
  have hdouble := hplaced.rat?_place
  rw [hvalue] at hdouble
  have hceiling : (n : ℚ) < ceiling := by
    have : (n : ℚ) < 2 ^ 53 := by exact_mod_cast hlt
    exact this.trans_le two_pow_le_ceiling
  exact hnearest.isExact hceiling hdouble

end Double

end ChartFeed
