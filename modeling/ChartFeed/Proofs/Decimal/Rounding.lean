import Mathlib

/-!
# Rounding mantissas

A double is made of a mantissa whose last places are cut off: two bits tell what was cut.

* `Double.IsRounded` : the whole number nearest to a number, even between two.
* `Double.StandsFor` : the numbers that a mantissa and its two bits stand for.
* `Double.HasLastPlace` : the power of two that the doubles next to a number are multiples of.
* `Double.roundWithAccuracy_eq_place` : rounding is rounding to a multiple of the last place.
-/

namespace ChartFeed

namespace Double

open Float.Model Float.Model.UnpackedFloat

/-! ## Rounding to whole numbers -/

/-- The whole number is nearest to a number, and even if another one is as near. -/
structure IsRounded (r : Nat) (x : ℚ) : Prop where
  near : |(r : ℚ) - x| ≤ 1 / 2
  even : |(r : ℚ) - x| = 1 / 2 → r % 2 = 0

/-- A mantissa with the two bits behind it stands for the numbers that begin so. -/
def StandsFor (em : ExtendedMantissa) (x : ℚ) : Prop :=
  match em.roundBit, em.stickyBit with
  | false, false => x = em.mantissa
  | false, true => em.mantissa < x ∧ x < em.mantissa + 1 / 2
  | true, false => x = em.mantissa + 1 / 2
  | true, true => em.mantissa + 1 / 2 < x ∧ x < em.mantissa + 1

variable {em : ExtendedMantissa} {x : ℚ}

theorem StandsFor.bounds (h : StandsFor em x) : em.mantissa ≤ x ∧ x < em.mantissa + 1 := by
  obtain ⟨m, _ | _, _ | _⟩ := em <;> simp only [StandsFor] at h ⊢
  · constructor <;> linarith
  · constructor <;> linarith
  · constructor <;> linarith
  · constructor <;> linarith

theorem isRounded_below {m : Nat} (hlow : m ≤ x) (hhigh : x < m + 1 / 2) : IsRounded m x := by
  have habs : |(m : ℚ) - x| = x - m := by rw [abs_sub_comm, abs_of_nonneg (by linarith)]
  refine ⟨by linarith, fun hhalf => ?_⟩
  linarith

theorem isRounded_above {m : Nat} (hlow : m + 1 / 2 < x) (hhigh : x < m + 1) :
    IsRounded (m + 1) x := by
  have habs : |((m + 1 : ℕ) : ℚ) - x| = m + 1 - x := by
    push_cast
    exact abs_of_nonneg (by linarith)
  refine ⟨by linarith, fun hhalf => ?_⟩
  linarith

theorem isRounded_half (m : Nat) : IsRounded (m + m % 2) (m + 1 / 2) := by
  refine ⟨?_, fun _ => by omega⟩
  rcases Nat.mod_two_eq_zero_or_one m with heven | hodd
  · rw [heven]
    simp
  · rw [hodd]
    norm_num

theorem StandsFor.isRounded (h : StandsFor em x) : IsRounded em.roundedMantissa x := by
  obtain ⟨m, _ | _, _ | _⟩ := em
  · obtain rfl : x = m := h
    show IsRounded m m
    exact isRounded_below le_rfl (by linarith)
  · exact isRounded_below h.1.le h.2
  · obtain rfl : x = m + 1 / 2 := h
    exact isRounded_half m
  · exact isRounded_above h.1 h.2

theorem StandsFor.shiftRightOne (h : StandsFor em x) : StandsFor em.shiftRightOne (x / 2) := by
  obtain ⟨m, a, b⟩ := em
  have hm : (m : ℚ) = 2 * (m / 2 : ℕ) + (m % 2 : ℕ) := by
    exact_mod_cast (Nat.div_add_mod m 2).symm
  -- the last place of the mantissa becomes the first bit, what stood in both bits the second
  obtain hlast | hlast := Nat.mod_two_eq_zero_or_one m <;>
    rw [hlast] at hm <;>
    cases a <;> cases b <;>
    simp only [StandsFor, ExtendedMantissa.shiftRightOne, hlast] at h ⊢ <;>
    push_cast at hm <;>
    simp <;>
    first
      | linarith
      | (constructor <;> linarith)

theorem StandsFor.shiftRight (h : StandsFor em x) (n : ℕ) :
    StandsFor (em >>> n) (x / 2 ^ n) := by
  show StandsFor (n.repeat ExtendedMantissa.shiftRightOne em) _
  induction n with
  | zero => simpa [Nat.repeat] using h
  | succ n ih =>
    rw [pow_succ, ← div_div]
    exact ih.shiftRightOne

/-! ## The last place -/

/-- The doubles next to a number are multiples of this power of two. -/
structure HasLastPlace (q : ℚ) (t : ℤ) : Prop where
  min : -1074 ≤ t
  upper : q < 2 ^ 53 * 2 ^ t
  lower : t = -1074 ∨ 2 ^ 52 * 2 ^ t ≤ q

/-- A rounded mantissa in its place; one that rounding has made too long moves to the next place. -/
def place (s : Sign) (r : Nat) (t : ℤ) : UnpackedFloat :=
  if h : r = 0 then .zero s
  else if r < 2 ^ 53 then .finite s r t (Nat.pos_of_ne_zero h)
  else .finite s (2 ^ 52) (t + 1) (by decide)

theorem targetExponent_eq (m : Nat) (e : ℤ) : Format.binary64.targetExponent (totalExponent m e) =
    max (m.log2 + 1 + e - 53) (-1074) := rfl

theorem lt_two_pow_log2 (m : Nat) : (m : ℚ) + 1 ≤ 2 ^ (m.log2 + 1) := by
  exact_mod_cast Nat.lt_log2_self

theorem two_pow_log2_le {m : Nat} (h : m ≠ 0) : (2 : ℚ) ^ m.log2 ≤ m := by
  exact_mod_cast Nat.log2_self_le h

theorem hasLastPlace_targetExponent {m : Nat} {e : ℤ} {q : ℚ} (hlow : (m : ℚ) * 2 ^ e ≤ q)
    (hhigh : q < (m + 1) * 2 ^ e)
    (he : e ≤ Format.binary64.targetExponent (totalExponent m e)) :
    HasLastPlace q (Format.binary64.targetExponent (totalExponent m e)) := by
  rw [targetExponent_eq] at he ⊢
  have hpos : (0 : ℚ) < 2 ^ e := by positivity
  refine ⟨le_max_right _ _, ?_, ?_⟩
  · calc q < (m + 1) * 2 ^ e := hhigh
      _ ≤ 2 ^ (m.log2 + 1) * 2 ^ e := by
        exact mul_le_mul_of_nonneg_right (lt_two_pow_log2 m) hpos.le
      _ = 2 ^ ((m.log2 : ℤ) + 1 + e) := by
        rw [← zpow_natCast, ← zpow_add₀ two_ne_zero]
        push_cast
        rfl
      _ ≤ 2 ^ (53 + max ((m.log2 : ℤ) + 1 + e - 53) (-1074)) :=
        zpow_le_zpow_right₀ one_le_two (by omega)
      _ = 2 ^ 53 * 2 ^ max ((m.log2 : ℤ) + 1 + e - 53) (-1074) := by
        rw [zpow_add₀ two_ne_zero]
        rfl
  · by_cases hmin : max ((m.log2 : ℤ) + 1 + e - 53) (-1074) = -1074
    · exact Or.inl hmin
    · right
      have hm : m ≠ 0 := by
        rintro rfl
        rw [Nat.log2_zero] at he hmin
        omega
      calc (2 : ℚ) ^ 52 * 2 ^ max ((m.log2 : ℤ) + 1 + e - 53) (-1074)
          = 2 ^ (52 + max ((m.log2 : ℤ) + 1 + e - 53) (-1074)) := by
            rw [zpow_add₀ two_ne_zero]
            rfl
        _ = 2 ^ ((m.log2 : ℤ) + e) := by
          congr 1
          omega
        _ = 2 ^ m.log2 * 2 ^ e := by rw [zpow_add₀ two_ne_zero, zpow_natCast]
        _ ≤ m * 2 ^ e := mul_le_mul_of_nonneg_right (two_pow_log2_le hm) hpos.le
        _ ≤ q := hlow

section place

variable {q : ℚ} {t : ℤ} {r : Nat}

theorem HasLastPlace.rounded_le (h : HasLastPlace q t) (hr : IsRounded r (q / 2 ^ t)) :
    r ≤ 2 ^ 53 := by
  have hpos : (0 : ℚ) < 2 ^ t := by positivity
  have hq : q / 2 ^ t < 2 ^ 53 := (div_lt_iff₀ hpos).mpr h.upper
  have hnear := (abs_le.mp hr.near).2
  have hlt : (r : ℚ) < 2 ^ 53 + 1 := by linarith
  have : r < 2 ^ 53 + 1 := by exact_mod_cast hlt
  omega

theorem HasLastPlace.le_rounded (h : HasLastPlace q t) (hr : IsRounded r (q / 2 ^ t))
    (ht : t ≠ -1074) : 2 ^ 52 ≤ r := by
  have hpos : (0 : ℚ) < 2 ^ t := by positivity
  have hq : (2 : ℚ) ^ 52 ≤ q / 2 ^ t := (le_div_iff₀ hpos).mpr (h.lower.resolve_left ht)
  have hnear := (abs_le.mp hr.near).1
  have hlt : (2 : ℚ) ^ 52 < r + 1 := by linarith
  have : 2 ^ 52 < r + 1 := by exact_mod_cast hlt
  omega

end place

theorem shiftToTargetExponent_rounded (s : Sign) {r : Nat} {t : ℤ} (hr : r ≤ 2 ^ 53)
    (ht : -1074 ≤ t) :
    (if h : (shiftToTargetExponent Format.binary64 r t .exact).1.mantissa = 0 then
        UnpackedFloat.zero s
      else .finite s _ (shiftToTargetExponent Format.binary64 r t .exact).2
        (Nat.pos_of_ne_zero h)) = place s r t := by
  unfold shiftToTargetExponent
  rw [targetExponent_eq]
  rcases Nat.lt_or_eq_of_le hr with hlt | rfl
  · have hlog : r.log2 < 53 := by
      rcases Nat.eq_zero_or_pos r with rfl | hpos
      · decide
      · exact (Nat.log2_lt hpos.ne').mpr hlt
    have hshift : (max ((r.log2 : ℤ) + 1 + t - 53) (-1074) - t).toNat = 0 := by omega
    simp only [shiftToExponent, hshift, HShiftRight.hShiftRight, Nat.repeat,
      ExtendedMantissa.ofMantissaAndAccuracy, place, hlt, if_true]
    simp
  · have hlog : (2 ^ 53 : Nat).log2 = 53 := by decide
    have hshift : (max (((2 ^ 53 : Nat).log2 : ℤ) + 1 + t - 53) (-1074) - t).toNat = 1 := by
      rw [hlog]
      omega
    simp only [shiftToExponent, hshift, HShiftRight.hShiftRight, Nat.repeat,
      ExtendedMantissa.ofMantissaAndAccuracy, ExtendedMantissa.shiftRightOne, place]
    simp

/-- **Rounding is rounding to a multiple of the last place**, whatever stands behind the mantissa,
as long as the mantissa reaches down to that place. -/
theorem roundWithAccuracy_eq_place (s : Sign) {m : Nat} {e : ℤ} {accuracy : Accuracy} {q : ℚ}
    (hq : StandsFor (.ofMantissaAndAccuracy m accuracy) (q / 2 ^ e))
    (he : e ≤ Format.binary64.targetExponent (totalExponent m e)) :
    ∃ r t, HasLastPlace q t ∧ IsRounded r (q / 2 ^ t) ∧
      roundWithAccuracy Format.binary64 s m e accuracy = place s r t := by
  have hpos : (0 : ℚ) < 2 ^ e := by positivity
  have hm : (ExtendedMantissa.ofMantissaAndAccuracy m accuracy).mantissa = m := by
    rcases accuracy with _ | (_ | _ | _) <;> rfl
  obtain ⟨hlow, hhigh⟩ := hq.bounds
  rw [hm] at hlow hhigh
  have hplace := hasLastPlace_targetExponent ((le_div_iff₀ hpos).mp hlow)
    ((div_lt_iff₀ hpos).mp hhigh) he
  generalize htarget : Format.binary64.targetExponent (totalExponent m e) = t at he hplace
  have hshift : e + (t - e).toNat = t := by omega
  have hrounded := (hq.shiftRight (t - e).toNat).isRounded
  rw [div_div, ← zpow_natCast, ← zpow_add₀ two_ne_zero, hshift] at hrounded
  refine ⟨_, t, hplace, hrounded, ?_⟩
  rw [← shiftToTargetExponent_rounded s (hplace.rounded_le hrounded) hplace.min]
  have hfirst : shiftToTargetExponent Format.binary64 m e accuracy =
      (ExtendedMantissa.ofMantissaAndAccuracy m accuracy >>> (t - e).toNat, t) := by
    rw [shiftToTargetExponent, htarget, shiftToExponent, hshift]
  simp only [roundWithAccuracy, hfirst]

end Double

end ChartFeed
