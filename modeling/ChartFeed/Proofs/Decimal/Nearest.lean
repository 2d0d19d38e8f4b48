import ChartFeed.Proofs.Decimal.Number
import ChartFeed.Proofs.Decimal.Packing
import ChartFeed.Proofs.Decimal.Rounding

/-!
# The nearest double

* `Double.rat?` : the number that a finite double stands for.
* `Double.IsNearest` : the double is the one that a number is rounded to.
* `Double.HasLastPlace.isNearest` : a multiple of the last place, rounded, is the nearest double.
* `Double.IsNearest.unique` : there is one nearest double.
-/

namespace ChartFeed

namespace Double

open Float.Model Float.Model.UnpackedFloat

/-! ## No double is nearer than the one that is rounded to -/

def number? : UnpackedFloat → Option ℚ
  | .zero _ => some 0
  | .finite s m e _ => some (s.apply m * 2 ^ e)
  | _ => none

/-- The last bit of the mantissa is zero. -/
def IsEven : UnpackedFloat → Prop
  | .finite _ m _ _ => m % 2 = 0
  | _ => True

variable {q : ℚ} {t : ℤ} {r : Nat}

theorem one_le_dist_add_dist (x : ℚ) {k : ℤ} (hne : (r : ℤ) ≠ k) :
    1 ≤ |(r : ℚ) - x| + |(k : ℚ) - x| := by
  have hone : 1 ≤ |(r : ℤ) - k| := Int.one_le_abs (sub_ne_zero.mpr hne)
  calc (1 : ℚ) ≤ |(r : ℚ) - k| := by exact_mod_cast hone
    _ ≤ |(r : ℚ) - x| + |x - k| := abs_sub_le (r : ℚ) x k
    _ = |(r : ℚ) - x| + |(k : ℚ) - x| := by rw [abs_sub_comm x]

theorem IsRounded.le_of_int {x : ℚ} (h : IsRounded r x) (k : ℤ) :
    |(r : ℚ) - x| ≤ |(k : ℚ) - x| := by
  rcases eq_or_ne (r : ℤ) k with rfl | hne
  · simp
  · have hdist := one_le_dist_add_dist x hne
    linarith [h.near]

theorem IsRounded.even_of_eq {x : ℚ} (h : IsRounded r x) {k : ℤ} (hne : (r : ℤ) ≠ k)
    (heq : |(k : ℚ) - x| = |(r : ℚ) - x|) : r % 2 = 0 := by
  have hdist := one_le_dist_add_dist x hne
  exact h.even (by linarith [h.near])

theorem abs_mul_two_zpow (a q : ℚ) (t : ℤ) : |a * 2 ^ t - q| = |a - q / 2 ^ t| * 2 ^ t := by
  have hpos : (0 : ℚ) < 2 ^ t := by positivity
  rw [← abs_of_pos hpos, ← abs_mul, abs_of_pos hpos, sub_mul, div_mul_cancel₀ _ hpos.ne']

theorem IsRounded.multiple (hr : IsRounded r (q / 2 ^ t)) (k : ℤ) :
    |(r : ℚ) * 2 ^ t - q| ≤ |(k : ℚ) * 2 ^ t - q| ∧
      ((k : ℚ) * 2 ^ t ≠ r * 2 ^ t → |(k : ℚ) * 2 ^ t - q| = |(r : ℚ) * 2 ^ t - q| →
        r % 2 = 0) := by
  have hpos : (0 : ℚ) < 2 ^ t := by positivity
  rw [abs_mul_two_zpow, abs_mul_two_zpow]
  refine ⟨mul_le_mul_of_nonneg_right (hr.le_of_int k) hpos.le, fun hne heq => ?_⟩
  refine hr.even_of_eq ?_ (mul_right_cancel₀ hpos.ne' heq)
  rintro rfl
  exact hne rfl

theorem IsPlaced.lt_long {m : Nat} {e : ℤ} (hm : IsPlaced m e) (he : e < t) :
    (m : ℚ) * 2 ^ e < 2 ^ 52 * 2 ^ t := by
  have hlt : (m : ℚ) < 2 ^ 53 := by exact_mod_cast hm.lt
  calc (m : ℚ) * 2 ^ e < 2 ^ 53 * 2 ^ e := mul_lt_mul_of_pos_right hlt (by positivity)
    _ ≤ 2 ^ 53 * 2 ^ (t - 1) :=
      mul_le_mul_of_nonneg_left (zpow_le_zpow_right₀ one_le_two (by omega)) (by positivity)
    _ = 2 ^ 52 * 2 ^ t := by
      rw [zpow_sub_one₀ two_ne_zero]
      ring

theorem HasLastPlace.finer (h : HasLastPlace q t) (hr : IsRounded r (q / 2 ^ t)) {w : ℚ} {m : Nat}
    {e : ℤ} (hw : w ≤ m * 2 ^ e) (hm : IsPlaced m e) (he : e < t) :
    |(r : ℚ) * 2 ^ t - q| < |w - q| := by
  have hmin := hm.min
  have hq := h.lower.resolve_left (by omega)
  have hlt := hw.trans_lt (hm.lt_long he)
  have hbetween := (hr.multiple (2 ^ 52)).1
  have hbelow : (2 : ℚ) ^ 52 * 2 ^ t - q ≤ 0 := by linarith
  rw [Int.cast_pow, Int.cast_ofNat, abs_of_nonpos hbelow] at hbetween
  rw [abs_of_neg (by linarith : w - q < 0)]
  linarith

/-- **No double is nearer to a number than the one that it is rounded to**, which is even if another
one is as near. -/
theorem HasLastPlace.nearest (h : HasLastPlace q t) (hr : IsRounded r (q / 2 ^ t))
    {u : UnpackedFloat} (hu : InRange u) {w : ℚ} (hw : number? u = some w) :
    |(r : ℚ) * 2 ^ t - q| ≤ |w - q| ∧
      (w ≠ r * 2 ^ t → |w - q| = |(r : ℚ) * 2 ^ t - q| → r % 2 = 0) := by
  cases u with
  | infinity s => cases hw
  | notANumber => cases hw
  | zero s =>
    obtain rfl : 0 = w := Option.some.inj hw
    have := hr.multiple 0
    simpa using this
  | finite s m e hm =>
    obtain rfl := Option.some.inj hw
    by_cases he : e < t
    · have hle : ((s.apply m : ℤ) : ℚ) * 2 ^ e ≤ m * 2 ^ e := by
        refine mul_le_mul_of_nonneg_right ?_ (by positivity)
        have : s.apply (m : ℤ) ≤ m := by cases s <;> simp [Sign.apply]
        exact_mod_cast this
      have hfar := h.finer hr hle hu he
      exact ⟨hfar.le, fun _ heq => absurd heq hfar.ne'⟩
    · have hmultiple : ((s.apply m : ℤ) : ℚ) * 2 ^ e =
          ((s.apply m * 2 ^ (e - t).toNat : ℤ) : ℚ) * 2 ^ t := by
        push_cast
        rw [mul_assoc, ← zpow_natCast, ← zpow_add₀ two_ne_zero]
        congr 2
        omega
      rw [hmultiple]
      exact hr.multiple _

/-! ## Overflow -/

/-- The midpoint between the greatest double and the power of two above it. From it on numbers are
rounded to infinity. -/
def ceiling : ℚ := (2 ^ 53 - 1 / 2) * 2 ^ (971 : ℤ)

theorem HasLastPlace.le_of_overflow (h : HasLastPlace q t) (hr : IsRounded r (q / 2 ^ t))
    (hlarge : 972 ≤ t ∨ t = 971 ∧ r = 2 ^ 53) : ceiling ≤ q := by
  have hpos : (0 : ℚ) < 2 ^ (971 : ℤ) := by positivity
  rcases hlarge with ht | ⟨rfl, rfl⟩
  · calc ceiling ≤ 2 ^ 53 * 2 ^ (971 : ℤ) := mul_le_mul_of_nonneg_right (by norm_num) hpos.le
      _ = 2 ^ 52 * 2 ^ (972 : ℤ) := by
        rw [show (972 : ℤ) = 971 + 1 from rfl, zpow_add_one₀ two_ne_zero]
        ring
      _ ≤ 2 ^ 52 * 2 ^ t :=
        mul_le_mul_of_nonneg_left (zpow_le_zpow_right₀ one_le_two ht) (by positivity)
      _ ≤ q := h.lower.resolve_left (by omega)
  · have hnear := (abs_le.mp hr.near).2
    refine (le_div_iff₀ hpos).mp ?_
    rw [Nat.cast_pow, Nat.cast_ofNat] at hnear
    linarith

theorem HasLastPlace.lt_of_not_overflow (h : HasLastPlace q t) (hr : IsRounded r (q / 2 ^ t))
    (hsmall : t ≤ 970 ∨ t = 971 ∧ r < 2 ^ 53) : q < ceiling := by
  have hpos : (0 : ℚ) < 2 ^ (971 : ℤ) := by positivity
  rcases hsmall with ht | ⟨rfl, hlt⟩
  · calc q < 2 ^ 53 * 2 ^ t := h.upper
      _ ≤ 2 ^ 53 * 2 ^ (970 : ℤ) :=
        mul_le_mul_of_nonneg_left (zpow_le_zpow_right₀ one_le_two ht) (by positivity)
      _ = 2 ^ 52 * 2 ^ (971 : ℤ) := by
        rw [show (971 : ℤ) = 970 + 1 from rfl, zpow_add_one₀ two_ne_zero]
        ring
      _ ≤ ceiling := mul_le_mul_of_nonneg_right (by norm_num) hpos.le
  · -- the midpoint itself is rounded up, since the greatest mantissa is odd
    refine (div_lt_iff₀ hpos).mp ?_
    by_contra hle
    have hmidpoint : (r : ℚ) + 1 / 2 ≤ q / 2 ^ (971 : ℤ) := by
      have : (r : ℚ) + 1 ≤ 2 ^ 53 := by exact_mod_cast hlt
      linarith
    have hnear := (abs_le.mp hr.near).1
    have hhalf : |(r : ℚ) - q / 2 ^ (971 : ℤ)| = 1 / 2 := by
      rw [abs_of_nonpos (by linarith)]
      linarith
    have heven := hr.even hhalf
    have hr53 : (r : ℚ) + 1 = 2 ^ 53 := by
      have : (r : ℚ) + 1 ≤ 2 ^ 53 := by exact_mod_cast hlt
      linarith
    have : r + 1 = 2 ^ 53 := by exact_mod_cast hr53
    omega

/-! ## The nearest double, as bits -/

/-- The sign bit is not set. -/
def IsPositive : UnpackedFloat → Prop
  | .zero s => s = .positive
  | .infinity s => s = .positive
  | .finite s _ _ _ => s = .positive
  | .notANumber => False

def rat? (x : Float) : Option ℚ := number? x.toModel.unpack

/-- The double is the one that a number is rounded to: of two that are as near the one with an even
mantissa, and infinity for numbers too large. -/
structure IsNearest (x : Float) (q : ℚ) : Prop where
  positive : IsPositive x.toModel.unpack
  finite : q < ceiling → (rat? x).isSome = true
  infinite : ceiling ≤ q → x = 1.0 / 0.0
  near : ∀ v ∈ rat? x, ∀ y, ∀ w ∈ rat? y, |v - q| ≤ |w - q|
  even : ∀ v ∈ rat? x, ∀ y, ∀ w ∈ rat? y, w ≠ v → |w - q| = |v - q| → IsEven x.toModel.unpack

theorem number?_place (r : Nat) (t : ℤ) (hr : r ≤ 2 ^ 53) :
    number? (place .positive r t) = some ((r : ℚ) * 2 ^ t) := by
  unfold place
  split
  · rename_i hzero
    simp [hzero, number?]
  split
  · rfl
  · obtain rfl : r = 2 ^ 53 := by omega
    refine congrArg some ?_
    rw [zpow_add_one₀ two_ne_zero]
    simp [Sign.apply]
    ring

theorem isEven_place (s : Sign) (t : ℤ) (h : r % 2 = 0) : IsEven (place s r t) := by
  unfold place
  split
  · trivial
  split
  · exact h
  · rfl

theorem isPositive_place (r : Nat) (t : ℤ) : IsPositive (place .positive r t) := by
  unfold place
  split
  · rfl
  split <;> rfl

section place

variable {m : Nat} {e : ℤ}

theorem IsPlaced.unpack_pack_place (hm : IsPlaced m e) : UnpackedFloat.unpack Format.binary64
    (UnpackedFloat.pack Format.binary64 (place .positive m e)) = place .positive m e := by
  unfold place
  split
  · exact unpack_packedZero .positive
  · rw [if_pos hm.lt]
    exact hm.unpack_pack

theorem IsPlaced.rat?_place (hm : IsPlaced m e) :
    rat? (Float.ofModel (.pack (place .positive m e))) = some ((m : ℚ) * 2 ^ e) :=
  (congrArg number? hm.unpack_pack_place).trans (number?_place m e hm.lt.le)

theorem IsPlaced.even (hm : IsPlaced m e) (h : IsEven (place .positive m e)) : m % 2 = 0 := by
  unfold place at h
  split at h
  · rename_i hzero
    rw [hzero]
  · rwa [if_pos hm.lt] at h

end place

theorem HasLastPlace.pack_place_of_overflow (h : HasLastPlace q t) (hr : IsRounded r (q / 2 ^ t))
    (hlarge : 972 ≤ t ∨ t = 971 ∧ r = 2 ^ 53) :
    UnpackedFloat.pack Format.binary64 (place .positive r t) =
      packedInfinity Format.binary64 .positive := by
  have hlow := h.le_rounded hr (by omega)
  have hhigh := h.rounded_le hr
  unfold place
  rw [dif_neg (by omega)]
  split
  · exact pack_of_large (by omega)
  · exact pack_of_large (by omega)

theorem HasLastPlace.unpack_pack_place (h : HasLastPlace q t) (hr : IsRounded r (q / 2 ^ t))
    (hsmall : t ≤ 970 ∨ t = 971 ∧ r < 2 ^ 53) :
    UnpackedFloat.unpack Format.binary64
      (UnpackedFloat.pack Format.binary64 (place .positive r t)) = place .positive r t := by
  have hmin := h.min
  rcases (h.rounded_le hr).lt_or_eq with hlt | rfl
  · have hplaced : IsPlaced r t := by
      refine ⟨hlt, hmin, by omega, ?_⟩
      by_cases ht : t = -1074
      · exact Or.inl ht
      · exact Or.inr (h.le_rounded hr ht)
    exact hplaced.unpack_pack_place
  · have hplaced : IsPlaced (2 ^ 52) (t + 1) := ⟨by decide, by omega, by omega, Or.inr le_rfl⟩
    exact hplaced.unpack_pack

theorem isNearest_of_finite {x : Float} {v : ℚ} (hx : IsPositive x.toModel.unpack)
    (hv : rat? x = some v) (hq : q < ceiling)
    (hnear : ∀ y, ∀ w ∈ rat? y, |v - q| ≤ |w - q| ∧
      (w ≠ v → |w - q| = |v - q| → IsEven x.toModel.unpack)) : IsNearest x q where
  positive := hx
  finite _ := by rw [hv]; rfl
  infinite hover := absurd hover (not_le.mpr hq)
  near v' hv' y w hw := by
    obtain rfl := Option.some.inj (hv.symm.trans hv')
    exact (hnear y w hw).1
  even v' hv' y w hw := by
    obtain rfl := Option.some.inj (hv.symm.trans hv')
    exact (hnear y w hw).2

theorem isNearest_infinity (hq : ceiling ≤ q) : IsNearest (1.0 / 0.0) q := by
  have hnone : rat? (1.0 / 0.0) = none := rfl
  refine ⟨rfl, fun hlt => absurd hq (not_le.mpr hlt), fun _ => rfl, ?_, ?_⟩
  · rw [hnone]
    nofun
  · rw [hnone]
    nofun

/-- **A multiple of the last place, rounded, is the nearest double.** -/
theorem HasLastPlace.isNearest (h : HasLastPlace q t) (hr : IsRounded r (q / 2 ^ t)) :
    IsNearest (Float.ofModel (.pack (place .positive r t))) q := by
  have hbits : (Float.ofModel (.pack (place .positive r t))).toModel.unpack =
      UnpackedFloat.unpack Format.binary64
        (UnpackedFloat.pack Format.binary64 (place .positive r t)) := rfl
  have hle := h.rounded_le hr
  by_cases hlarge : 972 ≤ t ∨ t = 971 ∧ r = 2 ^ 53
  · rw [h.pack_place_of_overflow hr hlarge, unpack_packedInfinity] at hbits
    have hinfinity : Float.ofModel (.pack (place .positive r t)) = 1.0 / 0.0 :=
      eq_of_unpack_eq hbits
    rw [hinfinity]
    exact isNearest_infinity (h.le_of_overflow hr hlarge)
  · have hsmall : t ≤ 970 ∨ t = 971 ∧ r < 2 ^ 53 := by omega
    rw [h.unpack_pack_place hr hsmall] at hbits
    refine isNearest_of_finite (v := r * 2 ^ t) ?_ ?_ (h.lt_of_not_overflow hr hsmall)
      fun y w hw => ?_
    · rw [hbits]
      exact isPositive_place r t
    · rw [rat?, hbits, number?_place r t hle]
    · obtain ⟨hnear, heven⟩ := h.nearest hr (inRange_unpack _) hw
      rw [hbits]
      exact ⟨hnear, fun hne heq => isEven_place _ _ (heven hne heq)⟩

/-! ## There is one nearest double -/

section unique

variable {m n : Nat} {e f : ℤ} {x y : Float} {v w : ℚ}

theorem IsPlaced.lt_of_exponent_lt (hm : IsPlaced m e) (hn : IsPlaced n f) (h : e < f) :
    (m : ℚ) * 2 ^ e < n * 2 ^ f := by
  have hmin := hm.min
  have hlong : (2 : ℚ) ^ 52 ≤ n := by exact_mod_cast hn.long.resolve_left (by omega)
  exact (hm.lt_long h).trans_le (mul_le_mul_of_nonneg_right hlong (by positivity))

theorem IsPlaced.inj (hm : IsPlaced m e) (hn : IsPlaced n f) (h : (m : ℚ) * 2 ^ e = n * 2 ^ f) :
    m = n ∧ e = f := by
  rcases lt_trichotomy e f with hlt | rfl | hlt
  · exact absurd h (hm.lt_of_exponent_lt hn hlt).ne
  · have hpos : (2 : ℚ) ^ e ≠ 0 := by positivity
    exact ⟨by exact_mod_cast mul_right_cancel₀ hpos h, rfl⟩
  · exact absurd h.symm (hn.lt_of_exponent_lt hm hlt).ne

theorem IsPlaced.next_le (hm : IsPlaced m e) (hn : IsPlaced n f) (h : (m : ℚ) * 2 ^ e < n * 2 ^ f) :
    ((m + 1 : ℕ) : ℚ) * 2 ^ e ≤ n * 2 ^ f := by
  have hle : e ≤ f := not_lt.mp fun hlt => absurd h (hn.lt_of_exponent_lt hm hlt).asymm
  obtain ⟨k, rfl⟩ : ∃ k : ℕ, f = k + e := ⟨(f - e).toNat, by omega⟩
  have hpos : (0 : ℚ) < 2 ^ e := by positivity
  rw [zpow_add₀ two_ne_zero, zpow_natCast, ← mul_assoc] at h ⊢
  have hlt : m < n * 2 ^ k := by exact_mod_cast lt_of_mul_lt_mul_right h hpos.le
  exact mul_le_mul_of_nonneg_right (by exact_mod_cast hlt) hpos.le

theorem exists_place (hx : IsPositive x.toModel.unpack) (hv : rat? x = some v) :
    ∃ m e, IsPlaced m e ∧ x.toModel.unpack = place .positive m e ∧ (m : ℚ) * 2 ^ e = v := by
  have hrange : InRange x.toModel.unpack := inRange_unpack _
  unfold rat? at hv
  generalize x.toModel.unpack = u at hx hv hrange
  cases u with
  | infinity s => cases hv
  | notANumber => cases hv
  | zero s =>
    obtain rfl : s = .positive := hx
    obtain rfl := Option.some.inj hv
    exact ⟨0, -1074, ⟨by decide, le_rfl, by decide, Or.inl rfl⟩, rfl, by simp⟩
  | finite s m e hm =>
    obtain rfl : s = .positive := hx
    obtain rfl := Option.some.inj hv
    refine ⟨m, e, hrange, ?_, rfl⟩
    rw [place, dif_neg hm.ne', if_pos hrange.lt]

/-- Two doubles can both be nearest, and both be even, only if none is between them; but the one
after an even one is odd. -/
theorem IsNearest.le (hx : IsNearest x q) (hy : IsNearest y q) (hv : rat? x = some v)
    (hw : rat? y = some w) : w ≤ v := by
  refine not_lt.mp fun hlt => ?_
  have hdist : |w - q| = |v - q| := le_antisymm (hy.near w hw x v hv) (hx.near v hv y w hw)
  have hxeven := hx.even v hv y w hw hlt.ne' hdist
  have hyeven := hy.even w hw x v hv hlt.ne hdist.symm
  obtain ⟨m, e, hm, hum, rfl⟩ := exists_place hx.positive hv
  obtain ⟨n, f, hn, hun, rfl⟩ := exists_place hy.positive hw
  have hmeven := hm.even (hum ▸ hxeven)
  have hneven := hn.even (hun ▸ hyeven)
  have hnext : IsPlaced (m + 1) e := by
    have hshort := hm.lt
    exact ⟨by omega, hm.min, hm.max, hm.long.imp_right Nat.le_succ_of_le⟩
  rcases (hm.next_le hn hlt).eq_or_lt with heq | hbefore
  · obtain ⟨rfl, -⟩ := hnext.inj hn heq
    omega
  · have hafter : (m : ℚ) * 2 ^ e < ((m + 1 : ℕ) : ℚ) * 2 ^ e := by
      refine mul_lt_mul_of_pos_right ?_ (by positivity)
      exact_mod_cast Nat.lt_succ_self m
    have hleft := hx.near _ hv _ _ hnext.rat?_place
    have hright := hy.near _ hw _ _ hnext.rat?_place
    rcases le_total (((m + 1 : ℕ) : ℚ) * 2 ^ e) q with hside | hside
    · rw [abs_of_nonpos (sub_nonpos.mpr hside)] at hleft
      linarith [neg_le_abs ((m : ℚ) * 2 ^ e - q)]
    · rw [abs_of_nonneg (sub_nonneg.mpr hside)] at hright
      linarith [le_abs_self ((n : ℚ) * 2 ^ f - q)]

/-- **A number has one nearest double.** -/
theorem IsNearest.unique (hx : IsNearest x q) (hy : IsNearest y q) : x = y := by
  by_cases hq : ceiling ≤ q
  · rw [hx.infinite hq, hy.infinite hq]
  · obtain ⟨v, hv⟩ := Option.isSome_iff_exists.mp (hx.finite (not_le.mp hq))
    obtain ⟨w, hw⟩ := Option.isSome_iff_exists.mp (hy.finite (not_le.mp hq))
    have heq : v = w := le_antisymm (hy.le hx hw hv) (hx.le hy hv hw)
    obtain ⟨m, e, hm, hum, rfl⟩ := exists_place hx.positive hv
    obtain ⟨n, f, hn, hun, rfl⟩ := exists_place hy.positive hw
    obtain ⟨rfl, rfl⟩ := hm.inj hn heq
    exact eq_of_unpack_eq (hum.trans hun.symm)

end unique

end Double

end ChartFeed
