import Mathlib

/-!
# Doubles as bits

* `Double.IsPlaced` : the mantissas and exponents that doubles are made of.
* `Double.IsPlaced.unpack_pack` : these are kept by the bits.
* `Double.pack_of_large` : beyond them the bits are those of infinity.
* `Double.inRange_unpack` : bits stand for nothing beyond them.
-/

namespace ChartFeed

namespace Double

open Float.Model Float.Model.UnpackedFloat

/-- A mantissa and an exponent of a double. Short mantissas have the least exponent. -/
structure IsPlaced (m : Nat) (e : ℤ) : Prop where
  lt : m < 2 ^ 53
  min : -1074 ≤ e
  max : e ≤ 971
  long : e = -1074 ∨ 2 ^ 52 ≤ m

/-! ## What is packed unpacks -/

theorem unpackSign_packComponents {spec : Format} {sign exponent mantissa} :
    unpackSign (packComponents spec sign exponent mantissa) = sign.toBitVec := by
  ext i hi
  obtain rfl : i = 0 := by omega
  simp [unpackSign, packComponents, BitVec.getLsbD_append, BitVec.getElem_append]

theorem ofBitVec_toBitVec (s : Sign) : Sign.ofBitVec s.toBitVec = s := by
  cases s <;> rfl

theorem unpack_packedZero (s : Sign) :
    unpack Format.binary64 (packedZero Format.binary64 s) = .zero s := by
  cases s <;> rfl

theorem unpack_packedInfinity (s : Sign) :
    unpack Format.binary64 (packedInfinity Format.binary64 s) = .infinity s := by
  cases s <;> rfl

theorem toNat_implicit (m : BitVec 52) : (1#1 ++ m).toNat = 2 ^ 52 + m.toNat := by
  rw [BitVec.toNat_append, ← Nat.shiftLeft_add_eq_or_of_lt m.isLt]
  rfl

theorem finite_congr {s : Sign} {m m' : Nat} {e e' : ℤ} {h : 0 < m} {h' : 0 < m'} (hm : m = m')
    (he : e = e') : UnpackedFloat.finite s m e h = .finite s m' e' h' := by
  subst hm he
  rfl

theorem unpack_normal {s : Sign} {exponent : BitVec 11} {mantissa : BitVec 52}
    (hones : exponent ≠ -1#11) (hzero : exponent ≠ 0#11) :
    UnpackedFloat.unpack Format.binary64 (packComponents Format.binary64 s exponent mantissa) =
      .finite s (2 ^ 52 + mantissa.toNat) (exponent.toNat - 1075) (by positivity) := by
  unfold UnpackedFloat.unpack
  simp only [unpackMantissa_packComponents, unpackExponent_packComponents,
    unpackSign_packComponents, hones, hzero, if_false, ofBitVec_toBitVec]
  exact finite_congr (toNat_implicit mantissa) rfl

theorem unpack_subnormal {s : Sign} {mantissa : BitVec 52} (h : 0 < mantissa.toNat) :
    UnpackedFloat.unpack Format.binary64 (packComponents Format.binary64 s 0#11 mantissa) =
      .finite s mantissa.toNat (-1074) h := by
  have hzero : mantissa ≠ 0#52 := by
    rintro rfl
    exact absurd h (by decide)
  unfold UnpackedFloat.unpack
  simp only [unpackMantissa_packComponents, unpackExponent_packComponents,
    unpackSign_packComponents, ofBitVec_toBitVec]
  rw [if_neg (show ¬ 0#11 = -1#11 by decide), if_pos trivial, dif_neg hzero]
  exact finite_congr rfl rfl

theorem pack_of_large {s : Sign} {m : Nat} {e : ℤ} {h : 0 < m} (he : 972 ≤ e) :
    UnpackedFloat.pack Format.binary64 (.finite s m e h) = packedInfinity Format.binary64 s := by
  have hbiased : 2 ^ 11 ≤ (e + 1023 + 52).toNat + 1 := by omega
  exact if_pos hbiased

section unpack_pack

variable {s : Sign} {m : Nat} {e : ℤ} {h : 0 < m}

theorem unpack_pack_normal (hlong : 2 ^ 52 ≤ m) (hm : m < 2 ^ 53) (hmin : -1074 ≤ e)
    (hmax : e ≤ 971) :
    UnpackedFloat.unpack Format.binary64 (UnpackedFloat.pack Format.binary64 (.finite s m e h)) =
      .finite s m e h := by
  have hfits : ¬ 2 ^ 11 ≤ (e + 1023 + 52).toNat + 1 := by omega
  have hlog : m.log2 + 1 = 53 := by
    have hlow := (Nat.le_log2 h.ne').mpr hlong
    have hhigh := (Nat.log2_lt h.ne').mpr hm
    omega
  have hpack : UnpackedFloat.pack Format.binary64 (.finite s m e h) =
      packComponents Format.binary64 s (BitVec.ofNat 11 (e + 1023 + 52).toNat)
        (BitVec.ofNat 52 m) :=
    (if_neg hfits).trans (if_pos hlog)
  have hexponent : (BitVec.ofNat 11 (e + 1023 + 52).toNat).toNat = (e + 1023 + 52).toNat := by
    rw [BitVec.toNat_ofNat, Nat.mod_eq_of_lt (by omega)]
  have hones : (e + 1023 + 52).toNat ≠ (-1#11).toNat := by
    show (e + 1023 + 52).toNat ≠ 2047
    omega
  have hzero : (e + 1023 + 52).toNat ≠ (0#11).toNat := by
    show (e + 1023 + 52).toNat ≠ 0
    omega
  rw [hpack, unpack_normal (fun heq => hones (hexponent.symm.trans (congrArg _ heq)))
    (fun heq => hzero (hexponent.symm.trans (congrArg _ heq)))]
  refine finite_congr ?_ ?_
  · rw [BitVec.toNat_ofNat]
    omega
  · rw [hexponent]
    omega

theorem unpack_pack_subnormal (hshort : m < 2 ^ 52) :
    UnpackedFloat.unpack Format.binary64
      (UnpackedFloat.pack Format.binary64 (.finite s m (-1074) h)) = .finite s m (-1074) h := by
  have hlog : ¬ m.log2 + 1 = 53 := by
    have := (Nat.log2_lt h.ne').mpr hshort
    omega
  have hpack : UnpackedFloat.pack Format.binary64 (.finite s m (-1074) h) =
      packComponents Format.binary64 s 0#11 (BitVec.ofNat 52 m) :=
    if_neg hlog
  have hmantissa : (BitVec.ofNat 52 m).toNat = m := by
    rw [BitVec.toNat_ofNat, Nat.mod_eq_of_lt hshort]
  rw [hpack, unpack_subnormal (h.trans_eq hmantissa.symm)]
  exact finite_congr hmantissa rfl

/-- **The bits keep the mantissa and the exponent of a double.** -/
theorem IsPlaced.unpack_pack (hm : IsPlaced m e) :
    UnpackedFloat.unpack Format.binary64 (UnpackedFloat.pack Format.binary64 (.finite s m e h)) =
      .finite s m e h := by
  by_cases hlong : 2 ^ 52 ≤ m
  · exact unpack_pack_normal hlong hm.lt hm.min hm.max
  · obtain rfl := hm.long.resolve_right hlong
    exact unpack_pack_subnormal (Nat.lt_of_not_le hlong)

end unpack_pack

/-! ## What unpacks -/

def InRange : UnpackedFloat → Prop
  | .finite _ m e _ => IsPlaced m e
  | _ => True

theorem inRange_unpack (b : BitVec 64) : InRange (UnpackedFloat.unpack Format.binary64 b) := by
  fun_cases UnpackedFloat.unpack Format.binary64 b with
  | case1 => trivial
  | case2 => trivial
  | case3 => trivial
  | case4 mantissa exponent e sign sign' hones hzero hmantissa =>
    have he : e + 1 = -1074 := by
      have : exponent.toNat = 0 := by rw [hzero]; rfl
      show (exponent.toNat : ℤ) - (1023 + 52) + 1 = -1074
      omega
    have hlt : mantissa.toNat < 2 ^ 52 := mantissa.isLt
    exact ⟨by omega, by omega, by omega, Or.inl he⟩
  | case5 mantissa exponent e sign sign' hones hzero =>
    have hlt : exponent.toNat < 2 ^ 11 := exponent.isLt
    have hones' : exponent.toNat ≠ 2047 := fun h => hones (BitVec.eq_of_toNat_eq h)
    have hzero' : exponent.toNat ≠ 0 := fun h => hzero (BitVec.eq_of_toNat_eq h)
    have he : e = (exponent.toNat : ℤ) - (1023 + 52) := rfl
    have hmantissa : mantissa.toNat < 2 ^ 52 := mantissa.isLt
    have hm : (1#1 ++ mantissa).toNat = 2 ^ 52 + mantissa.toNat := toNat_implicit mantissa
    refine ⟨?_, by omega, by omega, Or.inr ?_⟩
    · show (1#1 ++ mantissa).toNat < 2 ^ 53
      omega
    · show 2 ^ 52 ≤ (1#1 ++ mantissa).toNat
      omega

end Double

end ChartFeed
