import Mathlib
import ChartFeed.Scalar.Numeral

/-!
# Doubles that are numbers

* `Double.unpack_cases` : what the bits of a number stand for.
* `Double.neg_ne_nan`, `Double.mul_ne_nan`, `Double.div_ne_nan` : operations that make numbers of
  numbers.
* `Double.ofInt_ne_nan`, `Double.ofScientific_ne_nan`, `leadingNumber_ne_nan` : whatever is read, as a
  whole number or as a decimal, is a number.
* `Double.lt_infinity_or_eq`, `Double.neg_infinity_lt_or_eq` : numbers lie between the infinities.
-/

namespace ChartFeed

namespace Double

open Float.Model Float.Model.UnpackedFloat

/-! ## What the bits stand for -/

theorem eq_nan_iff {x : Float} : x = .nan ↔ x.toModel.unpack = .notANumber := by
  rw [← isNaN_iff, ← decide_eq_true_iff (p := x = .nan), ← Float.isNaN_eq_decide_eq_nan]
  rfl

theorem eq_of_unpack_eq {x y : Float} (h : x.toModel.unpack = y.toModel.unpack) : x = y := by
  rw [← Float.toBits_inj, ← UInt64.toBitVec_inj]
  exact (unpack_inj_of_valid x.toModel.valid y.toModel.valid).mp h

theorem lt_iff {x y : Float} : x < y ↔ x.toModel.unpack.lt y.toModel.unpack = true :=
  decide_eq_true_iff

theorem eq_notANumber_of_pack {u : UnpackedFloat}
    (h : u.pack Format.binary64 = packedNaN Format.binary64) : u = .notANumber := by
  have hexponent := congrArg unpackExponent h
  have hmantissa := congrArg unpackMantissa h
  revert hexponent hmantissa
  fun_cases UnpackedFloat.pack with
  | case1 => simp
  | case2 s => simp [packedInfinity, packedNaN]
  | case3 s => simp [packedZero, packedNaN]
  | case4 s m e hm biased hover => simp [packedInfinity, packedNaN]
  | case5 s m e hm bits biased hfits hnormal =>
    -- the exponent of a normal number is below that of not-a-number
    intro hexponent hmantissa
    simp only [packedNaN, unpackExponent_packComponents, ← BitVec.toNat_inj] at hexponent
    simp at hexponent hfits
    omega
  | case6 s m e hm bits biased hfits hnormal => simp [packedNaN]

theorem ofModel_pack_ne_nan {u : UnpackedFloat} (h : u ≠ .notANumber) :
    Float.ofModel (.pack u) ≠ .nan := by
  intro hnan
  rw [eq_nan_iff] at hnan
  apply h
  apply eq_notANumber_of_pack
  rw [← unpack_eq_notANumber_iff_of_valid valid_pack]
  exact hnan

theorem ne_nan_of_isFinite {x : Float} (h : x.isFinite = true) : x ≠ .nan := by
  rintro rfl
  revert h
  decide

/-! ## Rounding -/

theorem roundWithAccuracy_ne_notANumber (format : Format) (s : Sign) (m : Nat) (e : Int)
    (accuracy : Accuracy) : roundWithAccuracy format s m e accuracy ≠ .notANumber := by
  unfold roundWithAccuracy
  dsimp only
  split <;> nofun

theorem normalize_ne_notANumber (format : Format) (m e : Int) (s : Sign) :
    UnpackedFloat.normalize format m e s ≠ .notANumber := by
  unfold UnpackedFloat.normalize
  split
  · exact roundWithAccuracy_ne_notANumber _ _ _ _ _
  · nofun
  · exact roundWithAccuracy_ne_notANumber _ _ _ _ _

theorem ofScientific_ne_notANumber (format : Format) (m : Nat) (e : Int) :
    UnpackedFloat.ofScientific format m e ≠ .notANumber := by
  unfold UnpackedFloat.ofScientific
  split
  · nofun
  split
  · nofun
  split
  · nofun
  split <;> exact roundWithAccuracy_ne_notANumber _ _ _ _ _

/-! ## Operations -/

/-- Neither a zero nor an infinity, nor not-a-number. -/
def IsUnit (x : Float) : Prop := ∃ s m e h, x.toModel.unpack = .finite s m e h

variable {x y : Float}

theorem zero_ne_nan : (0.0 : Float) ≠ .nan := by decide

theorem unpack_cases {motive : UnpackedFloat → Prop} (hx : x ≠ .nan)
    (infinity : ∀ s, motive (.infinity s)) (zero : ∀ s, motive (.zero s))
    (finite : ∀ s m e h, motive (.finite s m e h)) : motive x.toModel.unpack := by
  rw [ne_eq, eq_nan_iff] at hx
  cases hu : x.toModel.unpack with
  | notANumber => exact absurd hu hx
  | infinity s => exact infinity s
  | zero s => exact zero s
  | finite s m e h => exact finite s m e h

theorem neg_ne_nan (hx : x ≠ .nan) : -x ≠ .nan := by
  apply ofModel_pack_ne_nan
  refine unpack_cases (motive := fun u => u.neg ≠ .notANumber) hx ?_ ?_ ?_ <;> nofun

theorem mul_ne_nan (hx : x ≠ .nan) (hy : IsUnit y) : x * y ≠ .nan := by
  apply ofModel_pack_ne_nan
  obtain ⟨s, m, e, h, hy⟩ := hy
  rw [hy]
  refine unpack_cases
    (motive := fun u => UnpackedFloat.mul .binary64 u (.finite s m e h) ≠ .notANumber)
    hx ?_ ?_ ?_
  · nofun
  · nofun
  · intro _ _ _ _
    exact roundWithAccuracy_ne_notANumber _ _ _ _ _

theorem div_ne_nan (hx : x ≠ .nan) (hy : IsUnit y) : x / y ≠ .nan := by
  apply ofModel_pack_ne_nan
  obtain ⟨s, m, e, h, hy⟩ := hy
  rw [hy]
  refine unpack_cases
    (motive := fun u => UnpackedFloat.div .binary64 u (.finite s m e h) ≠ .notANumber)
    hx ?_ ?_ ?_
  · nofun
  · nofun
  · intro _ _ _ _
    exact roundWithAccuracy_ne_notANumber _ _ _ _ _

theorem isUnit_power (h : x ∈ Float.exactlyRepresentablePowersOfTen) : IsUnit x := by
  unfold Float.exactlyRepresentablePowersOfTen at h
  simp only [List.mem_toArray, List.mem_cons, List.not_mem_nil, or_false] at h
  rcases h with rfl | rfl | rfl | rfl | rfl | rfl | rfl | rfl | rfl | rfl | rfl | rfl | rfl | rfl |
    rfl | rfl | rfl | rfl | rfl | rfl | rfl | rfl | rfl <;> exact ⟨_, _, _, _, rfl⟩

theorem ofScientific_ne_nan (m : Nat) (s : Bool) (e : Nat) : Float.ofScientific m s e ≠ .nan := by
  have hword (n : UInt64) : n.toFloat ≠ .nan :=
    ofModel_pack_ne_nan (normalize_ne_notANumber _ _ _ _)
  unfold Float.ofScientific
  split
  · dsimp only
    split
    · exact div_ne_nan (hword _) (isUnit_power (Array.getElem_mem _))
    · exact mul_ne_nan (hword _) (isUnit_power (Array.getElem_mem _))
  · exact ofModel_pack_ne_nan (ofScientific_ne_notANumber _ _ _)

theorem ofInt_ne_nan (n : Int) : Float.ofInt n ≠ .nan := by
  cases n with
  | ofNat n => exact ofScientific_ne_nan n false 0
  | negSucc n => exact neg_ne_nan (ofScientific_ne_nan (n + 1) false 0)

/-! ## Between the infinities -/

theorem lt_infinity_or_eq (hx : x ≠ .nan) : x < 1.0 / 0.0 ∨ x = 1.0 / 0.0 := by
  have hinfinity : (1.0 / 0.0 : Float).toModel.unpack = .infinity .positive := rfl
  rw [lt_iff, hinfinity]
  cases hu : x.toModel.unpack with
  | notANumber => exact absurd (eq_nan_iff.mpr hu) hx
  | infinity s =>
    cases s with
    | negative => exact .inl rfl
    | positive => exact .inr (eq_of_unpack_eq (hu.trans hinfinity.symm))
  | _ => exact .inl rfl

theorem neg_infinity_lt_or_eq (hx : x ≠ .nan) : -1.0 / 0.0 < x ∨ x = -1.0 / 0.0 := by
  have hinfinity : (-1.0 / 0.0 : Float).toModel.unpack = .infinity .negative := rfl
  rw [lt_iff, hinfinity]
  cases hu : x.toModel.unpack with
  | notANumber => exact absurd (eq_nan_iff.mpr hu) hx
  | infinity s =>
    cases s with
    | negative => exact .inr (eq_of_unpack_eq (hu.trans hinfinity.symm))
    | positive => exact .inl rfl
  | _ => exact .inl rfl

end Double

/-! ## Decimals and numerals -/

theorem Decimal.toFloat_ne_nan (d : Decimal) : d.toFloat ≠ .nan := by
  unfold Decimal.toFloat
  dsimp only
  split
  · exact Double.zero_ne_nan
  split
  · decide
  split
  · exact Double.zero_ne_nan
  · exact Double.ofScientific_ne_nan _ _ _

theorem Numeral.value_ne_nan (n : Numeral) : n.value ≠ .nan := by
  unfold Numeral.value Decimal.toSignedFloat
  split
  · exact Double.neg_ne_nan n.decimal.toFloat_ne_nan
  · exact n.decimal.toFloat_ne_nan

theorem leadingNumber_ne_nan {s : String} {x : Float} (h : leadingNumber s = some x) :
    x ≠ .nan := by
  obtain ⟨⟨n, rest⟩, -, rfl⟩ := Option.map_eq_some_iff.mp h
  exact n.value_ne_nan

end ChartFeed
