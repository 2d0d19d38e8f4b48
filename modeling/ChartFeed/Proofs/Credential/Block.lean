import ChartFeed.Credential.Block
import Mathlib.Data.List.GetD

/-!
# Blocks, chains and paddings, both ways

* `Block.split?_eq_some` : blocks are cut from their joined bytes, and only from them.
* `Cbc.decrypt_encrypt`, `Cbc.encrypt_decrypt` : the two directions of a chain undo each other.
* `Padding.unpad?_eq_some_iff` : bytes are unpadded to those that they are filled up from.
* `Padding.unpad?_eq_some` : whole blocks are the filled-up form of at most one list of bytes.
-/

namespace ChartFeed

/-! ## Bytes and blocks -/

namespace Block

@[simp] theorem length_toBytes (b : Block) : b.toBytes.length = 16 := Vector.length_toList

@[simp] theorem ofBytes_toBytes (b : Block) : ofBytes b.toBytes = b := by
  refine Vector.ext fun i h => ?_
  have hi : i < b.toBytes.length := by rw [length_toBytes]; exact h
  rw [ofBytes, Vector.getElem_ofFn]
  exact (List.getD_eq_getElem _ _ hi).trans (Vector.getElem_toList _)

theorem toBytes_ofBytes {bs : List UInt8} (h : bs.length = 16) : (ofBytes bs).toBytes = bs := by
  refine List.ext_getElem (by rw [length_toBytes, h]) fun i h₁ h₂ => ?_
  rw [← List.getD_eq_getElem bs 0 h₂]
  simp only [toBytes, ofBytes, Vector.getElem_toList, Vector.getElem_ofFn]

theorem cut_flatMap (bs : List Block) : split?.cut bs.length (bs.flatMap toBytes) = bs := by
  induction bs with
  | nil => rfl
  | cons b bs ih =>
    rw [List.flatMap_cons, List.length_cons, split?.cut, List.take_left' (length_toBytes b),
      List.drop_left' (length_toBytes b), ih, ofBytes_toBytes]

theorem flatMap_cut {n : Nat} {bytes : List UInt8} (h : bytes.length = 16 * n) :
    (split?.cut n bytes).flatMap toBytes = bytes := by
  induction n generalizing bytes with
  | zero => rw [List.eq_nil_of_length_eq_zero h]; rfl
  | succ n ih =>
    have hhead : (bytes.take 16).length = 16 := by rw [List.length_take]; omega
    have htail : (bytes.drop 16).length = 16 * n := by rw [List.length_drop]; omega
    rw [split?.cut, List.flatMap_cons, toBytes_ofBytes hhead, ih htail, List.take_append_drop]

theorem length_flatMap_toBytes (bs : List Block) : (bs.flatMap toBytes).length = 16 * bs.length := by
  induction bs with
  | nil => rfl
  | cons b bs ih =>
    rw [List.flatMap_cons, List.length_append, ih, length_toBytes, List.length_cons]
    omega

/-- **Blocks are cut from their joined bytes**, and from no others. -/
theorem split?_eq_some {bytes : List UInt8} {bs : List Block} :
    split? bytes = some bs ↔ bs.flatMap toBytes = bytes := by
  unfold split?
  constructor
  · intro h
    split at h
    · rename_i hwhole
      cases h
      exact flatMap_cut (by omega)
    · cases h
  · rintro rfl
    have hlength := length_flatMap_toBytes bs
    rw [if_pos (by omega), show (bs.flatMap toBytes).length / 16 = bs.length by omega, cut_flatMap]

theorem flatMap_toBytes_inj {bs bs' : List Block} (h : bs.flatMap toBytes = bs'.flatMap toBytes) :
    bs = bs' :=
  Option.some.inj ((split?_eq_some.mpr h).symm.trans (split?_eq_some.mpr rfl))

end Block

/-! ## Chains -/

namespace Cbc

open Block (mix_mix)

variable {c : BlockCipher}

theorem decrypt_encrypt (hc : c.IsInverse) (iv : Block) (bs : List Block) :
    decrypt c iv (encrypt c iv bs) = bs := by
  induction bs generalizing iv with
  | nil => rfl
  | cons b bs ih => rw [encrypt, decrypt, hc.decrypt_encrypt, mix_mix, ih]

theorem encrypt_decrypt (hc : c.IsInverse) (iv : Block) (bs : List Block) :
    encrypt c iv (decrypt c iv bs) = bs := by
  induction bs generalizing iv with
  | nil => rfl
  | cons b bs ih => simp only [encrypt, decrypt, mix_mix, hc.encrypt_decrypt, ih]

end Cbc

/-! ## Paddings -/

namespace Padding

theorem length_pad_mod (bs : List UInt8) : (pad bs).length % 16 = 0 := by
  unfold pad
  rw [List.length_append, List.length_replicate]
  omega

/-- The bytes are filled up as PKCS#7 asks: other bytes stand first and a filling after them, of one
to sixteen bytes that each tell their number. -/
def IsFilled (bs p : List UInt8) : Prop :=
  ∃ n, 1 ≤ n ∧ n ≤ 16 ∧ bs = p ++ List.replicate n (UInt8.ofNat n)

theorem unpad?_filled (p : List UInt8) {n : Nat} (hpos : 1 ≤ n) (hmax : n ≤ 16) :
    unpad? (p ++ List.replicate n (UInt8.ofNat n)) = some p := by
  have hlast : (p ++ List.replicate n (UInt8.ofNat n)).getLast? = some (UInt8.ofNat n) := by
    rw [List.getLast?_append, List.getLast?_replicate, if_neg (by omega), Option.some_or]
  have hvalue : (UInt8.ofNat n).toNat = n := by
    rw [UInt8.toNat_ofNat', Nat.mod_eq_of_lt (by omega)]
  have hkept : (p ++ List.replicate n (UInt8.ofNat n)).length - n = p.length := by
    rw [List.length_append, List.length_replicate]
    omega
  unfold unpad?
  simp only [hlast, hvalue, hkept, List.drop_left, List.take_left]
  rw [if_pos ⟨hpos, hmax, by simp, by simp⟩]

/-- **Bytes are unpadded to those that they are filled up from**, if there are any. -/
theorem unpad?_eq_some_iff {bs p : List UInt8} : unpad? bs = some p ↔ IsFilled bs p := by
  constructor
  · intro h
    unfold unpad? at h
    split at h
    · cases h
    · rename_i last _
      dsimp only at h
      split at h
      · rename_i hfill
        obtain ⟨hpos, hmax, hfits, hall⟩ := hfill
        cases h
        refine ⟨last.toNat, hpos, hmax, ?_⟩
        -- what is cut off is as many copies of the last byte as it tells
        have htail : bs.drop (bs.length - last.toNat) = List.replicate last.toNat last := by
          refine List.eq_replicate_iff.mpr ⟨by rw [List.length_drop]; omega, fun b hb => ?_⟩
          exact eq_of_beq (List.all_eq_true.mp hall b hb)
        rw [UInt8.ofNat_toNat, ← htail, List.take_append_drop]
      · cases h
  · rintro ⟨n, hpos, hmax, rfl⟩
    exact unpad?_filled p hpos hmax

theorem IsFilled.unique {bs p q : List UInt8} (hp : IsFilled bs p) (hq : IsFilled bs q) : p = q := by
  rw [← unpad?_eq_some_iff] at hp hq
  exact Option.some.inj (hp.symm.trans hq)

theorem IsFilled.ne_nil {bs p : List UInt8} (h : IsFilled bs p) : bs ≠ [] := by
  obtain ⟨n, hpos, -, rfl⟩ := h
  intro hnil
  have hlength := congrArg List.length hnil
  simp only [List.length_append, List.length_replicate, List.length_nil] at hlength
  omega

theorem unpad?_pad (bs : List UInt8) : unpad? (pad bs) = some bs :=
  unpad?_filled bs (by omega) (by omega)

/-- **Whole blocks are the filled-up form of at most one list of bytes**, the one that they are
unpadded to. -/
theorem unpad?_eq_some {bs p : List UInt8} (hwhole : bs.length % 16 = 0) :
    unpad? bs = some p ↔ bs = pad p := by
  constructor
  · intro h
    obtain ⟨n, hpos, hmax, rfl⟩ := unpad?_eq_some_iff.mp h
    rw [List.length_append, List.length_replicate] at hwhole
    have hn : 16 - p.length % 16 = n := by omega
    unfold pad
    rw [hn]
  · rintro rfl
    exact unpad?_pad p

end Padding

end ChartFeed
