import ChartFeed.Proofs.Credential.StoredForm

/-!
# Why a stored credential is refused

* `Text.isSome_hexDecode?` : digits decode exactly when they come in pairs and each is hexadecimal,
  in either case.
* `Cipher.IsMalformed`, `parse?_eq_none` : what is wrong with a text that is no stored form.
* `Cipher.IsSpoiled`, `open?_eq_none` : what is wrong with a ciphertext that does not open.
* `Cipher.decrypt_faults` : which of the two faults is told of, and that all else opens.
-/

namespace ChartFeed

/-! ## Digits -/

namespace Text

def hexDigits : List Char :=
  ['0', '1', '2', '3', '4', '5', '6', '7', '8', '9', 'a', 'b', 'c', 'd', 'e', 'f', 'A', 'B', 'C',
    'D', 'E', 'F']

/-- The hexadecimal digits of whole bytes. -/
structure AreHexPairs (cs : List Char) : Prop where
  even : cs.length % 2 = 0
  digits : ∀ c ∈ cs, c ∈ hexDigits

theorem isSome_hexDigit? {c : Char} : (hexDigit? c).isSome = true ↔ c ∈ hexDigits := by
  by_cases hc : c.toNat < 128
  · apply of_forall_ascii _ c hc
    decide +kernel
  · rw [(not_hexDigit_of_le (show 128 ≤ c.toNat by omega)).1]
    have hascii : hexDigits.all (·.toNat < 128) = true := by decide
    constructor
    · intro h
      cases h
    · intro h
      exact absurd (of_decide_eq_true (List.all_eq_true.mp hascii c h)) hc

theorem isSome_hexDecode?_cons_cons (a b : Char) (cs : List Char) :
    (hexDecode? (a :: b :: cs)).isSome =
      ((hexDigit? a).isSome && (hexDigit? b).isSome && (hexDecode? cs).isSome) := by
  rw [hexDecode?]
  cases hexDigit? a <;> cases hexDigit? b <;> cases hexDecode? cs <;> rfl

/-- **Digits decode exactly when they come in pairs and each is hexadecimal.** -/
theorem isSome_hexDecode? {cs : List Char} :
    (hexDecode? cs).isSome = true ↔ AreHexPairs cs := by
  induction cs using hexDecode?.induct with
  | case1 => exact iff_of_true rfl ⟨rfl, List.forall_mem_nil _⟩
  | case2 c => exact iff_of_false (by simp [hexDecode?]) fun h => by simpa using h.even
  | case3 a b cs ih =>
    rw [isSome_hexDecode?_cons_cons, Bool.and_eq_true, Bool.and_eq_true, isSome_hexDigit?,
      isSome_hexDigit?, ih]
    constructor
    · rintro ⟨⟨ha, hb⟩, heven, hdigits⟩
      refine ⟨?_, List.forall_mem_cons.mpr ⟨ha, List.forall_mem_cons.mpr ⟨hb, hdigits⟩⟩⟩
      simp only [List.length_cons]
      omega
    · rintro ⟨heven, hdigits⟩
      obtain ⟨ha, hdigits⟩ := List.forall_mem_cons.mp hdigits
      obtain ⟨hb, hdigits⟩ := List.forall_mem_cons.mp hdigits
      simp only [List.length_cons] at heven
      exact ⟨⟨ha, hb⟩, by omega, hdigits⟩

theorem length_hexEncode (bs : List UInt8) : (hexEncode bs).length = 2 * bs.length := by
  induction bs with
  | nil => rfl
  | cons b bs ih =>
    simp only [hexEncode, List.length_cons, ih]
    omega

theorem length_of_hexDecode? {cs : List Char} {bs : List UInt8} (h : hexDecode? cs = some bs) :
    cs.length = 2 * bs.length := by
  rw [← length_hexEncode, ← hexDecode?_eq_some.mp h, List.length_map]

end Text

namespace Credential.Cipher

open Text (hexEncode hexDecode? splitOnChar lowerHex AreHexPairs)
open Padding (IsFilled)

variable {c : Cipher} {stored plain : String} {iv : Block} {ciphertext : List UInt8}

/-! ## No stored form -/

/-- The text is two parts with a colon between them. -/
structure IsPair (stored : String) (left right : List Char) : Prop where
  joined : stored.toList = left ++ ':' :: right
  left_solid : ':' ∉ left
  right_solid : ':' ∉ right

/-- Why a text is no stored form. -/
inductive IsMalformed (stored : String) : Prop where
  /-- It has not exactly two parts. -/
  | parts (h : ¬ ∃ left right, IsPair stored left right)
  /-- One of the parts is not an even number of hexadecimal digits. -/
  | digits {left right : List Char} (h : IsPair stored left right)
    (hdigits : ¬ AreHexPairs left ∨ ¬ AreHexPairs right)
  /-- The first part does not stand for sixteen bytes. -/
  | vector {left right : List Char} (h : IsPair stored left right)
    (hlength : left.length ≠ 2 * 16)

/-- The text is written of an initial vector and a ciphertext, in digits of either case. -/
def IsWrittenOf (stored : String) (iv : Block) (ciphertext : List UInt8) : Prop :=
  (lowerHex stored).toList = hexEncode iv.toBytes ++ ':' :: hexEncode ciphertext

theorem splitOnChar_eq_of_isPair {left right : List Char} (h : IsPair stored left right) :
    splitOnChar ':' stored.toList = [left, right] :=
  Text.splitOnChar_eq_pair.mpr ⟨h.joined, h.left_solid, h.right_solid⟩

theorem IsPair.unique {left right left' right' : List Char} (h : IsPair stored left right)
    (h' : IsPair stored left' right') : left = left' ∧ right = right' := by
  have hparts := (splitOnChar_eq_of_isPair h).symm.trans (splitOnChar_eq_of_isPair h')
  simpa using hparts

theorem parse?_of_isPair {left right : List Char} (h : IsPair stored left right) :
    (parse? stored).isSome = true ↔
      AreHexPairs left ∧ AreHexPairs right ∧ left.length = 2 * 16 := by
  rw [← Text.isSome_hexDecode?, ← Text.isSome_hexDecode?, parse?, splitOnChar_eq_of_isPair h]
  dsimp only
  cases hleft : hexDecode? left with
  | none => simp
  | some ivBytes =>
    cases hright : hexDecode? right with
    | none => simp
    | some bytes =>
      have hlength := Text.length_of_hexDecode? hleft
      by_cases hiv : ivBytes.length = 16
      · simp [hiv, hlength]
      · have hne : 2 * ivBytes.length ≠ 32 := by omega
        simp [hiv, hlength, hne]

/-- **What is not read as a stored form is malformed**, and nothing else. -/
theorem parse?_eq_none : parse? stored = none ↔ IsMalformed stored := by
  by_cases hpair : ∃ left right, IsPair stored left right
  · obtain ⟨left, right, hpair⟩ := hpair
    rw [← Option.not_isSome_iff_eq_none, parse?_of_isPair hpair]
    constructor
    · intro h
      by_cases hlength : left.length = 2 * 16
      · refine .digits hpair (not_and_or.mp fun hdigits => ?_)
        exact h ⟨hdigits.1, hdigits.2, hlength⟩
      · exact .vector hpair hlength
    · rintro h ⟨hleft, hright, hlength⟩
      cases h with
      | parts h => exact h ⟨left, right, hpair⟩
      | digits hpair' hdigits =>
        obtain ⟨rfl, rfl⟩ := hpair.unique hpair'
        exact hdigits.elim (· hleft) (· hright)
      | vector hpair' hvector =>
        obtain ⟨rfl, rfl⟩ := hpair.unique hpair'
        exact hvector hlength
  · refine iff_of_true ?_ (.parts hpair)
    unfold parse?
    split
    · rename_i left right hparts
      obtain ⟨hjoined, hleft, hright⟩ := Text.splitOnChar_eq_pair.mp hparts
      exact absurd ⟨left, right, hjoined, hleft, hright⟩ hpair
    · rfl

theorem isWrittenOf_of_parse? (h : parse? stored = some (iv, ciphertext)) :
    IsWrittenOf stored iv ciphertext := by
  rw [IsWrittenOf, lowerHex, String.toList_ofList]
  exact parse?_eq_some.mp h

/-! ## No ciphertext of a text -/

/-- The bytes that the blocks of a ciphertext decrypt to. -/
def unchained (c : Cipher) (iv : Block) (blocks : List Block) : List UInt8 :=
  (Cbc.decrypt c iv blocks).flatMap Block.toBytes

/-- Why a ciphertext does not open to a text. -/
inductive IsSpoiled (c : Cipher) (iv : Block) (ciphertext : List UInt8) : Prop where
  | empty (h : ciphertext = [])
  /-- Its last block is not whole. -/
  | ragged (h : ciphertext.length % 16 ≠ 0)
  /-- The decrypted bytes do not end in a filling. -/
  | unfilled {blocks : List Block} (h : blocks.flatMap Block.toBytes = ciphertext)
    (hfill : ∀ bytes, ¬ IsFilled (unchained c iv blocks) bytes)
  /-- The bytes before the filling are those of no text. -/
  | textless {blocks : List Block} {bytes : List UInt8}
    (h : blocks.flatMap Block.toBytes = ciphertext)
    (hfill : IsFilled (unchained c iv blocks) bytes) (htext : ∀ s, utf8 s ≠ bytes)

theorem open?_eq_some_iff :
    open? c iv ciphertext = some plain ↔ ∃ blocks : List Block,
      blocks.flatMap Block.toBytes = ciphertext ∧
        IsFilled (unchained c iv blocks) (utf8 plain) := by
  simp only [open?, Option.bind_eq_bind, Option.bind_eq_some_iff, Block.split?_eq_some,
    Padding.unpad?_eq_some_iff, ofUtf8?_eq_some, exists_eq_right, unchained]

/-- **A ciphertext that does not open is spoiled**, and no other is. -/
theorem open?_eq_none : open? c iv ciphertext = none ↔ IsSpoiled c iv ciphertext := by
  constructor
  · intro h
    by_cases hwhole : ciphertext.length % 16 = 0
    · obtain ⟨blocks, hblocks⟩ : ∃ blocks, Block.split? ciphertext = some blocks :=
        ⟨_, if_pos hwhole⟩
      rw [Block.split?_eq_some] at hblocks
      by_cases hfill : ∃ bytes, IsFilled (unchained c iv blocks) bytes
      · obtain ⟨bytes, hfill⟩ := hfill
        refine .textless hblocks hfill fun s hs => ?_
        rw [open?_eq_some_iff.mpr ⟨blocks, hblocks, hs ▸ hfill⟩] at h
        cases h
      · exact .unfilled hblocks (not_exists.mp hfill)
    · exact .ragged hwhole
  · intro h
    rw [Option.eq_none_iff_forall_ne_some]
    intro s hs
    obtain ⟨blocks, hblocks, hfill⟩ := open?_eq_some_iff.mp hs
    have hlength := Block.length_flatMap_toBytes blocks
    rw [hblocks] at hlength
    cases h with
    | empty h =>
      obtain rfl : blocks = [] := by
        rw [h, List.length_nil] at hlength
        exact List.eq_nil_of_length_eq_zero (by omega)
      exact hfill.ne_nil rfl
    | ragged h => omega
    | unfilled h hunfilled =>
      obtain rfl := Block.flatMap_toBytes_inj (hblocks.trans h.symm)
      exact hunfilled _ hfill
    | textless h hfill' htext =>
      obtain rfl := Block.flatMap_toBytes_inj (hblocks.trans h.symm)
      exact htext s (hfill.unique hfill')

/-! ## Faults -/

theorem decrypt_eq_format : decrypt c stored = .error .format ↔ IsMalformed stored := by
  rw [← parse?_eq_none, decrypt]
  cases parse? stored with
  | none => simp
  | some parsed =>
    dsimp only
    cases open? c parsed.1 parsed.2 <;> simp

/-- **A stored credential is refused for its form exactly when it is malformed**, whatever the
secret. Any other is written of an initial vector and a ciphertext; it is refused as not decrypting
exactly when the ciphertext is spoiled, and opens to the text of the bytes before the filling
otherwise. -/
theorem decrypt_faults (secret stored : String) :
    (decrypt (ofSecret secret) stored = .error .format ↔ IsMalformed stored) ∧
      (∀ secret', decrypt (ofSecret secret') stored = .error .format ↔
        decrypt (ofSecret secret) stored = .error .format) ∧
      (decrypt (ofSecret secret) stored ≠ .error .format → ∃ iv ciphertext,
        IsWrittenOf stored iv ciphertext ∧
          (decrypt (ofSecret secret) stored = .error .decrypt ↔
            IsSpoiled (ofSecret secret) iv ciphertext) ∧
          (¬ IsSpoiled (ofSecret secret) iv ciphertext → ∃ blocks plain,
            blocks.flatMap Block.toBytes = ciphertext ∧
              IsFilled (unchained (ofSecret secret) iv blocks) (utf8 plain) ∧
              decrypt (ofSecret secret) stored = .ok plain)) := by
  refine ⟨decrypt_eq_format, fun secret' => decrypt_eq_format.trans decrypt_eq_format.symm, ?_⟩
  intro hformed
  rw [Ne, decrypt_eq_format, ← parse?_eq_none] at hformed
  obtain ⟨⟨iv, ciphertext⟩, hparse⟩ := Option.ne_none_iff_exists'.mp hformed
  refine ⟨iv, ciphertext, isWrittenOf_of_parse? hparse, ?_⟩
  rw [decrypt_of_parse? hparse, ← open?_eq_none]
  cases hopen : open? (ofSecret secret) iv ciphertext with
  | none => simp
  | some plain =>
    obtain ⟨blocks, hblocks, hfill⟩ := open?_eq_some_iff.mp hopen
    refine ⟨by simp, fun _ => ⟨blocks, plain, hblocks, hfill, rfl⟩⟩

end Credential.Cipher

end ChartFeed
