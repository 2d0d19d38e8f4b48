import ChartFeed.Proofs.Credential.Aes
import ChartFeed.Proofs.Credential.RoundTrip

/-!
# Which texts are stored credentials

* `Text.hexDecode?_eq_some` : digits are those of bytes exactly when, in lower case, they are their
  encoding.
* `Cipher.parse?_eq_some` : a stored form is read as an initial vector and a ciphertext exactly when,
  its digits in lower case, it is written of them.
* `Cipher.decrypt_ofSecret` : what decrypts to a text is what the text is encrypted to, and nothing
  else.
-/

namespace ChartFeed

/-! ## Digits in either case -/

namespace Text

/-- A capital hexadecimal digit as the small one; all other characters stay. -/
def lowerHexDigit (c : Char) : Char := if 'A' ≤ c ∧ c ≤ 'F' then c.toLower else c

/-- The text with its capital hexadecimal digits lowered. -/
def lowerHex (s : String) : String := String.ofList (s.toList.map lowerHexDigit)

/-- What holds of the first 128 characters, one by one, holds of every character among them. -/
theorem of_forall_ascii {p : Char → Prop} (h : ∀ m : Fin 128, p (Char.ofNat m.val)) (c : Char)
    (hc : c.toNat < 128) : p c := by
  have := h ⟨c.toNat, hc⟩
  rwa [Char.ofNat_toNat] at this

theorem not_hexDigit_of_le {c : Char} (h : 128 ≤ c.toNat) :
    hexDigit? c = none ∧ lowerHexDigit c = c := by
  have hbig : ∀ d : Char, d.toNat < 128 → ¬ c ≤ d := by
    intro d hd hle
    have : c.toNat ≤ d.toNat := hle
    omega
  have h9 := hbig '9' (by decide)
  have hf := hbig 'f' (by decide)
  have hF := hbig 'F' (by decide)
  exact ⟨by simp [hexDigit?, h9, hf, hF], by simp [lowerHexDigit, hF]⟩

theorem hexDigit_lt (n : Nat) : (hexDigit n).toNat < 128 := by
  have table : ∀ m : Fin 16, (hexDigit m.val).toNat < 128 := by decide
  have h := table ⟨n % 16, Nat.mod_lt n (by decide)⟩
  rwa [show hexDigit (n % 16) = hexDigit n by simp [hexDigit]] at h

theorem hexDigit?_eq_some {c : Char} {n : Nat} (hn : n < 16) :
    hexDigit? c = some n ↔ lowerHexDigit c = hexDigit n := by
  by_cases hc : c.toNat < 128
  · have table : ∀ n : Fin 16, hexDigit? c = some n.val ↔ lowerHexDigit c = hexDigit n.val := by
      apply of_forall_ascii _ c hc
      decide +kernel
    exact table ⟨n, hn⟩
  · obtain ⟨hnone, hsame⟩ := not_hexDigit_of_le (show 128 ≤ c.toNat by omega)
    rw [hnone, hsame]
    constructor
    · intro h
      cases h
    · intro h
      have := hexDigit_lt n
      rw [← h] at this
      omega

theorem lt_of_hexDigit? {c : Char} {n : Nat} (h : hexDigit? c = some n) : n < 16 := by
  by_cases hc : c.toNat < 128
  · have table : ∀ n, hexDigit? c = some n → n < 16 := by
      apply of_forall_ascii _ c hc
      decide
    exact table n h
  · rw [(not_hexDigit_of_le (show 128 ≤ c.toNat by omega)).1] at h
    cases h

/-- **Digits decode to bytes exactly when, in lower case, they encode them.** -/
theorem hexDecode?_eq_some {cs : List Char} {bs : List UInt8} :
    hexDecode? cs = some bs ↔ cs.map lowerHexDigit = hexEncode bs := by
  induction cs using hexDecode?.induct generalizing bs with
  | case1 =>
    cases bs <;> simp [hexDecode?, hexEncode]
  | case2 =>
    cases bs <;> simp [hexDecode?, hexEncode]
  | case3 a b rest ih =>
    rw [hexDecode?]
    simp only [Option.bind_eq_bind, Option.bind_eq_some_iff, Option.pure_def, Option.some.injEq,
      List.map_cons]
    constructor
    · rintro ⟨hi, ha, lo, hb, tail, htail, rfl⟩
      have hhi := lt_of_hexDigit? ha
      have hlo := lt_of_hexDigit? hb
      have hvalue : (UInt8.ofNat (16 * hi + lo)).toNat = 16 * hi + lo := by
        rw [UInt8.toNat_ofNat', Nat.mod_eq_of_lt (by omega)]
      rw [hexEncode, hvalue, (hexDigit?_eq_some hhi).mp ha, (hexDigit?_eq_some hlo).mp hb,
        ih.mp htail, show (16 * hi + lo) / 16 = hi by omega, show (16 * hi + lo) % 16 = lo by omega]
    · intro h
      cases bs with
      | nil => cases h
      | cons byte tail =>
        have hbyte := byte.toNat_lt
        simp only [hexEncode, List.cons.injEq] at h
        obtain ⟨ha, hb, htail⟩ := h
        refine ⟨_, (hexDigit?_eq_some (by omega)).mpr ha, _, (hexDigit?_eq_some (by omega)).mpr hb,
          tail, ih.mpr htail, ?_⟩
        rw [Nat.div_add_mod, UInt8.ofNat_toNat]

theorem lowerHexDigit_eq_colon {c : Char} (h : lowerHexDigit c = ':') : c = ':' := by
  by_cases hc : c.toNat < 128
  · have table : lowerHexDigit c = ':' → c = ':' := by
      apply of_forall_ascii _ c hc
      decide
    exact table h
  · rwa [(not_hexDigit_of_le (show 128 ≤ c.toNat by omega)).2] at h

end Text

/-! ## Stored forms -/

namespace Credential.Cipher

open Text (hexEncode hexDecode? hexDecode?_eq_some lowerHex lowerHexDigit)

/-- **A stored form is read as an initial vector and a ciphertext** exactly when, its digits in lower
case, it is written of them. -/
theorem parse?_eq_some {stored : String} {iv : Block} {bytes : List UInt8} :
    parse? stored = some (iv, bytes) ↔
      stored.toList.map lowerHexDigit = hexEncode iv.toBytes ++ ':' :: hexEncode bytes := by
  unfold parse?
  constructor
  · intro h
    split at h
    · rename_i ivHex cipherHex hparts
      simp only [Option.bind_eq_bind, Option.bind_eq_some_iff] at h
      obtain ⟨ivBytes, hiv, ciphertext, hcipher, h⟩ := h
      split at h
      · rename_i hlength
        obtain ⟨rfl, rfl⟩ := Prod.mk.inj (Option.some.inj h)
        obtain ⟨hjoined, -, -⟩ := Text.splitOnChar_eq_pair.mp hparts
        rw [hjoined, Block.toBytes_ofBytes hlength, ← hexDecode?_eq_some.mp hiv,
          ← hexDecode?_eq_some.mp hcipher]
        simp [lowerHexDigit]
      · cases h
    · cases h
  · intro h
    obtain ⟨ivHex, rest, hstored, hiv, hrest⟩ := List.map_eq_append_iff.mp h
    obtain ⟨sep, cipherHex, rfl, hsep, hcipher⟩ := List.map_eq_cons_iff.mp hrest
    obtain rfl := Text.lowerHexDigit_eq_colon hsep
    -- a separator among the digits would be one among the encoded bytes
    have hfree : ∀ (cs : List Char) (bs : List UInt8), cs.map lowerHexDigit = hexEncode bs →
        ':' ∉ cs := by
      intro cs bs hcs hmem
      have : ':' ∈ cs.map lowerHexDigit := List.mem_map.mpr ⟨':', hmem, by decide⟩
      rw [hcs] at this
      exact Text.colon_notMem_hexEncode bs this
    rw [Text.splitOnChar_eq_pair.mpr ⟨hstored, hfree _ _ hiv, hfree _ _ hcipher⟩]
    simp [hexDecode?_eq_some.mpr hiv, hexDecode?_eq_some.mpr hcipher]

variable {c : Cipher} {stored plain : String}

theorem encrypt_eq (c : Cipher) (iv : Block) (plain : String) :
    (encrypt c iv plain).toList = hexEncode iv.toBytes ++ ':' :: hexEncode (sealed c iv plain) := by
  unfold encrypt sealed
  rw [String.toList_ofList]

theorem decrypt_eq_ok (hc : c.IsInverse) :
    decrypt c stored = .ok plain ↔ ∃ iv, lowerHex stored = encrypt c iv plain := by
  have hwritten : ∀ iv, lowerHex stored = encrypt c iv plain ↔
      parse? stored = some (iv, sealed c iv plain) := by
    intro iv
    rw [parse?_eq_some, ← encrypt_eq, ← String.toList_inj, lowerHex, String.toList_ofList]
  simp only [hwritten]
  unfold decrypt
  constructor
  · intro h
    split at h
    · cases h
    · rename_i iv bytes hparse
      split at h
      · cases h
      · rename_i opened hopen
        cases h
        refine ⟨iv, ?_⟩
        rw [hparse, (open?_eq_some hc).mp hopen]
  · rintro ⟨iv, hparse⟩
    rw [hparse]
    dsimp only
    rw [(open?_eq_some hc).mpr rfl]

/-- **What decrypts to a text is what the text is encrypted to under some initial vector**, but for
the case of its digits; and whatever the initial vector, the text comes back. -/
theorem decrypt_ofSecret (secret stored plain : String) :
    (decrypt (ofSecret secret) stored = .ok plain ↔
      ∃ iv, lowerHex stored = encrypt (ofSecret secret) iv plain) ∧
    ∀ iv, decrypt (ofSecret secret) (encrypt (ofSecret secret) iv plain) = .ok plain :=
  ⟨decrypt_eq_ok (isInverse_ofSecret secret),
    fun iv => decrypt_encrypt (isInverse_ofSecret secret) iv plain⟩

end Credential.Cipher

end ChartFeed
