import ChartFeed.Credential.Cipher
import ChartFeed.Proofs.Credential.Block

/-!
# Stored credentials open

* `Text.splitOnChar_eq_pair` : a text has two parts exactly when one separator stands in it.
* `Credential.ofUtf8?_eq_some` : bytes are those of one text at most.
* `Cipher.open?_eq_some` : a ciphertext opens to a text exactly when it is the one that the text is
  encrypted to under the same initial vector.
* `Cipher.decrypt_encrypt` : the stored form of a text decrypts to it.
-/

namespace ChartFeed

/-! ## Parts and digits -/

namespace Text

theorem splitOnChar_of_notMem {sep : Char} {cs : List Char} (h : sep ∉ cs) :
    splitOnChar sep cs = [cs] := by
  induction cs with
  | nil => rfl
  | cons c cs ih =>
    obtain ⟨hc, hcs⟩ := not_or.mp (mt List.mem_cons.mpr h)
    rw [splitOnChar, if_neg (Ne.symm hc), ih hcs]

theorem splitOnChar_append {sep : Char} {cs : List Char} (h : sep ∉ cs) (rest : List Char) :
    splitOnChar sep (cs ++ sep :: rest) = cs :: splitOnChar sep rest := by
  induction cs with
  | nil => rw [List.nil_append, splitOnChar, if_pos rfl]
  | cons c cs ih =>
    obtain ⟨hc, hcs⟩ := not_or.mp (mt List.mem_cons.mpr h)
    rw [List.cons_append, splitOnChar, if_neg (Ne.symm hc), ih hcs]

theorem intercalate_splitOnChar (sep : Char) (cs : List Char) :
    [sep].intercalate (splitOnChar sep cs) = cs := by
  induction cs with
  | nil => rfl
  | cons c cs ih =>
    obtain ⟨part, parts, hparts⟩ := List.exists_cons_of_ne_nil (splitOnChar_ne_nil sep cs)
    rw [hparts] at ih
    by_cases hc : c = sep
    · rw [splitOnChar, if_pos hc, hparts, List.intercalate_cons_cons, ih, hc]
      rfl
    · rw [splitOnChar, if_neg hc, hparts]
      cases parts with
      | nil => simpa using ih
      | cons next rest =>
        simp only [List.intercalate_cons_cons] at ih ⊢
        rw [← ih]
        rfl

theorem notMem_of_mem_splitOnChar {sep : Char} {cs part : List Char}
    (h : part ∈ splitOnChar sep cs) : sep ∉ part := by
  induction cs generalizing part with
  | nil =>
    rw [splitOnChar, List.mem_singleton] at h
    simp [h]
  | cons c cs ih =>
    obtain ⟨first, parts, hparts⟩ := List.exists_cons_of_ne_nil (splitOnChar_ne_nil sep cs)
    rw [hparts] at ih
    by_cases hc : c = sep
    · rw [splitOnChar, if_pos hc, hparts] at h
      rcases List.mem_cons.mp h with rfl | h
      · exact List.not_mem_nil
      · exact ih h
    · rw [splitOnChar, if_neg hc, hparts] at h
      rcases List.mem_cons.mp h with rfl | h
      · rw [List.mem_cons, not_or]
        exact ⟨Ne.symm hc, ih List.mem_cons_self⟩
      · exact ih (List.mem_cons_of_mem first h)

/-- **A text has two parts exactly when a separator stands between them, and none in them.** -/
theorem splitOnChar_eq_pair {sep : Char} {cs left right : List Char} :
    splitOnChar sep cs = [left, right] ↔
      cs = left ++ sep :: right ∧ sep ∉ left ∧ sep ∉ right := by
  constructor
  · intro h
    have hwhole := intercalate_splitOnChar sep cs
    have hsolid : ∀ part ∈ [left, right], sep ∉ part := by
      intro part hpart
      rw [← h] at hpart
      exact notMem_of_mem_splitOnChar hpart
    rw [h] at hwhole
    exact ⟨by simpa using hwhole.symm, hsolid left List.mem_cons_self,
      hsolid right (List.mem_cons_of_mem left List.mem_cons_self)⟩
  · rintro ⟨rfl, hleft, hright⟩
    rw [splitOnChar_append hleft, splitOnChar_of_notMem hright]

theorem hexDigit?_ne_none_of_mem {cs : List Char} {bs : List UInt8} (h : hexDecode? cs = some bs) :
    ∀ c ∈ cs, hexDigit? c ≠ none := by
  induction cs using hexDecode?.induct generalizing bs with
  | case1 => intro c hc; cases hc
  | case2 => cases h
  | case3 a b rest ih =>
    rw [hexDecode?] at h
    simp only [Option.bind_eq_bind, Option.bind_eq_some_iff] at h
    obtain ⟨hi, ha, lo, hb, tail, hrest, -⟩ := h
    intro c hc
    rcases List.mem_cons.mp hc with rfl | hc
    · rw [ha]; exact Option.some_ne_none hi
    · rcases List.mem_cons.mp hc with rfl | hc
      · rw [hb]; exact Option.some_ne_none lo
      · exact ih hrest c hc

theorem colon_notMem_hexEncode (bs : List UInt8) : ':' ∉ hexEncode bs :=
  fun h => hexDigit?_ne_none_of_mem (hexDecode?_hexEncode bs) ':' h (by decide)

end Text

namespace Credential

open Text (hexEncode hexDecode? hexDecode?_hexEncode)

theorem ofUtf8?_eq_some {bs : List UInt8} {s : String} : ofUtf8? bs = some s ↔ bs = utf8 s := by
  unfold ofUtf8? String.fromUTF8? utf8
  constructor
  · intro h
    split at h
    · cases h
      rfl
    · cases h
  · rintro rfl
    exact dif_pos s.isValidUTF8

namespace Cipher

variable {c : Cipher} {iv : Block} {plain : String}

/-- The ciphertext of a text under an initial vector. -/
def sealed (c : Cipher) (iv : Block) (plain : String) : List UInt8 :=
  (Cbc.encrypt c iv ((Block.split? (Padding.pad (utf8 plain))).getD [])).flatMap Block.toBytes

theorem exists_split?_pad (bs : List UInt8) : ∃ ps, Block.split? (Padding.pad bs) = some ps := by
  unfold Block.split?
  rw [if_pos (Padding.length_pad_mod bs)]
  exact ⟨_, rfl⟩

/-- **A ciphertext opens to a text exactly when it is the one of the text.** -/
theorem open?_eq_some (hc : c.IsInverse) {bytes : List UInt8} :
    open? c iv bytes = some plain ↔ bytes = sealed c iv plain := by
  unfold open? sealed
  simp only [Option.bind_eq_bind, Option.bind_eq_some_iff]
  constructor
  · rintro ⟨blocks, hblocks, inner, hinner, hplain⟩
    -- bytes have one padded form, so the decrypted blocks are those that the text is cut into
    have hwhole := Block.length_flatMap_toBytes (Cbc.decrypt c iv blocks)
    rw [Padding.unpad?_eq_some (by omega), ofUtf8?_eq_some.mp hplain] at hinner
    rw [Block.split?_eq_some.mpr hinner, Option.getD_some, Cbc.encrypt_decrypt hc]
    exact (Block.split?_eq_some.mp hblocks).symm
  · rintro rfl
    obtain ⟨ps, hps⟩ := exists_split?_pad (utf8 plain)
    rw [hps, Option.getD_some]
    refine ⟨_, Block.split?_eq_some.mpr rfl, utf8 plain, ?_, ofUtf8?_eq_some.mpr rfl⟩
    rw [Cbc.decrypt_encrypt hc, Block.split?_eq_some.mp hps, Padding.unpad?_pad]

theorem parse?_encrypt (c : Cipher) (iv : Block) (plain : String) :
    parse? (encrypt c iv plain) = some (iv, sealed c iv plain) := by
  unfold parse? encrypt
  rw [String.toList_ofList, Text.splitOnChar_eq_pair.mpr
    ⟨rfl, Text.colon_notMem_hexEncode _, Text.colon_notMem_hexEncode _⟩]
  simp [hexDecode?_hexEncode, sealed]

theorem decrypt_of_parse? {stored : String} {ciphertext : List UInt8}
    (h : parse? stored = some (iv, ciphertext)) :
    decrypt c stored = (open? c iv ciphertext).elim (.error .decrypt) .ok := by
  rw [decrypt, h]
  dsimp only
  cases open? c iv ciphertext <;> rfl

/-- **The stored form of a text decrypts to it**, whatever the initial vector. -/
theorem decrypt_encrypt (hc : c.IsInverse) (iv : Block) (plain : String) :
    decrypt c (encrypt c iv plain) = .ok plain := by
  rw [decrypt_of_parse? (parse?_encrypt c iv plain), (open?_eq_some hc).mpr rfl, Option.elim_some]

end Cipher

end Credential

end ChartFeed
