import ChartFeed.Credential.Cipher
import ChartFeed.Proofs.Credential.Block

/-!
# AES-256 is a permutation of blocks

`Aes.decryptBlock` undoes `Aes.encryptBlock` and the other way round, under every key of 32 bytes.

* `times_xor`, `mixColumns_mixColumns` : multiples in the field are linear, so mixing columns is
  undone by any circulant matrix that is inverse to the first one.
* `permute_permute`, `map_inverseBox` : the other steps of a round and what undoes them.
* `substitution`, `unsubstitution` : a round without its mixing and its key.
* `encryptRounds_append`, `decryptRounds_append` : the rounds as a fold over all keys but the last.
* `isInverse_cipher` : the two directions undo each other, so they do for every secret
  (`Credential.Cipher.isInverse_ofSecret`).
-/

namespace ChartFeed.Aes

theorem forall_byte {p : UInt8 → Prop} (h : ∀ i : Fin 256, p (UInt8.ofNat i.val)) (b : UInt8) :
    p b := by
  have hb := h ⟨b.toNat, b.toNat_lt⟩
  rwa [UInt8.ofNat_toNat] at hb

/-! ## Multiples -/

theorem double_eq : ∀ b, double b = b <<< 1 ^^^ (b >>> 7) * 0x1b :=
  forall_byte (by decide +kernel)

theorem double_xor (a b : UInt8) : double (a ^^^ b) = double a ^^^ double b := by
  have top : ∀ c : UInt8, c >>> 7 = 0 ∨ c >>> 7 = 1 := forall_byte (by decide +kernel)
  have carry : ∀ x y : UInt8, x = 0 ∨ x = 1 → y = 0 ∨ y = 1 →
      (x ^^^ y) * 0x1b = x * 0x1b ^^^ y * 0x1b := by
    rintro _ _ (rfl | rfl) (rfl | rfl) <;> rfl
  rw [double_eq, double_eq a, double_eq b, UInt8.shiftLeft_xor, UInt8.shiftRight_xor,
    carry _ _ (top a) (top b)]
  ac_rfl

theorem times_xor (n : Nat) (a b : UInt8) : times n (a ^^^ b) = times n a ^^^ times n b := by
  have part : ∀ (t : Bool) (x y : UInt8),
      (if t then x ^^^ y else 0) = (if t then x else 0) ^^^ (if t then y else 0) := by
    intro t x y
    cases t <;> simp
  simp only [times, double_xor, part]
  ac_rfl

/-! ## Mixing columns -/

/-- A byte of a mixed column: the product of a row with the column. -/
def product (m0 m1 m2 m3 : Nat) (a b c d : UInt8) : UInt8 :=
  times m0 a ^^^ times m1 b ^^^ times m2 c ^^^ times m3 d

theorem mixColumns_cons (m0 m1 m2 m3 : Nat) (a b c d : UInt8) (rest : List UInt8) :
    mixColumns m0 m1 m2 m3 (a :: b :: c :: d :: rest) =
      product m0 m1 m2 m3 a b c d :: product m0 m1 m2 m3 b c d a ::
        product m0 m1 m2 m3 c d a b :: product m0 m1 m2 m3 d a b c ::
          mixColumns m0 m1 m2 m3 rest := by
  rw [mixColumns]
  simp only [product, List.cons.injEq, and_true]
  refine ⟨trivial, ?_, ?_, ?_⟩ <;> ac_rfl

/-- A circulant matrix undoes another: the first row of their product is that of the unit matrix. -/
def Unmixes (n0 n1 n2 n3 m0 m1 m2 m3 : Nat) : Prop :=
  ∀ x, product n0 n1 n2 n3 (times m0 x) (times m3 x) (times m2 x) (times m1 x) = x ∧
    product n0 n1 n2 n3 (times m1 x) (times m0 x) (times m3 x) (times m2 x) = 0 ∧
    product n0 n1 n2 n3 (times m2 x) (times m1 x) (times m0 x) (times m3 x) = 0 ∧
    product n0 n1 n2 n3 (times m3 x) (times m2 x) (times m1 x) (times m0 x) = 0

theorem unmixes_decrypt : Unmixes 14 11 13 9 2 3 1 1 := by
  unfold Unmixes
  exact forall_byte (by decide +kernel)

theorem unmixes_encrypt : Unmixes 2 3 1 1 14 11 13 9 := by
  unfold Unmixes
  exact forall_byte (by decide +kernel)

section Mix

variable {n0 n1 n2 n3 m0 m1 m2 m3 : Nat}

theorem product_product (h : Unmixes n0 n1 n2 n3 m0 m1 m2 m3) (a b c d : UInt8) :
    product n0 n1 n2 n3 (product m0 m1 m2 m3 a b c d) (product m0 m1 m2 m3 b c d a)
      (product m0 m1 m2 m3 c d a b) (product m0 m1 m2 m3 d a b c) = a := by
  -- gathered by the byte that they are multiples of
  have gathered : product n0 n1 n2 n3 (product m0 m1 m2 m3 a b c d) (product m0 m1 m2 m3 b c d a)
      (product m0 m1 m2 m3 c d a b) (product m0 m1 m2 m3 d a b c) =
        product n0 n1 n2 n3 (times m0 a) (times m3 a) (times m2 a) (times m1 a) ^^^
        product n0 n1 n2 n3 (times m1 b) (times m0 b) (times m3 b) (times m2 b) ^^^
        product n0 n1 n2 n3 (times m2 c) (times m1 c) (times m0 c) (times m3 c) ^^^
        product n0 n1 n2 n3 (times m3 d) (times m2 d) (times m1 d) (times m0 d) := by
    simp only [product, times_xor]
    ac_rfl
  rw [gathered, (h a).1, (h b).2.1, (h c).2.2.1, (h d).2.2.2]
  simp only [UInt8.xor_zero]

theorem length_mixColumns (columns : Nat) {s : List UInt8} (hs : s.length = 4 * columns) :
    (mixColumns m0 m1 m2 m3 s).length = 4 * columns := by
  induction columns generalizing s with
  | zero => rw [List.eq_nil_of_length_eq_zero hs]; rfl
  | succ columns ih =>
    match s, hs with
    | a :: b :: c :: d :: rest, hs =>
      have hrest : rest.length = 4 * columns := by simp only [List.length_cons] at hs; omega
      rw [mixColumns_cons]
      simp only [List.length_cons, ih hrest]
      omega

theorem mixColumns_mixColumns (h : Unmixes n0 n1 n2 n3 m0 m1 m2 m3) (columns : Nat)
    {s : List UInt8} (hs : s.length = 4 * columns) :
    mixColumns n0 n1 n2 n3 (mixColumns m0 m1 m2 m3 s) = s := by
  induction columns generalizing s with
  | zero => rw [List.eq_nil_of_length_eq_zero hs]; rfl
  | succ columns ih =>
    match s, hs with
    | a :: b :: c :: d :: rest, hs =>
      have hrest : rest.length = 4 * columns := by simp only [List.length_cons] at hs; omega
      rw [mixColumns_cons, mixColumns_cons, product_product h, product_product h,
        product_product h, product_product h, ih hrest]

end Mix

/-! ## The other steps of a round -/

theorem length_xorBytes {a b : List UInt8} (h : a.length = b.length) :
    (xorBytes a b).length = a.length := by
  rw [xorBytes, List.length_zipWith, h, Nat.min_self]

theorem xorBytes_xorBytes {s k : List UInt8} (h : s.length = k.length) :
    xorBytes (xorBytes s k) k = s := by
  refine List.ext_getElem (by rw [length_xorBytes (by rw [length_xorBytes h, h]),
    length_xorBytes h]) fun i h₁ h₂ => ?_
  simp only [xorBytes, List.getElem_zipWith]
  rw [UInt8.xor_assoc, UInt8.xor_self, UInt8.xor_zero]

theorem permute_permute {o p : List Nat} (s : List UInt8) (h : ∀ i ∈ o, i < p.length) :
    permute o (permute p s) = permute (o.map fun i => p.getD i 0) s := by
  unfold permute
  rw [List.map_map]
  refine List.map_congr_left fun i hi => ?_
  rw [List.getD_eq_getElem _ _ (by rw [List.length_map]; exact h i hi), List.getElem_map,
    Function.comp_apply, List.getD_eq_getElem _ _ (h i hi)]

theorem permute_range {s : List UInt8} (n : Nat) (h : s.length = n) :
    permute (List.range n) s = s := by
  refine List.ext_getElem (by rw [permute, List.length_map, List.length_range, h])
    fun i h₁ h₂ => ?_
  simp only [permute, List.getElem_map, List.getElem_range]
  exact List.getD_eq_getElem _ _ h₂

theorem unshift_shift {s : List UInt8} (h : s.length = 16) :
    permute unshiftOrder (permute shiftOrder s) = s := by
  rw [permute_permute s (by decide)]
  exact permute_range 16 h

theorem shift_unshift {s : List UInt8} (h : s.length = 16) :
    permute shiftOrder (permute unshiftOrder s) = s := by
  rw [permute_permute s (by decide)]
  exact permute_range 16 h

/-! ## Substitution

The boxes are read as numbers of eight bits a byte: looking a byte up is then a shift. -/

/-- The number whose bits are those of bytes, the first byte lowest. -/
def packed : List UInt8 → Nat
  | [] => 0
  | b :: bs => packed bs * 256 + b.toNat

theorem packed_byte (bs : List UInt8) (i : Nat) :
    packed bs >>> (8 * i) % 256 = (bs.getD i 0).toNat := by
  induction bs generalizing i with
  | nil => simp [packed]
  | cons b bs ih =>
    have hb := b.toNat_lt
    cases i with
    | zero =>
      rw [packed, Nat.mul_zero, Nat.shiftRight_zero, List.getD_cons_zero]
      omega
    | succ i =>
      have hdrop : (packed bs * 256 + b.toNat) >>> 8 = packed bs := by
        rw [Nat.shiftRight_eq_div_pow]
        omega
      rw [packed, show 8 * (i + 1) = 8 + 8 * i by omega, Nat.shiftRight_add, hdrop, ih,
        List.getD_cons_succ]

theorem substitute_eq (table : Array UInt8) (b : UInt8) :
    substitute table b = UInt8.ofNat (packed table.toList >>> (8 * b.toNat) % 256) := by
  rw [packed_byte, UInt8.ofNat_toNat, substitute, Array.getD_eq_getD_getElem?,
    List.getD_eq_getElem?_getD, Array.getElem?_toList]

theorem map_inverseBox (s : List UInt8) :
    (s.map (substitute box)).map (substitute inverseBox) = s := by
  have undone : ∀ b, substitute inverseBox (substitute box b) = b := by
    simp only [substitute_eq]
    exact forall_byte (by decide +kernel)
  simp only [List.map_map, Function.comp_def, undone, List.map_id']

theorem map_box (s : List UInt8) :
    (s.map (substitute inverseBox)).map (substitute box) = s := by
  have undone : ∀ b, substitute box (substitute inverseBox b) = b := by
    simp only [substitute_eq]
    exact forall_byte (by decide +kernel)
  simp only [List.map_map, Function.comp_def, undone, List.map_id']

/-! ## Rounds -/

/-- A round without its mixing and its key. -/
def substitution (s : List UInt8) : List UInt8 := permute shiftOrder (s.map (substitute box))

def unsubstitution (s : List UInt8) : List UInt8 :=
  (permute unshiftOrder s).map (substitute inverseBox)

@[simp] theorem length_substitution (s : List UInt8) : (substitution s).length = 16 := rfl

@[simp] theorem length_unsubstitution (s : List UInt8) : (unsubstitution s).length = 16 := rfl

theorem unsubstitution_substitution {s : List UInt8} (h : s.length = 16) :
    unsubstitution (substitution s) = s := by
  unfold unsubstitution substitution
  rw [unshift_shift (by rw [List.length_map, h]), map_inverseBox]

theorem substitution_unsubstitution {s : List UInt8} (h : s.length = 16) :
    substitution (unsubstitution s) = s := by
  unfold unsubstitution substitution
  rw [map_box, shift_unshift h]

def round (s k : List UInt8) : List UInt8 := xorBytes (mixColumns 2 3 1 1 (substitution s)) k

def unround (s k : List UInt8) : List UInt8 := mixColumns 14 11 13 9 (xorBytes (unsubstitution s) k)

theorem length_round (s : List UInt8) {k : List UInt8} (hk : k.length = 16) :
    (round s k).length = 16 := by
  have hmix : (mixColumns 2 3 1 1 (substitution s)).length = 16 :=
    length_mixColumns 4 (length_substitution s)
  rw [round, length_xorBytes (by rw [hmix, hk]), hmix]

theorem length_unround (s : List UInt8) {k : List UInt8} (hk : k.length = 16) :
    (unround s k).length = 16 := by
  refine length_mixColumns 4 ?_
  rw [length_xorBytes (by rw [length_unsubstitution, hk]), length_unsubstitution]

theorem unround_substitution (s : List UInt8) {k : List UInt8} (hk : k.length = 16) :
    unround (substitution (round s k)) k = substitution s := by
  have hmix : (mixColumns 2 3 1 1 (substitution s)).length = 16 :=
    length_mixColumns 4 (length_substitution s)
  rw [unround, unsubstitution_substitution (length_round s hk), round,
    xorBytes_xorBytes (by rw [hmix, hk]), mixColumns_mixColumns unmixes_decrypt 4 (by simp)]

theorem round_unsubstitution (s : List UInt8) {k : List UInt8} (hk : k.length = 16) :
    round (unsubstitution (unround s k)) k = unsubstitution s := by
  have hxor : (xorBytes (unsubstitution s) k).length = 16 := by
    rw [length_xorBytes (by rw [length_unsubstitution, hk]), length_unsubstitution]
  rw [round, substitution_unsubstitution (length_unround s hk), unround,
    mixColumns_mixColumns unmixes_encrypt 4 hxor,
    xorBytes_xorBytes (by rw [length_unsubstitution, hk])]

/-! ## All rounds -/

theorem encryptRounds_append (ks : List (List UInt8)) (last s : List UInt8) :
    encryptRounds (ks ++ [last]) s = xorBytes (substitution (ks.foldl round s)) last := by
  induction ks generalizing s with
  | nil => rfl
  | cons k ks ih =>
    rw [List.cons_append, encryptRounds.eq_3 _ _ _ (by simp), ih, List.foldl_cons]
    rfl

theorem decryptRounds_append (ks : List (List UInt8)) (last s : List UInt8) :
    decryptRounds (ks ++ [last]) s = xorBytes (unsubstitution (ks.foldl unround s)) last := by
  induction ks generalizing s with
  | nil => rfl
  | cons k ks ih =>
    rw [List.cons_append, decryptRounds.eq_3 _ _ _ (by simp), ih, List.foldl_cons]
    rfl

theorem foldl_unround {ks : List (List UInt8)} (hks : ∀ k ∈ ks, k.length = 16) (s : List UInt8) :
    ks.reverse.foldl unround (substitution (ks.foldl round s)) = substitution s := by
  induction ks generalizing s with
  | nil => rfl
  | cons k ks ih =>
    -- the rounds under the other keys are undone first, whatever state they began in
    rw [List.reverse_cons, List.foldl_append, List.foldl_cons, List.foldl_cons,
      ih (fun k' hk' => hks k' (List.mem_cons_of_mem k hk'))]
    exact unround_substitution s (hks k List.mem_cons_self)

theorem foldl_round {ks : List (List UInt8)} (hks : ∀ k ∈ ks, k.length = 16) (s : List UInt8) :
    ks.reverse.foldl round (unsubstitution (ks.foldl unround s)) = unsubstitution s := by
  induction ks generalizing s with
  | nil => rfl
  | cons k ks ih =>
    rw [List.reverse_cons, List.foldl_append, List.foldl_cons, List.foldl_cons,
      ih (fun k' hk' => hks k' (List.mem_cons_of_mem k hk'))]
    exact round_unsubstitution s (hks k List.mem_cons_self)

/-! ## Round keys -/

/-- Eight words of four bytes. -/
def IsStage (ws : List (List UInt8)) : Prop := ws.length = 8 ∧ ∀ w ∈ ws, w.length = 4

theorem isStage_nextWords (constant : UInt8) {ws : List (List UInt8)} (h : IsStage ws) :
    IsStage (nextWords constant ws) := by
  obtain ⟨hlength, hwords⟩ := h
  match ws, hlength with
  | [w0, w1, w2, w3, w4, w5, w6, w7], _ =>
    simp only [List.mem_cons, List.not_mem_nil, or_false, forall_eq_or_imp, forall_eq] at hwords
    obtain ⟨h0, h1, h2, h3, h4, h5, h6, h7⟩ := hwords
    refine ⟨rfl, ?_⟩
    simp only [nextWords, List.mem_cons, List.not_mem_nil, or_false, forall_eq_or_imp, forall_eq,
      xorBytes, List.length_zipWith, List.length_map, List.length_append, List.length_drop,
      List.length_take, List.length_cons, List.length_nil, h0, h1, h2, h3, h4, h5, h6, h7]
    decide

theorem length_flatten_expand (cs : List UInt8) {ws : List (List UInt8)} (h : IsStage ws) :
    (expand cs ws).flatten.length = 32 * (cs.length + 1) := by
  have hstage : ∀ {ws}, IsStage ws → ws.flatten.length = 32 := by
    intro ws h
    rw [List.length_flatten, List.map_congr_left h.2, List.map_const', h.1]
    rfl
  induction cs generalizing ws with
  | nil => exact hstage h
  | cons c cs ih =>
    rw [expand, List.flatten_append, List.length_append, hstage h, ih (isStage_nextWords c h),
      List.length_cons]
    omega

theorem length_chunks (size n : Nat) (bs : List UInt8) : (chunks size n bs).length = n := by
  induction n generalizing bs with
  | zero => rfl
  | succ n ih => rw [chunks, List.length_cons, ih]

theorem length_of_mem_chunks {size n : Nat} {bs : List UInt8} (h : size * n ≤ bs.length) :
    ∀ k ∈ chunks size n bs, k.length = size := by
  induction n generalizing bs with
  | zero => intro k hk; cases hk
  | succ n ih =>
    rw [Nat.mul_succ] at h
    intro k hk
    rcases List.mem_cons.mp hk with rfl | hk
    · rw [List.length_take]
      omega
    · exact ih (by rw [List.length_drop]; omega) k hk

theorem length_roundKeys (key : List UInt8) : (roundKeys key).length = 15 := length_chunks 16 15 _

theorem length_of_mem_roundKeys {key : List UInt8} (hkey : key.length = 32) :
    ∀ k ∈ roundKeys key, k.length = 16 := by
  have hstage : IsStage (chunks 4 8 key) :=
    ⟨length_chunks 4 8 key, length_of_mem_chunks (by omega)⟩
  refine length_of_mem_chunks ?_
  rw [length_flatten_expand roundConstants hstage]
  decide

theorem exists_roundKeys {key : List UInt8} (hkey : key.length = 32) :
    ∃ first between last, roundKeys key = first :: (between ++ [last]) ∧ first.length = 16 ∧
      last.length = 16 ∧ ∀ k ∈ between, k.length = 16 := by
  have hlength := length_roundKeys key
  have hall := length_of_mem_roundKeys hkey
  cases hkeys : roundKeys key with
  | nil => rw [hkeys] at hlength; cases hlength
  | cons first rest =>
    rw [hkeys] at hlength hall
    have hrest : rest ≠ [] := by
      rintro rfl
      cases hlength
    refine ⟨first, rest.dropLast, rest.getLast hrest, ?_, hall first List.mem_cons_self,
      hall _ (List.mem_cons_of_mem first (List.getLast_mem hrest)), fun k hk =>
        hall k (List.mem_cons_of_mem first (List.dropLast_subset rest hk))⟩
    rw [List.dropLast_concat_getLast]

/-! ## Blocks -/

section Block

variable {key s : List UInt8}

theorem decryptBlock_encryptBlock (hkey : key.length = 32) (hs : s.length = 16) :
    decryptBlock key (encryptBlock key s) = s := by
  obtain ⟨first, between, last, hkeys, hfirst, hlast, hbetween⟩ := exists_roundKeys hkey
  unfold decryptBlock encryptBlock
  simp only [hkeys, List.reverse_cons, List.reverse_append, List.reverse_nil, List.nil_append,
    List.cons_append]
  rw [encryptRounds_append, decryptRounds_append, xorBytes_xorBytes (by simp [hlast]),
    foldl_unround hbetween,
    unsubstitution_substitution (by rw [length_xorBytes] <;> simp [hs, hfirst]),
    xorBytes_xorBytes (by simp [hs, hfirst])]

theorem encryptBlock_decryptBlock (hkey : key.length = 32) (hs : s.length = 16) :
    encryptBlock key (decryptBlock key s) = s := by
  obtain ⟨first, between, last, hkeys, hfirst, hlast, hbetween⟩ := exists_roundKeys hkey
  have hback : ∀ k ∈ between.reverse, k.length = 16 := fun k hk =>
    hbetween k (List.mem_reverse.mp hk)
  have hround := foldl_round hback (xorBytes s last)
  rw [List.reverse_reverse] at hround
  unfold decryptBlock encryptBlock
  simp only [hkeys, List.reverse_cons, List.reverse_append, List.reverse_nil, List.nil_append,
    List.cons_append]
  rw [decryptRounds_append, encryptRounds_append, xorBytes_xorBytes (by simp [hfirst]), hround,
    substitution_unsubstitution (by rw [length_xorBytes] <;> simp [hs, hlast]),
    xorBytes_xorBytes (by simp [hs, hlast])]

theorem length_encryptBlock (hkey : key.length = 32) : (encryptBlock key s).length = 16 := by
  obtain ⟨first, between, last, hkeys, -, hlast, -⟩ := exists_roundKeys hkey
  unfold encryptBlock
  simp only [hkeys]
  rw [encryptRounds_append, length_xorBytes (by simp [hlast]), length_substitution]

theorem length_decryptBlock (hkey : key.length = 32) : (decryptBlock key s).length = 16 := by
  obtain ⟨first, between, last, hkeys, hfirst, -, -⟩ := exists_roundKeys hkey
  unfold decryptBlock
  simp only [hkeys, List.reverse_cons, List.reverse_append, List.reverse_nil, List.nil_append,
    List.cons_append]
  rw [decryptRounds_append, length_xorBytes (by simp [hfirst]), length_unsubstitution]

end Block

/-- **The cipher of a key of 32 bytes is a permutation of blocks**, given with its inverse. -/
theorem isInverse_cipher {key : List UInt8} (hkey : key.length = 32) : (cipher key).IsInverse where
  decrypt_encrypt b := by
    simp only [cipher]
    rw [Block.toBytes_ofBytes (length_encryptBlock hkey),
      decryptBlock_encryptBlock hkey (Block.length_toBytes b), Block.ofBytes_toBytes]
  encrypt_decrypt b := by
    simp only [cipher]
    rw [Block.toBytes_ofBytes (length_decryptBlock hkey),
      encryptBlock_decryptBlock hkey (Block.length_toBytes b), Block.ofBytes_toBytes]

end ChartFeed.Aes

namespace ChartFeed.Credential.Cipher

theorem isInverse_ofSecret (secret : String) : (ofSecret secret).IsInverse :=
  Aes.isInverse_cipher rfl

end ChartFeed.Credential.Cipher
