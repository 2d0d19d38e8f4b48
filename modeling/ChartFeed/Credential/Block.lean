/-!
# Blocks and chaining

* `Block` : sixteen bytes.
* `BlockCipher` : a permutation of blocks and its inverse.
* `Cbc.encrypt`, `Cbc.decrypt` : lists of blocks, each mixed with the ciphertext before it.
* `Padding.pad`, `Padding.unpad?` : bytes as whole blocks and back.
-/

namespace ChartFeed

/-- Sixteen bytes. -/
abbrev Block := Vector UInt8 16

namespace Block

/-- The first sixteen bytes of a list, zeros where there are fewer. -/
def ofBytes (bs : List UInt8) : Block := Vector.ofFn fun i => bs.getD i.val 0

def toBytes (b : Block) : List UInt8 := b.toList

def mix (a b : Block) : Block := Vector.ofFn fun i => a[i] ^^^ b[i]

theorem mix_mix (a b : Block) : mix (mix a b) b = a := by
  ext i h
  have at_i : (mix (mix a b) b)[i] = a[i] ^^^ b[i] ^^^ b[i] := by
    simp only [mix, Vector.getElem_ofFn, Fin.getElem_fin]
  rw [at_i, UInt8.xor_assoc, UInt8.xor_self, UInt8.xor_zero]

/-- Bytes cut into blocks; none unless every block is whole. -/
def split? (bs : List UInt8) : Option (List Block) :=
  if bs.length % 16 = 0 then some (cut (bs.length / 16) bs) else none
where
  /-- The first so many blocks. -/
  cut : Nat → List UInt8 → List Block
    | 0, _ => []
    | n + 1, bs => ofBytes (bs.take 16) :: cut n (bs.drop 16)

end Block

/-- A permutation of blocks and its inverse. -/
structure BlockCipher where
  encrypt : Block → Block
  decrypt : Block → Block

namespace BlockCipher

/-- The two directions undo each other. -/
structure IsInverse (c : BlockCipher) : Prop where
  decrypt_encrypt : ∀ b, c.decrypt (c.encrypt b) = b
  encrypt_decrypt : ∀ b, c.encrypt (c.decrypt b) = b

end BlockCipher

namespace Cbc

/-- Every block is mixed with the ciphertext block before it, the first one with `iv`, and
encrypted. -/
def encrypt (c : BlockCipher) : Block → List Block → List Block
  | _, [] => []
  | iv, b :: bs =>
    let sealed := c.encrypt (b.mix iv)
    sealed :: encrypt c sealed bs

/-- Every block is decrypted and mixed with the ciphertext block before it. -/
def decrypt (c : BlockCipher) : Block → List Block → List Block
  | _, [] => []
  | iv, b :: bs => (c.decrypt b).mix iv :: decrypt c b bs

end Cbc

namespace Padding

/-- Bytes filled up to whole blocks with as many bytes as are added, each telling their number; at
least one is added. -/
def pad (bs : List UInt8) : List UInt8 :=
  let n := 16 - bs.length % 16
  bs ++ List.replicate n (UInt8.ofNat n)

/-- The bytes without the filling, if they end in one. -/
def unpad? (bs : List UInt8) : Option (List UInt8) :=
  match bs.getLast? with
  | none => none
  | some last =>
    let n := last.toNat
    let kept := bs.length - n
    if 1 ≤ n ∧ n ≤ 16 ∧ n ≤ bs.length ∧ (bs.drop kept).all (· == last) then some (bs.take kept)
    else none

end Padding

end ChartFeed
