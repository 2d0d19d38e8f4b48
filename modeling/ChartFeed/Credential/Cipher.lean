import ChartFeed.Credential.Aes
import ChartFeed.Credential.Sha256
import ChartFeed.Failure
import ChartFeed.Text.Blank
import ChartFeed.Text.Digits

/-!
# Stored credentials

A credential is stored as `ivHex:cipherHex`: a fresh initial vector and the chained ciphertext of
its bytes, under the digest of a secret.

* `Credential.Cipher` : the block cipher of a secret; `Cipher.ofSecret`, `Cipher.insecure`.
* `Cipher.encrypt` : the stored form of a text under an initial vector.
* `Cipher.decrypt` : the text of a stored form, or what is wrong with it.
-/

namespace ChartFeed.Credential

def utf8 (s : String) : List UInt8 := s.toUTF8.data.toList

def ofUtf8? (bs : List UInt8) : Option String := String.fromUTF8? ⟨bs.toArray⟩

/-- The block cipher that credentials are stored under. -/
abbrev Cipher := BlockCipher

namespace Cipher

def ofSecret (secret : String) : Cipher := Aes.cipher (Sha256.digest (utf8 secret))

/-- The secret of a service that is told to do without one. -/
def insecureSecret : String := "chart-query-insecure-default-secret"

def insecure : Cipher := ofSecret insecureSecret

/-- The stored form of a text under an initial vector. -/
def encrypt (c : Cipher) (iv : Block) (plain : String) : String :=
  let blocks := (Block.split? (Padding.pad (utf8 plain))).getD []
  String.ofList (Text.hexEncode iv.toBytes ++ ':' ::
    Text.hexEncode ((Cbc.encrypt c iv blocks).flatMap Block.toBytes))

def parse? (stored : String) : Option (Block × List UInt8) :=
  match Text.splitOnChar ':' stored.toList with
  | [ivHex, cipherHex] => do
    let iv ← Text.hexDecode? ivHex
    let ciphertext ← Text.hexDecode? cipherHex
    if iv.length = 16 then some (.ofBytes iv, ciphertext) else none
  | _ => none

/-- The text of a ciphertext, if it has whole blocks, at least one, that decrypt to the filled-up
bytes of a text. -/
def open? (c : Cipher) (iv : Block) (ciphertext : List UInt8) : Option String := do
  let blocks ← Block.split? ciphertext
  let bytes ← Padding.unpad? ((Cbc.decrypt c iv blocks).flatMap Block.toBytes)
  ofUtf8? bytes

def decrypt (c : Cipher) (stored : String) : Except CredentialFault String :=
  match parse? stored with
  | none => .error .format
  | some (iv, ciphertext) =>
    match open? c iv ciphertext with
    | none => .error .decrypt
    | some plain => .ok plain

end Cipher

end ChartFeed.Credential
