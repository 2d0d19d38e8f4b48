/-!
# Digits

* `Text.natOfDigits`, `Text.natOfHexDigits` : the number that digits denote.
* `Text.hexDigit?`, `Text.hexDigit` : hexadecimal digits, read in either case, written in lower
  case.
* `Text.hexEncode`, `Text.hexDecode?` : bytes as pairs of hexadecimal digits.
-/

namespace ChartFeed.Text

def natOfDigits (ds : List Char) : Nat :=
  ds.foldl (fun n c => 10 * n + (c.toNat - '0'.toNat)) 0

/-- The value of a hexadecimal digit in either case. -/
def hexDigit? (c : Char) : Option Nat :=
  if '0' ≤ c ∧ c ≤ '9' then some (c.toNat - '0'.toNat)
  else if 'a' ≤ c ∧ c ≤ 'f' then some (c.toNat - 'a'.toNat + 10)
  else if 'A' ≤ c ∧ c ≤ 'F' then some (c.toNat - 'A'.toNat + 10)
  else none

def natOfHexDigits (ds : List Char) : Nat :=
  ds.foldl (fun n c => 16 * n + (hexDigit? c).getD 0) 0

/-- The lower-case hexadecimal digit of a number below sixteen. -/
def hexDigit (n : Nat) : Char := Nat.digitChar (n % 16)

theorem hexDigit?_hexDigit {n : Nat} (h : n < 16) : hexDigit? (hexDigit n) = some n := by
  have table : ∀ m : Fin 16, hexDigit? (hexDigit m.val) = some m.val := by decide
  exact table ⟨n, h⟩

/-- Two lower-case hexadecimal digits a byte. -/
def hexEncode : List UInt8 → List Char
  | [] => []
  | b :: bs => hexDigit (b.toNat / 16) :: hexDigit (b.toNat % 16) :: hexEncode bs

/-- The bytes of hexadecimal digits, which have to come in pairs. -/
def hexDecode? : List Char → Option (List UInt8)
  | [] => some []
  | [_] => none
  | a :: b :: rest => do
    let hi ← hexDigit? a
    let lo ← hexDigit? b
    return UInt8.ofNat (16 * hi + lo) :: (← hexDecode? rest)

theorem hexDecode?_hexEncode (bs : List UInt8) : hexDecode? (hexEncode bs) = some bs := by
  induction bs with
  | nil => rfl
  | cons b bs ih =>
    have hb := b.toNat_lt
    have byte : UInt8.ofNat (16 * (b.toNat / 16) + b.toNat % 16) = b := by
      rw [Nat.div_add_mod]
      simp
    rw [hexEncode, hexDecode?, hexDigit?_hexDigit (show b.toNat / 16 < 16 by omega),
      hexDigit?_hexDigit (show b.toNat % 16 < 16 by omega), ih]
    exact congrArg (fun b => some (b :: bs)) byte

end ChartFeed.Text
