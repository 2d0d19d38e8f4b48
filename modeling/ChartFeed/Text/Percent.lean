import ChartFeed.Text.Digits

/-!
# Percent encoding

* `Percent.decodeBytes` : the bytes of characters of which some are written `%XX`.
* `Percent.decode?` : the text of these bytes.
-/

namespace ChartFeed.Percent

/-- The bytes of characters: `%` and two hexadecimal digits are one byte, any other character stands
for itself. -/
def decodeBytes : List Char → List UInt8
  | '%' :: a :: b :: rest =>
    match Text.hexDigit? a, Text.hexDigit? b with
    | some hi, some lo => UInt8.ofNat (16 * hi + lo) :: decodeBytes rest
    | _, _ => String.utf8EncodeChar '%' ++ decodeBytes (a :: b :: rest)
  | c :: rest => String.utf8EncodeChar c ++ decodeBytes rest
  | [] => []

/-- The text of percent-encoded characters, if their bytes are UTF-8. -/
def decode? (s : String) : Option String :=
  String.fromUTF8? ⟨(decodeBytes s.toList).toArray⟩

end ChartFeed.Percent
