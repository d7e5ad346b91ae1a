/-!
# Numerals

Integer literals are 64-bit words. A decimal literal shows the signed value; the other radixes show
the **word**, so that a negative value appears as its two's complement.
-/

namespace ObjcSwift.Text

/-- A natural number in decimal digits. -/
def decimal (n : Nat) : String :=
  Nat.repr n

/-- An integer in decimal digits, with a leading minus sign when it is negative. -/
def signedDecimal : Int → String
  | .ofNat n => decimal n
  | .negSucc n => "-" ++ decimal (n + 1)

/-- The digits of a 64-bit word in a radix of at most sixteen, letters in upper case. -/
def wordDigits (radix : Nat) (word : UInt64) : String :=
  String.ofList ((Nat.toDigits radix word.toNat).map Char.toUpper)

/-- Exactly `width` lower-case hexadecimal digits of `n`, the most significant first; digits that
do not fit are dropped. -/
def paddedHex : (width : Nat) → (n : Nat) → String
  | 0, _ => ""
  | width + 1, n => paddedHex width (n / 16) ++ String.singleton (Nat.digitChar (n % 16))

end ObjcSwift.Text
