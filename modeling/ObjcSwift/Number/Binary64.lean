/-!
# Binary floating-point numbers

A floating-point literal is a **64-bit IEEE number**, kept as its bits. Its finite values are
natural multiples of the least positive one, `2 ^ (-1074)`, so that everything about them – text,
rounding, comparison – is exact arithmetic on natural numbers.
-/

namespace ObjcSwift

/-- A 64-bit IEEE floating-point number, given by its bits. -/
structure Binary64 where
  /-- Sign, eleven exponent bits and fifty-two fraction bits, from the top. -/
  bits : UInt64
deriving DecidableEq

namespace Binary64

/-- The exponent field. -/
def exponentField (x : Binary64) : Nat :=
  x.bits.toNat / Nat.pow 2 52 % Nat.pow 2 11

/-- The fraction field. -/
def fraction (x : Binary64) : Nat :=
  x.bits.toNat % Nat.pow 2 52

/-- Whether the sign bit is set; it is for `-0.0` too. -/
def isNegative (x : Binary64) : Bool :=
  Nat.pow 2 63 ≤ x.bits.toNat

/-- Whether the number is neither infinite nor a NaN. -/
def isFinite (x : Binary64) : Bool :=
  x.exponentField != 2047

/-- Whether this is one of the values that are no number at all. -/
def isNaN (x : Binary64) : Bool :=
  x.exponentField == 2047 && x.fraction != 0

/-- Whether the magnitude is zero. -/
def isZero (x : Binary64) : Bool :=
  x.bits.toNat % Nat.pow 2 63 == 0

/-- The comparison that arithmetic uses: a NaN differs from everything, itself included, and the
two zeros are equal. -/
def numEq (x y : Binary64) : Bool :=
  !x.isNaN && !y.isNaN && (x == y || (x.isZero && y.isZero))

/-- The power of two by which the least positive value is scaled for the significand's last place.
-/
def scale (x : Binary64) : Nat :=
  x.exponentField - 1

/-- The significand of a finite number, its leading bit included. -/
def significand (x : Binary64) : Nat :=
  if x.exponentField = 0 then x.fraction else x.fraction + Nat.pow 2 52

/-- The magnitude of a finite number in units of the least positive value, `2 ^ (-1074)`. -/
def units (x : Binary64) : Nat :=
  x.significand * Nat.pow 2 x.scale

/-- How many units make one. -/
def unitsPerOne : Nat :=
  Nat.pow 2 1074

/-- Whether a finite number is an integer. -/
def isIntegral (x : Binary64) : Bool :=
  x.units % unitsPerOne == 0

/-- The quotient rounded to the nearest natural number, a half to the even neighbour. -/
def roundDiv (num den : Nat) : Nat :=
  let q := num / den
  let r := num % den
  if 2 * r < den then q
  else if den < 2 * r then q + 1
  else if q % 2 = 0 then q else q + 1

/-- The nearest number to `num / den`, ties to the even significand; magnitudes that are too large
become infinite. -/
def ofRatio (negative : Bool) (num den : Nat) : Binary64 :=
  let scaled := num * unitsPerOne
  let scale := Nat.log2 (scaled / den) - 52
  let magnitude := scale * Nat.pow 2 52 + roundDiv scaled (den * Nat.pow 2 scale)
  let magnitude := min magnitude (2047 * Nat.pow 2 52)
  ⟨UInt64.ofNat (if negative then Nat.pow 2 63 + magnitude else magnitude)⟩

/-- The nearest number to an integer. -/
def ofInt (i : Int) : Binary64 :=
  ofRatio (i < 0) i.natAbs 1

/-- The product of two magnitudes, rounded once, under the given sign. -/
def mulMagnitudes (negative : Bool) (x y : Binary64) : Binary64 :=
  ofRatio negative (x.units * y.units) (unitsPerOne * unitsPerOne)

/-- The quotient of two magnitudes, rounded once, under the given sign. -/
def divMagnitudes (negative : Bool) (x y : Binary64) : Binary64 :=
  ofRatio negative x.units y.units

end Binary64

end ObjcSwift
