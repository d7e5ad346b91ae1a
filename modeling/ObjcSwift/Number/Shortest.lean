import ObjcSwift.Number.Binary64
import ObjcSwift.Text.Numeral

/-!
# The text of a floating-point number

The **shortest digits** of a number are the fewest decimal digits that read back as it, and of
those the nearest to it. An integral number is written out in full with one zero after the point,
any other number in positional notation with its shortest digits; an exponent is never written.

The search is exact: the reals that round to a number form an interval between natural multiples of
a quarter unit, and on the grid of `n`-digit decimals only the two neighbours of the number can be
the nearest in it.
-/

namespace ObjcSwift.Binary64

/-- Decimal digits `0.d₁d₂…dₙ · 10 ^ point`, given by the number `d₁d₂…dₙ`. -/
structure Decimal where
  /-- The digits, read as one number. -/
  digits : Nat
  /-- How many digits there are. -/
  count : Nat
  /-- Where the point stands, counted from before the first digit. -/
  point : Int

/-- The ends of the interval that rounds to a finite number, in quarter units: the gap below a power
of two is half the gap above it. -/
def bounds (x : Binary64) : Nat × Nat :=
  let v := 4 * x.units
  let gap := Nat.pow 2 x.scale
  let below := if x.fraction = 0 ∧ 1 < x.exponentField then gap else 2 * gap
  (v - below, v + 2 * gap)

/-- `10 ^ e` as a numerator and a denominator. -/
def powerOfTen (e : Int) : Nat × Nat :=
  match e with
  | .ofNat n => (Nat.pow 10 n, 1)
  | .negSucc n => (1, Nat.pow 10 (n + 1))

/-- Whether `c · 10 ^ e` rounds to the number; the ends of the interval do when the significand is
even. -/
def readsBack (x : Binary64) (c : Nat) (e : Int) : Bool :=
  let (num, den) := powerOfTen e
  let (low, high) := x.bounds
  let here := c * num * 4 * unitsPerOne
  if x.significand % 2 = 0 then low * den ≤ here && here ≤ high * den
  else low * den < here && here < high * den

/-- The least `k` with `|x| < 10 ^ k`, for a nonzero finite number. -/
def pointOf (x : Binary64) : Int :=
  if unitsPerOne ≤ x.units then
    ((Nat.repr (x.units / unitsPerOne)).length : Int)
  else
    let places := (List.range 400).find? (fun j => unitsPerOne ≤ x.units * Nat.pow 10 (j + 1))
    Int.neg (places.getD 0)

/-- Which of two decimals at the same distance is taken. -/
inductive Tie
  /-- The greater one. -/
  | away
  /-- The one whose last digit is even. -/
  | toEven
deriving DecidableEq

/-- The nearest decimal with `n` digits that reads back, if one does. -/
def nearestWith (tie : Tie) (x : Binary64) (n : Nat) : Option Decimal :=
  let point := x.pointOf
  let e := point - n
  let (num, den) := powerOfTen e
  let top := x.units * den
  let bottom := num * unitsPerOne
  let below := top / bottom
  let above := below + 1
  let rest := 2 * (top % bottom)
  let belowFirst := rest < bottom ∨ (rest = bottom ∧ tie = .toEven ∧ below % 2 = 0)
  let pick (c : Nat) : Decimal := if c = Nat.pow 10 n then ⟨1, 1, point + 1⟩ else ⟨c, n, point⟩
  match x.readsBack below e, x.readsBack above e with
  | true, true => some (pick (if belowFirst then below else above))
  | true, false => some (pick below)
  | false, true => some (pick above)
  | false, false => none

/-- The shortest digits of a nonzero finite number; seventeen always suffice. -/
def shortest (tie : Tie) (x : Binary64) : Decimal :=
  ((List.range 17).findSome? fun n => x.nearestWith tie (n + 1)).getD ⟨0, 1, 0⟩

/-- Positional notation of digits of which some stand after the point. -/
def positional (d : Decimal) : String :=
  let digits := (Nat.repr d.digits).toList
  if d.point ≤ 0 then
    "0." ++ String.ofList (List.replicate d.point.natAbs '0' ++ digits)
  else
    let whole := d.point.toNat
    String.ofList (digits.take whole) ++ "." ++ String.ofList (digits.drop whole)

/-- The text of the magnitude of a finite number. -/
def magnitudeText (x : Binary64) : String :=
  if x.isIntegral then Text.decimal (x.units / unitsPerOne) ++ ".0"
  else positional (x.shortest .away)

/-- The text of a number. -/
def text (x : Binary64) : String :=
  if x.isNaN then "NaN"
  else
    let magnitude := if x.isFinite then x.magnitudeText else "inf"
    if x.isNegative then "-" ++ magnitude else magnitude

/-- A number in a form that JSON readers take: positional while the digits fit in sixteen places
before the point or five after it, otherwise with an exponent, whose sign is always written. -/
def jsonText (x : Binary64) : String :=
  let sign := if x.isNegative then "-" else ""
  if x.isZero then sign ++ "0.0"
  else
    let d := x.shortest .toEven
    let digits := (Nat.repr d.digits).toList
    let count : Int := digits.length
    if count ≤ d.point && d.point ≤ 16 then
      sign ++ String.ofList (digits ++ List.replicate (d.point - count).toNat '0') ++ ".0"
    else if -5 < d.point && d.point ≤ 16 then sign ++ positional d
    else
      let tail := if count = 1 then "" else "." ++ String.ofList (digits.drop 1)
      let mark := if 0 < d.point then "e+" else "e"
      sign ++ String.ofList (digits.take 1) ++ tail ++ mark ++ Text.signedDecimal (d.point - 1)

end ObjcSwift.Binary64
