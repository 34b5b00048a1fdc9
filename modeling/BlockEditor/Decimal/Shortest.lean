import BlockEditor.Decimal.Exact

/-!
# Shortest decimal text of binary64 numbers

`shortest` finds the decimal with the fewest digits among those that read back as a given binary
number, and of several the one nearest to the number, with a tie going to the even last digit. A
decimal reads back when it lies between the two midpoints to the neighbouring binary numbers; the
midpoints themselves count when the mantissa is even. Since a coarser grid of decimals means fewer
digits, the search goes through the powers of ten from above and stops at the first grid that has
a point in the interval. `NumberStyle` says how digits and exponent become text.
-/

namespace BlockEditor.Decimal

/-- The reals that round to a binary number: those between `low` and `high`, and these two
themselves if `closed`, all in units of `2 ^ exponent`. -/
structure Neighbourhood where
  /-- The lower midpoint. -/
  low : Nat
  /-- The number itself. -/
  centre : Nat
  /-- The upper midpoint. -/
  high : Nat
  /-- Whether the midpoints round to the number. -/
  closed : Bool
  /-- The exponent of the unit. -/
  exponent : Int

/-- The neighbourhood of `mantissa * 2 ^ exponent` in a format. The gap below a power of two is
half as wide as the gap above it. -/
def Encoding.neighbourhood (encoding : Encoding) (mantissa : Nat) (exponent : Int) :
    Neighbourhood :=
  let narrowBelow :=
    mantissa == Nat.pow 2 encoding.fractionBits && exponent != encoding.leastExponent
  { low := 4 * mantissa - (if narrowBelow then 1 else 2)
    centre := 4 * mantissa
    high := 4 * mantissa + 2
    closed := mantissa % 2 == 0
    exponent := exponent - 2 }

/-- The point of a grid of decimals that stands for a number, `point * 10 ^ power`, if a point of
the grid lies in the number's neighbourhood: the nearer of the two around the number, and the even
one of two equally near. -/
def Neighbourhood.gridPoint? (area : Neighbourhood) (power : Int) : Option Nat :=
  let scale := Nat.pow 2 area.exponent.toNat * Nat.pow 10 (-power).toNat
  let unit := Nat.pow 2 (-area.exponent).toNat * Nat.pow 10 power.toNat
  let below := area.centre * scale / unit
  let inside (point : Nat) : Bool :=
    if area.closed then
      area.low * scale ≤ point * unit && point * unit ≤ area.high * scale
    else area.low * scale < point * unit && point * unit < area.high * scale
  let distanceBelow := area.centre * scale - below * unit
  let distanceAbove := (below + 1) * unit - area.centre * scale
  let preferBelow :=
    distanceBelow < distanceAbove || (distanceBelow == distanceAbove && below % 2 == 0)
  if inside below && below != 0 && (preferBelow || !inside (below + 1)) then some below
  else if inside (below + 1) then some (below + 1)
  else none

/-- The powers of ten at which a binary64 number can have its last digit, from above. -/
def lastDigitPowers : List Int := (List.range 640).map fun step : Nat => 310 - (step : Int)

/-- The fewest digits that read back as `mantissa * 2 ^ exponent` in binary64, and the power of
ten at the last of them. -/
def shortest (mantissa : Nat) (exponent : Int) : Nat × Int :=
  let area := binary64.neighbourhood mantissa exponent
  (lastDigitPowers.findSome? fun power =>
    (area.gridPoint? power).map fun point => (point, power)).getD (0, 0)

/-- How digits and an exponent are written. -/
structure NumberStyle where
  /-- The least decimal exponent of the first digit that is written without an exponent. -/
  leastPlain : Int
  /-- The greatest such exponent. -/
  greatestPlain : Int
  /-- What stands between the digits and a positive exponent. -/
  positiveMark : List Char
  /-- What stands between the digits and a negative exponent. -/
  negativeMark : List Char
  /-- What follows a whole number written without an exponent. -/
  wholeMark : List Char

/-- Writes `number * 10 ^ power`. -/
def NumberStyle.write (style : NumberStyle) (number : Nat) (power : Int) : List Char :=
  let written := digits number
  let first := power + (written.length - 1 : Nat)
  if style.leastPlain ≤ first && first ≤ style.greatestPlain then
    if 0 ≤ power then written ++ List.replicate power.toNat '0' ++ style.wholeMark
    else pointed number (-power).toNat
  else
    let fraction := written.drop 1
    let shown := written.take 1 ++ (if fraction.isEmpty then [] else '.' :: fraction)
    shown ++ (if first < 0 then style.negativeMark else style.positiveMark) ++ digits first.natAbs

end BlockEditor.Decimal
