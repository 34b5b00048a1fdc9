import BlockEditor.Decimal.Shortest

/-!
# JSON numbers

A JSON number without point and exponent that fits in 64 bits, signed or unsigned, is an integer
and keeps its exact value. Every other number is a binary64 number; `-0` is one of them.
`Numeral.ofLetters?` recognises the grammar of numbers, `Numeral.number?` gives the value, and
`Number.letters` writes a number: integers by their digits, binary64 numbers by the fewest digits
that read back.

A binary64 number is read in two roundings: as many of its digits as fit in 64 bits are rounded
to binary64, and the result is scaled by one power of ten (by two, below `1e-308`).
-/

namespace BlockEditor.Json

/-- The integers that are kept exactly: those of 64 bits, signed or unsigned. -/
def IntegerRange (value : Int) : Prop :=
  -9223372036854775808 ≤ value ∧ value < Decimal.wordLimit

instance (value : Int) : Decidable (IntegerRange value) :=
  inferInstanceAs (Decidable (_ ∧ _))

/-- A JSON number. -/
inductive Number where
  /-- An integer of at most 64 bits. -/
  | integer (value : Int) (inRange : IntegerRange value)
  /-- A binary64 number. -/
  | real (value : Float)
deriving DecidableEq

/-- The parts of a number's text. -/
structure Numeral where
  /-- Whether the text starts with a minus sign. -/
  negative : Bool
  /-- The digits before the point. -/
  whole : List Char
  /-- The digits after the point; empty if there is no point. -/
  fraction : List Char
  /-- The sign (`true` for minus) and the digits of the exponent. -/
  exponent : Option (Bool × List Char)
deriving DecidableEq

/-- The digits at the start of a text, and what follows them. -/
def spanDigits (letters : List Char) : List Char × List Char :=
  (letters.takeWhile Char.isDigit, letters.dropWhile Char.isDigit)

namespace Numeral

/-- Reads the exponent of a number at the end of its text. -/
def exponent? : List Char → Option (Option (Bool × List Char))
  | [] => some none
  | mark :: rest =>
    if mark == 'e' || mark == 'E' then
      let (negative, written) := match rest with
        | '-' :: written => (true, written)
        | '+' :: written => (false, written)
        | written => (false, written)
      if !written.isEmpty && written.all Char.isDigit then some (some (negative, written))
      else none
    else none

/-- Reads a point and the digits after it, if there is a point, and gives what follows. -/
def fraction? : List Char → Option (List Char × List Char)
  | '.' :: rest =>
    let (written, rest) := spanDigits rest
    if written.isEmpty then none else some (written, rest)
  | letters => some ([], letters)

/-- Reads the text of a number without its sign. -/
def unsigned? (negative : Bool) (letters : List Char) : Option Numeral := do
  let (whole, rest) := spanDigits letters
  if whole.isEmpty || (whole.length != 1 && whole.head? == some '0') then none
  let (fraction, rest) ← fraction? rest
  let exponent ← exponent? rest
  return ⟨negative, whole, fraction, exponent⟩

/-- Reads the text of a number: an optional minus sign, digits without a superfluous zero in
front, an optional fraction and an optional exponent. -/
def ofLetters? : List Char → Option Numeral
  | '-' :: letters => unsigned? true letters
  | letters => unsigned? false letters

/-- Appends digits to a number as long as the result fits in 64 bits; gives the result and the
number of digits left over. -/
def absorb (number : Nat) : List Char → Nat × Nat
  | [] => (number, 0)
  | letter :: rest =>
    let extended := 10 * number + (letter.toNat - '0'.toNat)
    if extended < Decimal.wordLimit then absorb extended rest else (number, rest.length + 1)

/-- A power of ten as a binary64 number. -/
def tenTo (power : Nat) : Float := Float.ofScientific 1 false power

/-- `number * 10 ^ power` in binary64, unless it is too large. -/
def scale? (number : Nat) (power : Int) : Option Float :=
  let start := Float.ofScientific number false 0
  if number = 0 then some start
  else if 308 < power then none
  else if 0 ≤ power then
    let scaled := start * tenTo power.toNat
    if scaled.isInf then none else some scaled
  else if -308 ≤ power then some (start / tenTo (-power).toNat)
  else if -616 ≤ power then some (start / tenTo 308 / tenTo (-power - 308).toNat)
  else some (Float.ofScientific 0 false 0)

/-- The binary64 number that a text stands for, unless it is too large. -/
def real? (numeral : Numeral) : Option Float :=
  let (significand, skipped) := absorb 0 numeral.whole
  let (significand, dropped) := absorb significand numeral.fraction
  let shift : Int := match numeral.exponent with
    | none => 0
    | some (negative, written) =>
      let size := Nat.ofDigitChars 10 written 0
      if negative then -size else size
  let power := shift + skipped - (numeral.fraction.length - dropped : Nat)
  (scale? significand power).map fun magnitude =>
    if numeral.negative then -magnitude else magnitude

/-- The number that a text stands for, unless it is too large. -/
def number? (numeral : Numeral) : Option Number :=
  let size := Nat.ofDigitChars 10 numeral.whole 0
  let value : Int := if numeral.negative then -size else size
  if inRange : IntegerRange value then
    if numeral.fraction.isEmpty && numeral.exponent.isNone && !(numeral.negative && size == 0) then
      some (.integer value inRange)
    else numeral.real?.map .real
  else numeral.real?.map .real

end Numeral

namespace Number

/-- Binary64 numbers are written without an exponent when their first digit stands for `1e-5` to
`1e15`; an exponent has a sign, and a whole number without one ends in `.0`. -/
def style : Decimal.NumberStyle := ⟨-5, 15, ['e', '+'], ['e', '-'], ['.', '0']⟩

/-- The digits of an integer, after a minus sign if it is negative. -/
def integerLetters (value : Int) : List Char :=
  if value < 0 then '-' :: Decimal.digits value.natAbs else Decimal.digits value.natAbs

/-- The text of a number. -/
def letters : Number → List Char
  | .integer value _ => integerLetters value
  | .real value =>
    match Decimal.binary64.read value.toBits.toNat with
    | .finite negative mantissa exponent =>
      let magnitude :=
        if mantissa = 0 then '0' :: style.wholeMark
        else
          let (number, power) := Decimal.shortest mantissa exponent
          style.write number power
      if negative then '-' :: magnitude else magnitude
    | .infinite _ => ['n', 'u', 'l', 'l']
    | .notANumber => ['n', 'u', 'l', 'l']

/-- The integer that a number is, if it is one. -/
def int? : Number → Option Int
  | .integer value _ => some value
  | .real _ => none

/-- The natural number below `2 ^ 64` that a number is, if it is one. -/
def nat? (number : Number) : Option Nat :=
  number.int?.bind fun value => if value < 0 then none else some value.toNat

/-- The number in binary64, rounded if it is a large integer. -/
def toFloat : Number → Float
  | .integer value _ =>
    let magnitude := Float.ofScientific value.natAbs false 0
    if value < 0 then -magnitude else magnitude
  | .real value => value

/-- The number in binary32. An integer is rounded once, from its exact value. -/
def toSingle : Number → Float32
  | .integer value _ =>
    let magnitude := Float32.ofScientific value.natAbs false 0
    if value < 0 then -magnitude else magnitude
  | .real value => Decimal.narrow value

end Number

end BlockEditor.Json
