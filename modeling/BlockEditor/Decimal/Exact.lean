import BlockEditor.Decimal.Binary

/-!
# Exact decimal text of binary numbers

Every finite binary number has a finite decimal expansion. `exactText` writes it in full, without
an exponent and without zeros at the end; `exactSingle` does so for binary32 numbers, for which
both zeros are `0` and the rest is `inf`, `-inf` and `nan`.
-/

namespace BlockEditor.Decimal

/-- The least number that does not fit in 64 bits, two to the power of 64. -/
def wordLimit : Nat := 18446744073709551616

/-- The decimal digits of a number. -/
def digits (number : Nat) : List Char := Nat.toDigits 10 number

/-- The characters without the zeros at their end. -/
def dropFinalZeros (characters : List Char) : List Char :=
  (characters.reverse.dropWhile (· == '0')).reverse

/-- Digits with a point before the last `places` of them, and no zeros after the point's last
digit. -/
def pointed (number places : Nat) : List Char :=
  let written := digits number
  let padded := List.replicate (places + 1 - written.length) '0' ++ written
  let whole := padded.take (padded.length - places)
  let fraction := dropFinalZeros (padded.drop (padded.length - places))
  if fraction.isEmpty then whole else whole ++ '.' :: fraction

/-- The decimal expansion of `mantissa * 2 ^ exponent`. -/
def exactText (mantissa : Nat) : Int → List Char
  | .ofNat exponent => digits (mantissa * Nat.pow 2 exponent)
  | .negSucc exponent => pointed (mantissa * Nat.pow 5 (exponent + 1)) (exponent + 1)

/-- The exact decimal text of a binary32 number. -/
def exactSingle (value : Float32) : String :=
  match binary32.read value.toBits.toNat with
  | .notANumber => "nan"
  | .infinite negative => if negative then "-inf" else "inf"
  | .finite negative mantissa exponent =>
    let magnitude := exactText mantissa exponent
    String.ofList (if negative && mantissa != 0 then '-' :: magnitude else magnitude)

end BlockEditor.Decimal
