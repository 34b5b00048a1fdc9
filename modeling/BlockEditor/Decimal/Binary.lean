/-!
# The numbers behind binary floating-point patterns

`Encoding.read` says which number a bit pattern stands for: a whole number times a power of two,
an infinity, or no number. `narrow` rounds a binary64 number to the nearest binary32 number, with
ties to the even neighbour, from that exact value.
-/

namespace BlockEditor.Decimal

/-- A binary interchange format. -/
structure Encoding where
  /-- The number of bits that hold the fraction. -/
  fractionBits : Nat
  /-- The number of bits that hold the exponent. -/
  exponentBits : Nat

/-- The 32-bit format. -/
def binary32 : Encoding := ⟨23, 8⟩

/-- The 64-bit format. -/
def binary64 : Encoding := ⟨52, 11⟩

/-- What a bit pattern stands for. -/
inductive Reading where
  /-- No number. -/
  | notANumber
  /-- An infinity. -/
  | infinite (negative : Bool)
  /-- The number `mantissa * 2 ^ exponent`, negated if `negative`. -/
  | finite (negative : Bool) (mantissa : Nat) (exponent : Int)
deriving DecidableEq

/-- The least exponent of a format, that of its smallest positive number. -/
def Encoding.leastExponent (encoding : Encoding) : Int :=
  2 - (Nat.pow 2 (encoding.exponentBits - 1) : Int) - encoding.fractionBits

/-- What a bit pattern stands for in a format. -/
def Encoding.read (encoding : Encoding) (bits : Nat) : Reading :=
  let fraction := bits % Nat.pow 2 encoding.fractionBits
  let biased := bits / Nat.pow 2 encoding.fractionBits % Nat.pow 2 encoding.exponentBits
  let negative := bits / Nat.pow 2 (encoding.fractionBits + encoding.exponentBits) % 2 == 1
  if biased + 1 = Nat.pow 2 encoding.exponentBits then
    if fraction = 0 then .infinite negative else .notANumber
  else if biased = 0 then .finite negative fraction encoding.leastExponent
  else
    .finite negative (fraction + Nat.pow 2 encoding.fractionBits)
      (encoding.leastExponent + (biased - 1))

/-- The binary32 number nearest to `mantissa * 2 ^ exponent`. -/
def nearest32 (mantissa : Nat) : Int → Float32
  | .ofNat exponent => Float32.ofScientific (mantissa * Nat.pow 2 exponent) false 0
  | .negSucc exponent =>
    Float32.ofScientific (mantissa * Nat.pow 5 (exponent + 1)) true (exponent + 1)

/-- Rounds a binary64 number to binary32. -/
def narrow (value : Float) : Float32 :=
  match binary64.read value.toBits.toNat with
  | .notANumber => Float32.ofBits 0x7FC00000
  | .infinite negative => Float32.ofBits (if negative then 0xFF800000 else 0x7F800000)
  | .finite negative mantissa exponent =>
    let magnitude := nearest32 mantissa exponent
    if negative then -magnitude else magnitude

end BlockEditor.Decimal
