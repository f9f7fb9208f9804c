/-!
# Double-precision numbers

A number is its 64 bits: a sign, an eleven-bit exponent field and a fraction
of 52 bits.  A program's text brings in decimal numbers, which are rounded to
the nearest double once and exactly; nothing else is ever computed with them
here.
-/

namespace PL0

/-- A double-precision number, given by its bits. -/
structure Binary64 where
  bits : UInt64
deriving DecidableEq, Inhabited

namespace Binary64

/-- The size of a number, apart from its sign. -/
inductive Magnitude where
  /-- The number `significand * 2 ^ exponent`. -/
  | finite (significand : Nat) (exponent : Int)
  | infinite
  | notANumber
deriving DecidableEq

/-- Whether the sign bit is set. -/
def isNegative (number : Binary64) : Bool :=
  Nat.pow 2 63 ≤ number.bits.toNat

/-- The eleven bits of the exponent. -/
def exponentField (number : Binary64) : Nat :=
  number.bits.toNat / Nat.pow 2 52 % Nat.pow 2 11

/-- The 52 bits of the fraction. -/
def fraction (number : Binary64) : Nat :=
  number.bits.toNat % Nat.pow 2 52

/-- What the exponent and the fraction say together. -/
def magnitude (number : Binary64) : Magnitude :=
  if number.exponentField = 2047 then
    if number.fraction = 0 then .infinite else .notANumber
  else if number.exponentField = 0 then
    .finite number.fraction (-1074)
  else
    .finite (Nat.pow 2 52 + number.fraction) (number.exponentField - 1075)

/-- Positive zero. -/
def zero : Binary64 := ⟨0⟩

/-- Positive infinity. -/
def infinity : Binary64 := ⟨0x7ff0000000000000⟩

/-- The number that stands for no number. -/
def nan : Binary64 := ⟨0x7ff8000000000000⟩

/-- The number with the other sign. -/
def negate (number : Binary64) : Binary64 :=
  ⟨number.bits ^^^ 0x8000000000000000⟩

/-- A quotient rounded to the nearest integer, a half going to the even
neighbour. -/
def roundHalfEven (numerator denominator : Nat) : Nat :=
  let quotient := numerator / denominator
  let twice := 2 * (numerator % denominator)
  if twice < denominator || (twice = denominator && quotient % 2 = 0)
    then quotient
  else quotient + 1

/-- The greatest power of two, as its exponent, that is at most a positive
quotient. -/
def binaryOrder (numerator denominator : Nat) : Int :=
  let order : Int := (numerator.log2 : Int) - (denominator.log2 : Int)
  if numerator * Nat.pow 2 (-order).toNat < denominator * Nat.pow 2 order.toNat
    then order - 1
  else order

/-- The double nearest to a quotient, a tie going to the even significand.
The bits of the non-negative doubles are in the order of their values, so a
significand that is rounded up to the next power of two carries into the
exponent field by itself, and everything from the bits of infinity on is
infinite. -/
def ofRatio (numerator denominator : Nat) : Binary64 :=
  if numerator = 0 then zero
  else
    let exponent := max (binaryOrder numerator denominator - 52) (-1074)
    let significand :=
      roundHalfEven (numerator * Nat.pow 2 (-exponent).toNat)
        (denominator * Nat.pow 2 exponent.toNat)
    ⟨.ofNat
      (min ((exponent + 1074).toNat * Nat.pow 2 52 + significand)
        infinity.bits.toNat)⟩

/-- The double nearest to `digits * 10 ^ exponent`. -/
def ofDecimal (digits : Nat) (exponent : Int) : Binary64 :=
  ofRatio (digits * Nat.pow 10 exponent.toNat) (Nat.pow 10 (-exponent).toNat)

end Binary64

end PL0
