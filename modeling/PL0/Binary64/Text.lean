import PL0.Binary64.Shortest

/-!
# The text of a double

Numbers of moderate size are written positionally and always show a decimal
point; very large and very small ones are written with an exponent.
-/

namespace PL0.Binary64

/-- Where positional notation is used: from `10 ^ (least - 1)` on and below
`10 ^ greatest`. -/
structure PositionalRange where
  least : Int
  greatest : Int

/-- Numbers from `0.0001` on and below `10 ^ 16` are written positionally. -/
def positionalRange : PositionalRange := ⟨-3, 16⟩

/-- A decimal with its point in place and at least one digit on either side of
it. -/
def Decimal.positional (decimal : Decimal) : List Char :=
  let places := decimal.point.toNat
  if decimal.point ≤ 0 then
    ['0', '.'] ++ List.replicate (-decimal.point).toNat '0' ++ decimal.digits
  else if decimal.digits.length ≤ places then
    decimal.digits ++ List.replicate (places - decimal.digits.length) '0' ++
      ['.', '0']
  else
    decimal.digits.take places ++ ['.'] ++ decimal.digits.drop places

/-- A decimal as one digit, the other digits behind a point if there are any,
and the power of ten. -/
def Decimal.scientific (decimal : Decimal) : List Char :=
  let others := decimal.digits.drop 1
  decimal.digits.take 1 ++ (if others.isEmpty then [] else '.' :: others) ++
    ['e'] ++ (toString (decimal.point - 1)).toList

/-- A decimal in the notation for its size. -/
def Decimal.text (decimal : Decimal) : List Char :=
  if positionalRange.least ≤ decimal.point && decimal.point ≤
    positionalRange.greatest then
    decimal.positional
  else
    decimal.scientific

/-- The text of a magnitude. -/
def Magnitude.text : Magnitude → List Char
  | .finite significand exponent =>
    if significand = 0 then ['0', '.', '0']
      else (shortest significand exponent).text
  | .infinite => ['i', 'n', 'f']
  | .notANumber => ['N', 'a', 'N']

/-- The text of a double.  Only a number that is none shows no sign. -/
def text (number : Binary64) : String :=
  let unsigned := number.magnitude.text
  String.ofList <|
    if number.isNegative && number.magnitude ≠ .notANumber then '-' :: unsigned
      else unsigned

end PL0.Binary64
