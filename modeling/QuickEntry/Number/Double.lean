/-! Finite double-precision numbers and their rounding, in exact integer arithmetic. -/

namespace QuickEntry

/-- The number `± mantissa * 2 ^ exponent`. -/
structure Double where
  negative : Bool
  mantissa : Nat
  exponent : Int
deriving DecidableEq, Repr, Inhabited

namespace Double

/-- The least exponent, at which numbers may have fewer than 53 binary digits. -/
def leastExponent : Int := -1074

/-- The largest exponent. -/
def largestExponent : Int := 971

/-- The quotient rounded to the nearest integer, a half to the even one. -/
def roundQuotient (num den : Nat) : Nat :=
  -- Twice the remainder tells on which side of a half the quotient lies.
  let whole := num / den
  let double := 2 * (num % den)
  if double < den then whole
  else if double > den then whole + 1
  else if whole % 2 = 0 then whole else whole + 1

/-- The factor `2 ^ e` of a numerator, one where `e` is negative. -/
def raise (e : Int) : Nat := Nat.pow 2 e.toNat

/-- The zero of a given sign. -/
def zero (negative : Bool) : Double := ⟨negative, 0, leastExponent⟩

/-- Whether the number is a zero of either sign. -/
def isZero (d : Double) : Bool := d.mantissa = 0

/-- The double nearest to `num / den`, ties to the even mantissa; too large a quotient has none. -/
def ofQuotient (negative : Bool) (num den : Nat) : Option Double :=
  if num = 0 then some (zero negative)
  else
    -- The position of the first binary digit, exact or one too high.
    let guess : Int := num.log2 - den.log2
    let top := if num * raise (-guess) < den * raise guess then guess - 1 else guess
    let exponent := max (top - 52) leastExponent
    let mantissa := roundQuotient (num * raise (-exponent)) (den * raise exponent)
    let (mantissa, exponent) :=
      if mantissa = Nat.pow 2 53 then (Nat.pow 2 52, exponent + 1) else (mantissa, exponent)
    if exponent > largestExponent then none else some ⟨negative, mantissa, exponent⟩

/-- The numerator of the absolute value over `d.den`. -/
def num (d : Double) : Nat := d.mantissa * raise d.exponent

/-- A power of two that makes the absolute value a fraction. -/
def den (d : Double) : Nat := raise (-d.exponent)

/-- The double nearest to a power of ten; the exponents in use all have one. -/
def powerOfTen (n : Nat) : Double := (ofQuotient false (Nat.pow 10 n) 1).getD (zero false)

/-- The product of two numbers, rounded. -/
def mul (a b : Double) : Option Double :=
  -- The exact product is rounded once.
  ofQuotient (a.negative != b.negative) (a.num * b.num) (a.den * b.den)

/-- The quotient of two numbers, rounded; the divisor is no zero. -/
def div (a b : Double) : Option Double :=
  -- The exact quotient is rounded once.
  ofQuotient (a.negative != b.negative) (a.num * b.den) (a.den * b.num)

/-- The largest exponent of ten that is applied in one rounded step. -/
def largestPower : Nat := 308

/-- Scale a number down by a power of ten in rounded steps; three steps bring any count of
64 bits to zero, so the first argument bounds their number. -/
def scaleDown : Nat → Double → Nat → Option Double
  -- Zero stays zero, and need not be scaled further.
  | 0, d, _ => some (zero d.negative)
  | steps + 1, d, n =>
    if n ≤ largestPower then d.div (powerOfTen n)
    else if d.isZero then some d
    else do scaleDown steps (← d.div (powerOfTen largestPower)) (n - largestPower)

/-- The number `significand * 10 ^ exponent`: the significand is rounded first and the product once
more, so the result may miss the nearest double. Too large a product has none. -/
def ofScientific (negative : Bool) (significand : Nat) (exponent : Int) : Option Double := do
  -- No power of ten beyond the largest one fits, unless the significand is zero.
  let start ← ofQuotient negative significand 1
  if exponent < 0 then scaleDown 4 start exponent.natAbs
  else if exponent ≤ largestPower then start.mul (powerOfTen exponent.natAbs)
  else if start.isZero then some start
  else none

end Double

end QuickEntry
