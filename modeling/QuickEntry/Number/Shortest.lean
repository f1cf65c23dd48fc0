import QuickEntry.Number.Double

/-! The fewest decimal digits that read back as a given double. -/

namespace QuickEntry

/-- The number `digits * 10 ^ exponent`. -/
structure Decimal where
  digits : Nat
  exponent : Int
deriving DecidableEq, Repr

namespace Double

/-- The factor `10 ^ e` of a numerator, one where `e` is negative. -/
def raiseTen (e : Int) : Nat := Nat.pow 10 e.toNat

/-- Whether a decimal lies between the midpoints to the neighbouring doubles; the midpoints
themselves round to an even mantissa. -/
def roundsTo (d : Double) (candidate : Decimal) : Bool :=
  -- Everything is counted in quarters of the last binary place.
  let below := if d.mantissa = Nat.pow 2 52 && d.exponent > leastExponent then 1 else 2
  let value := 4 * candidate.digits * raiseTen candidate.exponent * d.den
  let unit := raise d.exponent * raiseTen (-candidate.exponent)
  let low := (4 * d.mantissa - below) * unit
  let high := (4 * d.mantissa + 2) * unit
  if d.mantissa % 2 = 0 then low ≤ value && value ≤ high else low < value && value < high

/-- The decimals next to a double on the grid of multiples of a power of ten, the nearer first;
of two equally near ones the even. -/
def neighbours (d : Double) (exponent : Int) : List Decimal :=
  -- The second candidate lies on the other side of the number.
  let num := d.num * raiseTen (-exponent)
  let den := d.den * raiseTen exponent
  let nearest := roundQuotient num den
  let floor := num / den
  [⟨nearest, exponent⟩, ⟨if nearest = floor then floor + 1 else floor, exponent⟩]

/-- The position of the first decimal digit of a number that is not zero, found by trying the
positions downward from the first argument. -/
def topDigit (d : Double) : Nat → Int → Int
  -- A position is right as soon as its power of ten does not exceed the number.
  | 0, guess => guess
  | tries + 1, guess =>
    if d.num * raiseTen (-guess) < d.den * raiseTen guess then topDigit d tries (guess - 1)
    else guess

/-- Drop the zeros at the end of the digits, at most as many as the first argument says. -/
def dropZeros : Nat → Decimal → Decimal
  -- The value stays the same, since the exponent takes up each zero.
  | 0, x => x
  | room + 1, x =>
    if x.digits ≠ 0 && x.digits % 10 = 0 then dropZeros room ⟨x.digits / 10, x.exponent + 1⟩ else x

/-- The decimal with the fewest digits that reads back as the number, the nearest of those;
seventeen digits always do. -/
def shortest (d : Double) : Decimal :=
  if d.isZero then ⟨0, 0⟩
  else
    -- One binary digit is worth 0.30103 decimal ones, so this guess is never too low.
    let bits : Int := d.mantissa.log2 + d.exponent + 1
    let guess : Int := bits * 30103 / 100000 + 1
    let top := topDigit d 4 guess
    let found := (List.range 17).findSome? fun n : Nat =>
      (neighbours d (top - (n : Int))).find? (roundsTo d)
    dropZeros 20 (found.getD ⟨0, 0⟩)

end Double

end QuickEntry
