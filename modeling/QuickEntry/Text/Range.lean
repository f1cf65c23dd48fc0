/-! Classes of characters given as ranges of code points. -/

namespace QuickEntry.Text

/-- Ranges of code points, both ends included. -/
abbrev Ranges := List (Nat × Nat)

/-- A code point lies in a class when one of its ranges holds it. -/
def Ranges.holds (ranges : Ranges) (code : Nat) : Bool :=
  ranges.any fun r => r.1 ≤ code && code ≤ r.2

end QuickEntry.Text
