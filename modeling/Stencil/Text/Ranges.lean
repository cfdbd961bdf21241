/-! Sets of characters as ascending ranges of code points, both ends included. -/

namespace Stencil.Text

abbrev Ranges := List (Nat × Nat)

/-- The ranges ascend, so a search stops at the first one that starts beyond the code point. -/
def Ranges.holds : Ranges → Nat → Bool
  | [], _ => false
  | (first, last) :: more, n => if n < first then false else n ≤ last || holds more n

def Ranges.contains (table : Ranges) (c : Char) : Bool := table.holds c.toNat

end Stencil.Text
