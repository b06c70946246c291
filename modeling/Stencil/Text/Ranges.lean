/-!
# Sets of characters

A property of characters is given by the closed ranges of code points that have it.
-/

namespace Stencil.Text

/-- A set of characters, as closed ranges of code points. -/
structure Ranges where
  /-- First and last code point of each range. -/
  bounds : List (Nat × Nat)

/-- Whether a character lies in one of the ranges. -/
def Ranges.contains (ranges : Ranges) (c : Char) : Bool :=
  ranges.bounds.any fun (first, last) => first ≤ c.toNat && c.toNat ≤ last

end Stencil.Text
