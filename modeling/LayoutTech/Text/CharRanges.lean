/-!
# Sets of characters

A set of characters as the ranges of their code points. The tables of the Unicode standard are written so.
-/

namespace LayoutTech.Text

/-- Ranges of code points, both ends included. -/
abbrev CharRanges := List (Nat × Nat)

def CharRanges.contains (ranges : CharRanges) (c : Char) : Bool :=
  ranges.any fun (first, last) => first ≤ c.toNat && c.toNat ≤ last

end LayoutTech.Text
