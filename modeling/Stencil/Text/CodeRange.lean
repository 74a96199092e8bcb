import Stencil.Text.Basic

/-!
# Ranges of code points

A class of characters is given by the ranges of its code points. The ranges stand in increasing
order, so a search ends at the first range that lies beyond the character.
-/

namespace Stencil.Text

/-- Whether a code point lies in one of some ranges, both ends of which are included. -/
def inRanges : List (Nat × Nat) → Nat → Bool
  | [], _ => false
  | (first, last) :: rest, code =>
    if code < first then false else code ≤ last || inRanges rest code

end Stencil.Text
