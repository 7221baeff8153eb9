import ToolLint.Text.Basic

/-!
# Ranges of code points

A property of characters is given as a table of ranges, both ends included.
-/

namespace ToolLint

abbrev CodeRanges : Type := Array (Nat × Nat)

def CodeRanges.has (t : CodeRanges) (n : Nat) : Bool :=
  t.any fun r => r.1 ≤ n && n ≤ r.2

end ToolLint
