import SchemaTypes.Text.Basic

/-!
Character classes given as closed ranges of code points.
-/

namespace SchemaTypes

/-- Closed ranges, in increasing order. -/
abbrev Ranges := List (Nat × Nat)

def Ranges.contains (ranges : Ranges) (n : Nat) : Bool :=
  ranges.any fun (low, high) => low ≤ n && n ≤ high

end SchemaTypes
