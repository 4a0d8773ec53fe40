/-!
# Sets of code points as sorted ranges

A property of characters is stored as the ranges of code points that have it, in increasing order.
`Ranges.contains` is the only thing asked of such a table.
-/

namespace ShellExpansion.Unicode

/-- Ranges of code points, the first and the last of each included, in increasing order. -/
abbrev Ranges := List (Nat × Nat)

/-- Whether a code point lies in one of the ranges. The search ends at the first range beyond it. -/
def Ranges.contains : Ranges → Nat → Bool
  | [], _ => false
  | (first, last) :: rest, n =>
    if n < first then false else if n ≤ last then true else Ranges.contains rest n

end ShellExpansion.Unicode
