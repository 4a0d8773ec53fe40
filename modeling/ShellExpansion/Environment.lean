import ShellExpansion.Expansion.Template
import ShellExpansion.Text.Utf8

/-!
# The environment

Variables of a process are strings of bytes. A value that is not text is repaired. An unset variable
is empty in lenient resolution, so that only a test with a colon finds it missing; in strict
resolution it is unset.
-/

namespace ShellExpansion

open Utf8

/-- The variables of a process. -/
abbrev Environment := List (Bytes × Bytes)

namespace Environment

/-- The value of a variable, in bytes. -/
def bytes? (env : Environment) (name : Text) : Option Bytes := List.lookup (encode name) env

/-- The value that a variable has in a template. -/
def resolve (env : Environment) (strict : Bool) (name : Text) : Option Text :=
  match env.bytes? name with
  | some value => some (repair value)
  | none => if strict then none else some []

/-- Expands a text with the variables of the environment. -/
def evaluate [Engine] (env : Environment) (strict : Bool) (input : Text) :
    Except ExpansionError Text :=
  Template.evaluate (env.resolve strict) input

end Environment

end ShellExpansion
