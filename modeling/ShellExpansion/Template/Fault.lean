import ShellExpansion.Text.Integer
import ShellExpansion.Text.Utf8

/-!
# What can be wrong with a template
-/

namespace ShellExpansion

/-- Why a text is not a template. -/
inductive ParseError where
  /-- An operator or a delimiter that no expansion has. -/
  | badSubstitution
  /-- An expansion that is not closed. -/
  | missingClosingBrace
  /-- No name where one must stand. -/
  | variableName
  /-- More expansions around an expansion than the limit allows. -/
  | nestingTooDeep (limit : Nat)
  deriving DecidableEq, Repr

/-- The wording of an error. -/
def ParseError.message : ParseError → Text
  | .badSubstitution => "bad substitution".toList
  | .missingClosingBrace => "missing closing brace".toList
  | .variableName => "unable to parse variable name".toList
  | .nestingTooDeep limit =>
    "substitutions nested deeper than ".toList ++ Integer.decimal limit ++ " levels".toList

/-- An error, and what had not been read when it was noticed. -/
structure Fault where
  /-- What is wrong. -/
  error : ParseError
  /-- The unread part of the text. -/
  rest : Text
  deriving DecidableEq, Repr

/-- The place of a fault in a text, in bytes. -/
def Fault.offset (fault : Fault) (input : Text) : Nat := Utf8.size input - Utf8.size fault.rest

end ShellExpansion
