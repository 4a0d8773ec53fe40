import ShellExpansion.Text

/-!
# The engine

A pattern is matched as a regular expression, by an engine. What the engine does with one is spelled
out in the modules that follow, but for two things that are its own: the tables of the properties
that Unicode gives to characters, and the point at which it gives up a search that takes too long.
Everything that depends on them is said for any engine. That an engine may refuse a regular expression
for its size is left out.
-/

namespace ShellExpansion

namespace Glob

/-- A set of characters, by its membership test. -/
abbrev CharSet := Char → Bool

namespace CharSet

/-- The set without members. -/
def empty : CharSet := fun _ => false

/-- The set of one character. -/
def singleton (c : Char) : CharSet := fun x => x == c

/-- The characters from one to another. -/
def range (first last : Char) : CharSet := fun x => first ≤ x && x ≤ last

/-- The members of either set. -/
def union (a b : CharSet) : CharSet := fun x => a x || b x

/-- The members of both sets. -/
def inter (a b : CharSet) : CharSet := fun x => a x && b x

/-- The members of the first set alone. -/
def diff (a b : CharSet) : CharSet := fun x => a x && !b x

/-- The members of exactly one set. -/
def symmDiff (a b : CharSet) : CharSet := fun x => a x != b x

/-- All other characters. -/
def compl (a : CharSet) : CharSet := fun x => !a x

end CharSet

end Glob

/-- What matching owes to the engine alone. -/
class Engine where
  /-- The characters with a property, by the name that a pattern gives it; not every name is one. -/
  property? : Text → Option Glob.CharSet
  /-- Whether it gives up the search for a regular expression, anchors included, in a value. -/
  givesUp : Text → Text → Bool

end ShellExpansion
