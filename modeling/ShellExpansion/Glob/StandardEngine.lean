import ShellExpansion.Glob.Engine
import ShellExpansion.Unicode.Classes

/-!
# The standard engine

The engine that the program runs with. It knows the properties whose tables are at hand, by all of
their names, and it never gives up.
-/

namespace ShellExpansion.Engine

open Glob

/-- The properties, each with the names that it goes by. -/
def properties : List (List Text × CharSet) :=
  [ (["any".toList], fun _ => true),
    (["ascii".toList], fun c => c.toNat < 128),
    (["alphabetic".toList, "alpha".toList], fun c => Unicode.alphabetic.contains c.toNat),
    (["decimalnumber".toList, "digit".toList, "nd".toList], Unicode.isDecimalDigit),
    (["whitespace".toList, "wspace".toList, "space".toList], Unicode.isWhiteSpace),
    (["cased".toList], Unicode.isCased),
    (["caseignorable".toList, "ci".toList], Unicode.isCaseIgnorable),
    (["graphemeextend".toList, "grext".toList], Unicode.isGraphemeExtender) ]

/-- A name without what makes no difference in it: the case of its letters, blanks, hyphens,
underscores, and an `is` in front. -/
def plainName (name : Text) : Text :=
  match (name.filter fun c => !" -_".toList.contains c).map Char.toLower with
  | 'i' :: 's' :: rest => rest
  | plain => plain

/-- The engine with the tables that are at hand. -/
@[reducible]
def standard : Engine where
  property? name := (properties.find? fun entry => entry.1.contains (plainName name)).map Prod.snd
  givesUp _ _ := false

end ShellExpansion.Engine
