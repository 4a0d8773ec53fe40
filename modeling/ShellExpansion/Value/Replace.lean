import ShellExpansion.Template.Operator
import ShellExpansion.Value.PatternUse

/-!
# Replacing

`${v/p/w}`, `${v//p/w}`, `${v/#p/w}` and `${v/%p/w}` put a word where the pattern matches: at the
first place, at all places, at the start, or at the end. At a place the longest match counts. The
word is taken as it is, and what has been replaced is not looked at again.
-/

namespace ShellExpansion.Replace

/-- The word in place of the first match. -/
def replaceFirst (final : Text → Option Text) (steps : List Glob.Step) (word value : Text) : Text :=
  match Glob.search? final steps value with
  | none => value
  | some (before, rest) => before ++ word ++ rest

/-- The word in place of the match at the start. -/
def replaceStart (steps : List Glob.Step) (word value : Text) : Text :=
  match Glob.matchStart? steps value with
  | none => value
  | some rest => word ++ rest

theorem length_lt_of_drop {s later : Text} {n : Nat} {c : Char} (h : s.drop n = c :: later) :
    later.length < s.length := by
  have hlength := congrArg List.length h
  rw [List.length_drop, List.length_cons] at hlength
  omega

/-- The word in place of every match in what is left of a value to search. A match is searched for
from where the one before it ended, or one character later if that one was empty; an empty match is
passed over if it stands where another has just ended (`afterMatch`). -/
def replaceFrom (steps : List Glob.Step) (word : Text) (afterMatch : Bool) (s : Text) : Text :=
  match Glob.search? Glob.endAnywhere steps s with
  | none => s
  | some (before, rest) =>
    if before.length + rest.length < s.length then
      before ++ word ++ replaceFrom steps word true rest
    else
      let replaced := if afterMatch ∧ before = [] then [] else before ++ word
      match hdrop : s.drop before.length with
      | [] => replaced
      | c :: later =>
        have := length_lt_of_drop hdrop
        replaced ++ c :: replaceFrom steps word false later
termination_by s.length

/-- The word in place of every match. -/
def replaceEverywhere (steps : List Glob.Step) (word value : Text) : Text :=
  replaceFrom steps word false value

/-- The word in place of the matches that the place asks for. -/
def replaceWith (steps : List Glob.Step) (place : MatchPlace) (word value : Text) : Text :=
  match place with
  | .start => replaceStart steps word value
  | .finish => replaceFirst Glob.endAtEnd steps word value
  | .first => replaceFirst Glob.endAnywhere steps word value
  | .everywhere => replaceEverywhere steps word value

/-- A value with the matches of a pattern replaced. An empty pattern matches at the start and at the
end of a value, where one of them is asked for, and nowhere else. -/
def replace [Engine] (value : Text) (place : MatchPlace) (pattern word : Text) : PatternUse :=
  if pattern = [] ∧ (place = .first ∨ place = .everywhere) then .untouched value
  else .withPattern (place = .start) (place = .finish) pattern fun steps =>
    (Glob.attempt (place = .start) (place = .finish) pattern value
      (replaceWith steps place word value), 1)

end ShellExpansion.Replace
