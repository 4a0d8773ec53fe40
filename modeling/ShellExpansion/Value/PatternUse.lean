import ShellExpansion.Glob.Matcher

/-!
# Uses of a pattern

A pattern is read each time that it is tried. How it is tried, and how often, is of interest to
whoever follows a run, so it is part of what a use of a pattern yields.
-/

namespace ShellExpansion

/-- Why the use of a pattern comes to nothing. -/
inductive PatternFault where
  /-- Its regular expression, with the anchors, is none. -/
  | invalid (regex : Text)
  /-- Its regular expression, with the anchors, is of a kind that is not read here. -/
  | unsupported (regex : Text)
  /-- The engine has given up. -/
  | gaveUp
  deriving DecidableEq, Repr

/-- What a fault of a bracket expression means for the regular expression that it is part of. -/
def PatternFault.ofSetFault (regex : Text) : Glob.SetFault → PatternFault
  | .rangeIntoSet => .unsupported regex
  | _ => .invalid regex

/-- What comes of using a pattern on a value. -/
structure PatternUse where
  /-- The new value, or the reason why there is none. -/
  result : Except PatternFault Text
  /-- The regular expression of the pattern, with its anchors. -/
  regex : Text
  /-- How often the pattern was tried. -/
  tries : Nat

namespace PatternUse

/-- The value as it is, without a look at the pattern. -/
def untouched (value : Text) : PatternUse := ⟨.ok value, [], 0⟩

/-- Compiles a pattern with the given anchors, and goes on if it is valid. A pattern that is not
valid is tried once. -/
def withPattern [Engine] (atStart atEnd : Bool) (pattern : Text)
    (edit : List Glob.Step → Except PatternFault Text × Nat) : PatternUse :=
  let regex := Glob.regex atStart atEnd pattern
  match Glob.compile pattern with
  | .error fault => ⟨.error (.ofSetFault regex fault), regex, 1⟩
  | .ok steps => ⟨(edit steps).1, regex, (edit steps).2⟩

end PatternUse

namespace Glob

variable [Engine]

/-- The outcome of a search, unless the engine gives it up. -/
def attempt {α : Type} (atStart atEnd : Bool) (pattern value : Text) (outcome : α) :
    Except PatternFault α :=
  if givesUp pattern (regex atStart atEnd pattern) value then .error .gaveUp else .ok outcome

/-- Whether a pattern matches a whole value. -/
def matches? (pattern value : Text) : Except PatternFault Bool :=
  match compile pattern with
  | .error fault => .error (.ofSetFault (regex true true pattern) fault)
  | .ok steps => attempt true true pattern value (matchesAll steps value)

end Glob

end ShellExpansion
