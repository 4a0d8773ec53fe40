import ShellExpansion.Expansion.Error
import ShellExpansion.Text.Casing
import ShellExpansion.Value.Replace
import ShellExpansion.Value.Slice
import ShellExpansion.Value.Trim

/-!
# Applying an operator

What an operator makes of a value and of its words, once both are known. `none` is the value of an
unset variable; all operators but those that ask for a missing value take it for an empty one.
-/

namespace ShellExpansion

/-- Whether a value counts as missing. -/
def MissingTest.isMissing : MissingTest → Option Text → Bool
  | .unset, value => value.isNone
  | .unsetOrEmpty, value => value.getD [] = []

/-- A pattern that was tried, the regular expression it stood for, and how often. -/
structure PatternTrial where
  /-- The pattern. -/
  pattern : Text
  /-- Its regular expression, with the anchors. -/
  regex : Text
  /-- The number of times. -/
  tries : Nat
  deriving DecidableEq, Repr

/-- What an operator yields. -/
structure Applied where
  /-- The new value, or the reason why there is none. -/
  result : Except ExpansionError Text
  /-- The patterns that were tried. -/
  trials : List PatternTrial := []

/-- The flag under which every pattern is compiled: a newline is a character like others. -/
def dotAll : Text := "(?s)".toList

/-- The error that the fault of a pattern leads to. -/
def PatternFault.error : PatternFault → ExpansionError
  | invalid regex => .invalidRegex (dotAll ++ regex)
  | unsupported regex => .unsupportedRegex (dotAll ++ regex)
  | gaveUp => .gaveUp

/-- What the use of a pattern yields. -/
def Applied.ofPatternUse (pattern : Text) (use : PatternUse) : Applied where
  result := use.result.mapError PatternFault.error
  trials := if use.tries = 0 then [] else [⟨pattern, use.regex, use.tries⟩]

/-- The word at a place; a word that is not there is empty. -/
def wordAt (words : List Text) (place : Nat) : Text := words.getD place []

/-- The message for a missing value. -/
def requiredDetail : Text → Text
  | [] => ExpansionError.defaultDetail
  | detail => detail

/-- Applies an operator to the value of the variable `name`. -/
def Operator.apply [Engine] (op : Operator) (name : Text) (value : Option Text)
    (words : List Text) : Applied :=
  let text := value.getD []
  let word := wordAt words 0
  match op with
  | length => { result := .ok (Integer.decimal text.length) }
  | lowerFirst => { result := .ok (Casing.lowerFirst text) }
  | lowerAll => { result := .ok (Casing.lower text) }
  | upperFirst => { result := .ok (Casing.upperFirst text) }
  | upperAll => { result := .ok (Casing.upper text) }
  | slice => { result := .ok (Slice.slice text word words[1]?) }
  | trim side extent => .ofPatternUse word (Trim.trim text side extent word)
  | replace place => .ofPatternUse word (Replace.replace text place word (wordAt words 1))
  | default test | assign test =>
    { result := .ok (if test.isMissing value then word else text) }
  | require test =>
    { result :=
        if test.isMissing value then .error (.requiredVariable name (requiredDetail word))
        else .ok text }
  | alternative test => { result := .ok (if test.isMissing value then [] else word) }

/-- Whether an operator gives the variable the word as its value. -/
def Operator.assigns : Operator → Option Text → Bool
  | assign test, value => test.isMissing value
  | _, _ => false

end ShellExpansion
