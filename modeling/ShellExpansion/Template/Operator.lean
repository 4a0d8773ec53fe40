import ShellExpansion.Text

/-!
# Operators of an expansion

What stands between the name and the closing brace of `${name…}`: the closed set of operators, how
each is written, how many words it takes, and how its words are laid out.
-/

namespace ShellExpansion

/-- When a value counts as missing. -/
inductive MissingTest where
  /-- The variable is unset. -/
  | unset
  /-- The variable is unset or empty; written with a colon. -/
  | unsetOrEmpty
  deriving DecidableEq, Repr

/-- Where a replacement looks for its pattern. -/
inductive MatchPlace where
  /-- At the start of the value only. -/
  | start
  /-- At the end of the value only. -/
  | finish
  /-- At the first place that matches. -/
  | first
  /-- At every place that matches. -/
  | everywhere
  deriving DecidableEq, Repr

/-- An end of a value. -/
inductive Side where
  /-- The start. -/
  | start
  /-- The end. -/
  | finish
  deriving DecidableEq, Repr

/-- How much of a value a pattern takes where it could take more or less. -/
inductive Extent where
  /-- As little as possible. -/
  | shortest
  /-- As much as possible. -/
  | longest
  deriving DecidableEq, Repr

/-- The operators. -/
inductive Operator where
  /-- `${#v}`: the number of characters. -/
  | length
  /-- `${v,}` -/
  | lowerFirst
  /-- `${v,,}` -/
  | lowerAll
  /-- `${v^}` -/
  | upperFirst
  /-- `${v^^}` -/
  | upperAll
  /-- `${v:offset}` and `${v:offset:length}` -/
  | slice
  /-- `${v#pattern}`, `${v##pattern}`, `${v%pattern}` and `${v%%pattern}` -/
  | trim (side : Side) (extent : Extent)
  /-- `${v/pattern/word}` and the like. -/
  | replace (place : MatchPlace)
  /-- `${v-word}` and `${v:-word}`: the word instead of a missing value. -/
  | default (test : MissingTest)
  /-- `${v=word}` and `${v:=word}`: as above, and the variable keeps the word. -/
  | assign (test : MissingTest)
  /-- `${v?word}` and `${v:?word}`: a missing value is an error, with the word as its message. -/
  | require (test : MissingTest)
  /-- `${v+word}` and `${v:+word}`: the word unless the value is missing. -/
  | alternative (test : MissingTest)
  deriving DecidableEq, Repr

/-- The colon that makes an empty value count as missing. -/
def MissingTest.mark : MissingTest → Text
  | .unset => []
  | .unsetOrEmpty => [':']

/-- The sign of the end that is trimmed. -/
def Side.mark : Side → Char
  | .start => '#'
  | .finish => '%'

/-- What follows the slash of a replacement. -/
def MatchPlace.mark : MatchPlace → Text
  | .first => []
  | .everywhere => ['/']
  | .start => ['#']
  | .finish => ['%']

namespace Operator

/-- The operator as it is written. -/
def spelling : Operator → Text
  | length => ['#']
  | lowerFirst => [',']
  | lowerAll => [',', ',']
  | upperFirst => ['^']
  | upperAll => ['^', '^']
  | slice => [':']
  | trim side .shortest => [side.mark]
  | trim side .longest => [side.mark, side.mark]
  | replace place => '/' :: place.mark
  | default test => test.mark ++ ['-']
  | assign test => test.mark ++ ['=']
  | require test => test.mark ++ ['?']
  | alternative test => test.mark ++ ['+']

theorem spelling_ne_nil (op : Operator) : op.spelling ≠ [] := by
  unfold spelling; split <;> simp

/-- How the words of an operator are laid out. -/
inductive Layout where
  /-- No word. -/
  | bare
  /-- One word, up to the brace. -/
  | word
  /-- An offset, and a length after a colon. -/
  | fields
  /-- A pattern, and a word after a slash. -/
  | replacement
  deriving DecidableEq, Repr

/-- The layout of an operator's words. -/
def layout : Operator → Layout
  | length | lowerFirst | lowerAll | upperFirst | upperAll => .bare
  | slice => .fields
  | replace _ => .replacement
  | trim _ _ | default _ | assign _ | require _ | alternative _ => .word

/-- The least and the greatest number of words. -/
def arity (op : Operator) : Nat × Nat :=
  match op.layout with
  | .bare => (0, 0)
  | .word => (1, 1)
  | .fields => (1, 2)
  | .replacement => (2, 2)

/-! ## Reading an operator

An operator is the longest spelling that the text starts with. Case conversion takes up to two of
its two signs before it looks at them, so that a mixed pair is no operator at all. -/

/-- What a text holds where an operator may stand. -/
inductive Found where
  /-- An operator, and the text after it. -/
  | operator (op : Operator) (rest : Text)
  /-- A pair of case signs that differ, and the text after them. -/
  | mixedCase (rest : Text)
  /-- No operator. -/
  | nothing

/-- Reads the operator at the start of a text. -/
def find : Text → Found
  | ':' :: '-' :: s => .operator (default .unsetOrEmpty) s
  | ':' :: '=' :: s => .operator (assign .unsetOrEmpty) s
  | ':' :: '?' :: s => .operator (require .unsetOrEmpty) s
  | ':' :: '+' :: s => .operator (alternative .unsetOrEmpty) s
  | ':' :: s => .operator slice s
  | '-' :: s => .operator (default .unset) s
  | '=' :: s => .operator (assign .unset) s
  | '?' :: s => .operator (require .unset) s
  | '+' :: s => .operator (alternative .unset) s
  | ',' :: ',' :: s => .operator lowerAll s
  | ',' :: '^' :: s => .mixedCase s
  | ',' :: s => .operator lowerFirst s
  | '^' :: '^' :: s => .operator upperAll s
  | '^' :: ',' :: s => .mixedCase s
  | '^' :: s => .operator upperFirst s
  | '/' :: '/' :: s => .operator (replace .everywhere) s
  | '/' :: '#' :: s => .operator (replace .start) s
  | '/' :: '%' :: s => .operator (replace .finish) s
  | '/' :: s => .operator (replace .first) s
  | '#' :: '#' :: s => .operator (trim .start .longest) s
  | '#' :: s => .operator (trim .start .shortest) s
  | '%' :: '%' :: s => .operator (trim .finish .longest) s
  | '%' :: s => .operator (trim .finish .shortest) s
  | _ => .nothing

/-- An operator that was found is what the text starts with. -/
theorem eq_append_of_find {s rest : Text} {op : Operator} (h : find s = .operator op rest) :
    s = op.spelling ++ rest := by
  unfold find at h
  split at h <;> cases h <;> rfl

end Operator

end ShellExpansion
