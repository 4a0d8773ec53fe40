import ShellExpansion.Template.Operator
import ShellExpansion.Value.PatternUse

/-!
# Trimming

`${v#p}`, `${v##p}`, `${v%p}` and `${v%%p}` take off the shortest or the longest part at an end of
the value that the pattern matches. The parts are tried one after the other, in order of length.
-/

namespace ShellExpansion.Trim

/-- All ways to cut a value in two, from the empty first part on. -/
def cuts (value : Text) : List (Text × Text) :=
  (List.range (value.length + 1)).map fun n => (value.take n, value.drop n)

/-- What may be taken off and what would then be left, in the order in which it is tried. The longest
part is looked for among the parts that are not empty, because taking off nothing is what happens
without a match. -/
def candidates (value : Text) : Side → Extent → List (Text × Text)
  | .start, .shortest => cuts value
  | .start, .longest => (cuts value).tail.reverse
  | .finish, .shortest => (cuts value).reverse.map Prod.swap
  | .finish, .longest => (cuts value).dropLast.map Prod.swap

/-- The first element that passes a test, and how many elements were tested. A test that fails ends
the search. -/
def firstWhere {α ε : Type} (test : α → Except ε Bool) : List α → Except ε (Option α) × Nat
  | [] => (.ok none, 0)
  | a :: as =>
    match test a with
    | .error e => (.error e, 1)
    | .ok true => (.ok (some a), 1)
    | .ok false =>
      let (found, tested) := firstWhere test as
      (found, tested + 1)

variable [Engine]

/-- The value without the first candidate that matches, and the number of candidates tried. -/
def trimWith (pattern : Text) (steps : List Glob.Step) (value : Text) (side : Side)
    (extent : Extent) : Except PatternFault Text × Nat :=
  let (found, tried) :=
    firstWhere (fun cut => Glob.attempt true true pattern cut.1 (Glob.matchesAll steps cut.1))
      (candidates value side extent)
  (found.map fun cut? => cut?.elim value Prod.snd, tried)

/-- A value trimmed by a pattern. An empty pattern takes off nothing, and where there is nothing to
try the pattern is not looked at. -/
def trim (value : Text) (side : Side) (extent : Extent) (pattern : Text) : PatternUse :=
  if pattern = [] ∨ candidates value side extent = [] then .untouched value
  else .withPattern true true pattern fun steps => trimWith pattern steps value side extent

end ShellExpansion.Trim
