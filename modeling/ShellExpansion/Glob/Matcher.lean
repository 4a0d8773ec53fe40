import ShellExpansion.Glob.Reader
import ShellExpansion.Glob.SetExpression

/-!
# Matching

A pattern is matched step by step: a step takes one character of a set, or any number of characters.
`greedy` says what is left of a text after a match at its start, where every `*` takes as much as it
can; among the matches at one place this is the longest.

To search a text, what is left is computed for all its ends at once (`Track`), from the last step of
the pattern to the first, so that the work is the product of the two lengths. The engine works that
way, too, but for a pattern with a bracket expression that nothing fits: there it tries one way to
match after the other, and it may give up before it has tried them all (`givesUp`).
-/

namespace ShellExpansion.Glob

/-- What a piece of a pattern takes. -/
inductive Step where
  /-- One character of a set. -/
  | one (set : CharSet)
  /-- Any number of characters. -/
  | many

/-- The step of a piece. A bracket expression without members matches nothing, or everything if it
is inverted. -/
def Piece.step [Engine] : Piece → Except SetFault Step
  | literal c => .ok (.one (.singleton c))
  | any => .ok (.one fun _ => true)
  | many => .ok .many
  | bracket inverted members =>
    match members.flatMap Member.tokens with
    | [] => .ok (.one fun _ => inverted)
    | tokens => (bracketSet inverted tokens).map .one

/-- The steps of a pattern. -/
def compile [Engine] (pattern : Text) : Except SetFault (List Step) := (read pattern).mapM Piece.step

/-! ## What a match leaves -/

/-- The one-character step: what `next` leaves after a character of the set. -/
def afterOne (set : CharSet) (next : Text → Option Text) : Text → Option Text
  | [] => none
  | c :: s => if set c then next s else none

/-- The step of any length: what `next` leaves as far to the right as it leaves anything. -/
def afterMany (next : Text → Option Text) : Text → Option Text
  | [] => next []
  | c :: s => afterMany next s <|> next (c :: s)

/-- What is left after a match at the start of a text; `final` says where a match may end. -/
def greedy (final : Text → Option Text) : List Step → Text → Option Text
  | [] => final
  | .one set :: steps => afterOne set (greedy final steps)
  | .many :: steps => afterMany (greedy final steps)

/-- A match may end anywhere. -/
def endAnywhere (s : Text) : Option Text := some s

/-- A match has to reach the end of the text. -/
def endAtEnd : Text → Option Text
  | [] => some []
  | _ :: _ => none

/-! ## All places at once -/

/-- A text with something at every place in it, the one after the last character included. -/
inductive Track (α : Type) where
  /-- The place after the last character. -/
  | last (here : α)
  /-- The place before a character, and the places after it. -/
  | step (here : α) (char : Char) (rest : Track α)

namespace Track

/-- What is at the first place. -/
def head {α : Type} : Track α → α
  | last a => a
  | step a _ _ => a

/-- A function of the text from a place on, at every place. -/
def ofText {α : Type} (f : Text → α) : Text → Track α
  | [] => last (f [])
  | c :: s => step (f (c :: s)) c (ofText f s)

/-- The one-character step at every place. -/
def one (set : CharSet) : Track (Option Text) → Track (Option Text)
  | last _ => last none
  | step _ c rest => step (if set c then rest.head else none) c (one set rest)

/-- The step of any length at every place. -/
def many : Track (Option Text) → Track (Option Text)
  | last a => last a
  | step a c rest =>
    let rest' := many rest
    step (rest'.head <|> a) c rest'

/-- The first place that has something: the text before it, and what is there. -/
def first? {α : Type} : Track (Option α) → Option (Text × α)
  | last a => a.map fun x => ([], x)
  | step (some x) _ _ => some ([], x)
  | step none c rest => rest.first?.map fun (before, x) => (c :: before, x)

end Track

/-- What a match leaves, at every place of a text. -/
def leftovers (final : Text → Option Text) : List Step → Text → Track (Option Text)
  | [], s => Track.ofText final s
  | .one set :: steps, s => (leftovers final steps s).one set
  | .many :: steps, s => (leftovers final steps s).many

theorem Track.head_ofText {α : Type} (f : Text → α) (s : Text) : (Track.ofText f s).head = f s := by
  cases s <;> rfl

theorem Track.one_ofText (set : CharSet) (next : Text → Option Text) (s : Text) :
    (Track.ofText next s).one set = Track.ofText (afterOne set next) s := by
  induction s with
  | nil => rfl
  | cons c s ih => simp [Track.ofText, Track.one, ih, Track.head_ofText, afterOne]

theorem Track.many_ofText (next : Text → Option Text) (s : Text) :
    (Track.ofText next s).many = Track.ofText (afterMany next) s := by
  induction s with
  | nil => rfl
  | cons c s ih => simp [Track.ofText, Track.many, ih, Track.head_ofText, afterMany]

/-- At every place there is what a match at that place leaves. -/
theorem leftovers_eq (final : Text → Option Text) (steps : List Step) (s : Text) :
    leftovers final steps s = Track.ofText (greedy final steps) s := by
  induction steps with
  | nil => rfl
  | cons step steps ih =>
    cases step with
    | one set => rw [leftovers, ih, Track.one_ofText]; rfl
    | many => rw [leftovers, ih, Track.many_ofText]; rfl

/-! ## Questions about a text -/

/-- Whether the steps match the whole text. -/
def matchesAll (steps : List Step) (s : Text) : Bool := (leftovers endAtEnd steps s).head.isSome

/-- What the longest match at the start of a text leaves. -/
def matchStart? (steps : List Step) (s : Text) : Option Text :=
  (leftovers endAnywhere steps s).head

/-- The text before the first match, the longest at its place, and the text after it. -/
def search? (final : Text → Option Text) (steps : List Step) (s : Text) : Option (Text × Text) :=
  (leftovers final steps s).first?

/-! ## Giving up -/

/-- A bracket expression that no character fits. -/
def Piece.fitsNothing : Piece → Bool
  | bracket false members => (members.flatMap Member.tokens).isEmpty
  | _ => false

/-- How often the engine goes back in one search before it gives up. -/
def backtrackLimit : Nat := 1000000

/-- Whether the search for a pattern, written as the regular expression, in a value is given up. The
engine goes back at most once for every choice of a start and of a length for every `*`, so a short
search is never given up. -/
def givesUp [Engine] (pattern regex value : Text) : Bool :=
  (read pattern).any Piece.fitsNothing
    && backtrackLimit < (value.length + 2).pow ((read pattern).count .many + 1)
    && Engine.givesUp regex value

end ShellExpansion.Glob
