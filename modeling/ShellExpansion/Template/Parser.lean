import ShellExpansion.Template.Fault
import ShellExpansion.Template.Node
import ShellExpansion.Template.Token

/-!
# Reading templates

A template is a run of pieces: text, `$$`, `$name`, and `${…}`. The words inside an expansion are
runs of pieces too, which end at the characters that the operator gives a meaning. Every reader
returns what is left of its text, with the fact that it is not longer, so that reading ends.

The limit bounds how many expansions may stand around a `${…}`; it is looked at before anything
else of the expansion.
-/

namespace ShellExpansion

/-- What a reader makes of the text `s`: a value, and a rest that is no longer than `s`. -/
structure Reading (α : Type) (s : Text) where
  /-- What was read. -/
  value : α
  /-- What is left. -/
  rest : Text
  /-- Nothing is added. -/
  rest_le : rest.length ≤ s.length

/-- A reading of a part of `s`, as a reading of `s`. -/
def Reading.lift {α β : Type} {s t : Text} (h : t.length ≤ s.length) (f : α → β)
    (reading : Reading α t) : Reading β s :=
  ⟨f reading.value, reading.rest, Nat.le_trans reading.rest_le h⟩

/-- The places in a template where pieces stand. -/
inductive Region where
  /-- Outside every expansion. -/
  | outside
  /-- A word that ends at the closing brace. -/
  | word
  /-- An offset or a length, which ends at a colon too. -/
  | field
  /-- The pattern of a replacement, which ends at a slash too. -/
  | pattern
  deriving DecidableEq, Repr

namespace Region

/-- The tokens that may stand in a region. Backslash escapes belong to the inside of expansions. -/
def kinds (region : Region) : TokenKinds :=
  { run := true, opening := true, reference := true, dollars := true,
    escapes := region ≠ .outside }

/-- Whether a character ends a region. -/
def isTerminator : Region → Char → Bool
  | outside, _ => false
  | word, c => c == '}'
  | field, c => c == ':' || c == '}'
  | pattern, c => c == '/' || c == '}'

/-- What a run of text in the region may hold. -/
def accepts (region : Region) : Acceptance := fun c _ => !region.isTerminator c

end Region

namespace Parser

/-- The brace that closes an expansion. -/
def closeBrace (s : Text) : Except Fault (Reading Unit s) :=
  match h : Token.scan { closing := true } (fun _ _ => true) s with
  | (.closing, rest) => .ok ⟨(), rest, Nat.le_of_lt (Token.length_scan_lt h nofun nofun)⟩
  | (.ending, _) => .error ⟨.missingClosingBrace, s⟩
  | _ => .error ⟨.badSubstitution, s⟩

/-- A reference `$name` at the given depth. -/
def reference (depth : Nat) (name : Text) : Node :=
  .expansion name none [] depth ('$' :: name)

/-- An expansion `${…}` at the given depth, read from `s` up to `rest`. -/
def braced (depth : Nat) (s rest : Text) (name : Text) (op : Option Operator) (words : List Node) :
    Node :=
  .expansion name op words depth ('$' :: '{' :: Text.read s rest)

theorem length_rest_le {p : Char → Bool} {s rest : Text} (h : rest.length ≤ (s.dropWhile p).length) :
    rest.length ≤ s.length :=
  Nat.le_trans h (Token.length_dropWhile_le p s)

theorem length_dropWhile_lt {p : Char → Bool} {s : Text} (h : s.takeWhile p ≠ []) :
    (s.dropWhile p).length < s.length := by
  have happ := congrArg List.length (List.takeWhile_append_dropWhile (p := p) (l := s))
  rw [List.length_append] at happ
  have := List.length_pos_iff.2 h
  omega

theorem length_lt_of_find {s rest : Text} {op : Operator} (h : Operator.find s = .operator op rest) :
    rest.length < s.length := by
  rw [Operator.eq_append_of_find h, List.length_append]
  have := List.length_pos_iff.2 op.spelling_ne_nil
  omega

theorem length_tail_lt {s rest t : Text} {c : Char} (hrest : rest = c :: t)
    (hle : rest.length ≤ s.length) : t.length < s.length := by
  subst hrest; exact Nat.lt_of_succ_le hle

mutual

/-- The pieces of a region, up to its end. -/
def pieces (limit : Nat) (region : Region) (depth : Nat) (s : Text) :
    Except Fault (Reading (List Node) s) :=
  match h : Token.scan region.kinds region.accepts s with
  | (.run text, rest) => do
    have lt : rest.length < s.length := Token.length_scan_lt h nofun nofun
    let more ← pieces limit region depth rest
    return more.lift (Nat.le_of_lt lt) (.text text :: ·)
  | (.dollars, rest) => do
    have lt : rest.length < s.length := Token.length_scan_lt h nofun nofun
    let more ← pieces limit region depth rest
    return more.lift (Nat.le_of_lt lt) (.text ['$'] :: ·)
  | (.reference name, rest) => do
    have lt : rest.length < s.length := Token.length_scan_lt h nofun nofun
    let more ← pieces limit region depth rest
    return more.lift (Nat.le_of_lt lt) (reference depth name :: ·)
  | (.opening, rest) => do
    have lt : rest.length < s.length := Token.length_scan_lt h nofun nofun
    let node ← expansion limit depth rest
    have lt' : node.rest.length < s.length := Nat.lt_of_le_of_lt node.rest_le lt
    let more ← pieces limit region depth node.rest
    return more.lift (Nat.le_of_lt lt') (node.value :: ·)
  | _ => .ok ⟨[], s, Nat.le_refl _⟩
termination_by (s.length, 0)

/-- The words of an operator, up to the closing brace. -/
def words (limit : Nat) (layout : Operator.Layout) (depth : Nat) (s : Text) :
    Except Fault (Reading (List Node) s) :=
  match layout with
  | .bare => .ok ⟨[], s, Nat.le_refl _⟩
  | .word => do
    let word ← pieces limit .word (depth + 1) s
    return word.lift (Nat.le_refl _) ([Node.ofPieces ·])
  | .fields => do
    let offset ← pieces limit .field (depth + 1) s
    if (Node.ofPieces offset.value).isEmptyText then
      throw ⟨.badSubstitution, offset.rest⟩
    match hrest : offset.rest with
    | ':' :: t =>
      have lt : t.length < s.length := length_tail_lt hrest offset.rest_le
      let length ← pieces limit .field (depth + 1) t
      return length.lift (Nat.le_of_lt lt) ([Node.ofPieces offset.value, Node.ofPieces ·])
    | '}' :: _ => return offset.lift (Nat.le_refl _) ([Node.ofPieces ·])
    | [] => throw ⟨.missingClosingBrace, []⟩
    | c :: t => throw ⟨.badSubstitution, c :: t⟩
  | .replacement => do
    let pattern ← pieces limit .pattern (depth + 1) s
    match hrest : pattern.rest with
    | '/' :: t =>
      have lt : t.length < s.length := length_tail_lt hrest pattern.rest_le
      let word ← pieces limit .word (depth + 1) t
      return word.lift (Nat.le_of_lt lt) ([Node.ofPieces pattern.value, Node.ofPieces ·])
    | '}' :: _ => return pattern.lift (Nat.le_refl _) ([Node.ofPieces ·, .text []])
    | [] => throw ⟨.missingClosingBrace, []⟩
    | c :: t => throw ⟨.badSubstitution, c :: t⟩
termination_by (s.length, 1)

/-- The expansion whose `${` stands before `s`. -/
def expansion (limit depth : Nat) (s : Text) : Except Fault (Reading Node s) :=
  if limit < depth then .error ⟨.nestingTooDeep limit, s⟩
  else
    match s with
    | '#' :: t => do
      let name := t.takeWhile isNameChar
      if name = [] then throw ⟨.badSubstitution, t⟩
      let brace ← closeBrace (t.dropWhile isNameChar)
      return brace.lift (Nat.le_succ_of_le (Token.length_dropWhile_le _ _)) fun _ =>
        braced depth ('#' :: t) brace.rest name (some .length) []
    | s => do
      let name := s.takeWhile isNameChar
      let after := s.dropWhile isNameChar
      if hname : s.takeWhile isNameChar = [] then throw ⟨.variableName, s⟩
      else
        match hfind : Operator.find (s.dropWhile isNameChar) with
        | .operator op t =>
          have lt : t.length < s.length :=
            Nat.lt_trans (length_lt_of_find hfind) (length_dropWhile_lt hname)
          let args ← words limit op.layout depth t
          let brace ← closeBrace args.rest
          return brace.lift (Nat.le_trans args.rest_le (Nat.le_of_lt lt)) fun _ =>
            braced depth s brace.rest name (some op) args.value
        | .mixedCase t => throw ⟨.badSubstitution, t⟩
        | .nothing =>
          match hafter : s.dropWhile isNameChar with
          | '}' :: t =>
            return ⟨braced depth s t name none [], t,
              length_rest_le (p := isNameChar) (hafter ▸ Nat.le_succ _)⟩
          | _ => throw ⟨.missingClosingBrace, after⟩
termination_by (s.length, 2)

end

end Parser

namespace Template

/-- How many expansions may stand around an expansion unless another limit is given. -/
def defaultLimit : Nat := 64

/-- Reads a whole text as a template. -/
def parse (limit : Nat) (input : Text) : Except Fault Node := do
  let pieces ← Parser.pieces limit .outside 0 input
  return Node.ofPieces pieces.value

end Template

end ShellExpansion
