import ShellExpansion.Template.Parser
import ShellExpansion.Template.Scanner

/-!
# Reading with a scanner

Templates are read by recursive descent over a scanner: every reader sets what it looks for, scans,
and goes by the token that it gets. It has an answer to every token, also to those that cannot come:
these raise an alarm, which nothing catches.
-/

namespace ShellExpansion

/-- What a reader guards against although it cannot happen. -/
inductive Alarm where
  /-- Outside of every expansion there is no token, or a closing brace; told as a bad substitution. -/
  | strayToken
  /-- A closing brace is a token of a word. -/
  | braceInWord
  /-- The operator of a test for missing values is not there, or is none. -/
  | missingTest
  /-- Two dollars stand for another text than one dollar. -/
  | dollars (text : Text)
  /-- An offset ends at another character than a colon or a brace; told as a bad substitution. -/
  | afterOffset
  /-- A pattern ends at another character than a slash or a brace; told as a bad substitution. -/
  | afterPattern
  /-- The operator does not take so many words. -/
  | arity (op : Option Operator) (count : Nat)
  deriving DecidableEq, Repr

/-- Why reading stops. -/
inductive StopReason where
  /-- The text is no template. -/
  | error (error : ParseError)
  /-- Something happens that cannot. -/
  | alarm (alarm : Alarm)
  deriving DecidableEq, Repr

/-- Why reading stops, and where the cursor is then. -/
structure Stop where
  /-- The reason. -/
  reason : StopReason
  /-- The place of the cursor. -/
  offset : Nat
  deriving DecidableEq, Repr

/-- What a reader makes of the text at a scanner: a value, and the scanner after it, which has no more
left than before. -/
structure Onward (α : Type) (scanner : Scanner) where
  /-- What was read. -/
  value : α
  /-- The scanner after it. -/
  next : Scanner
  /-- Nothing is added. -/
  rest_le : next.rest.length ≤ scanner.rest.length

/-- A reading further on, as a reading from here. -/
def Onward.lift {α β : Type} {scanner later : Scanner}
    (h : later.rest.length ≤ scanner.rest.length) (f : α → β) (onward : Onward α later) :
    Onward β scanner :=
  ⟨f onward.value, onward.next, Nat.le_trans onward.rest_le h⟩

/-! ## Families of operators -/

namespace Operator

/-- The families of operators, which are told apart by at most two characters. -/
inductive Family where
  /-- A test for missing values, with its colon if it has one. -/
  | test (test : MissingTest)
  /-- A slice. -/
  | slice
  /-- Case conversion. -/
  | casing
  /-- A replacement. -/
  | replace
  /-- Trimming at a side. -/
  | trim (side : Side)
  deriving DecidableEq, Repr

namespace Family

/-- The signs of what is done about a missing value. -/
def isTestSign (c : Char) : Bool := c == '=' || c == '-' || c == '?' || c == '+'

/-- The family that the next two characters announce. -/
def announced? (next following : Option Char) : Option Family :=
  match next with
  | some ':' => if following.any isTestSign then some (.test .unsetOrEmpty) else some .slice
  | some ',' | some '^' => some .casing
  | some '/' => some .replace
  | some '#' => some (.trim .start)
  | some '%' => some (.trim .finish)
  | some c => if isTestSign c then some (.test .unset) else none
  | none => none

/-- The characters that an operator of the family may have, by their number in it. -/
def accepts : Family → Acceptance
  | .test .unset => fun c index => index == 0 && isTestSign c
  | .test .unsetOrEmpty => fun c index => if index = 0 then c == ':' else index == 1 && isTestSign c
  | .slice => fun c index => c == ':' && index == 0
  | .casing => fun c index => (c == ',' || c == '^') && index < 2
  | .replace => fun c index =>
    if index = 0 then c == '/' else index == 1 && (c == '/' || c == '#' || c == '%')
  | .trim side => fun c index => c == side.mark && index < 2

/-- The operators among which the one that was scanned is looked up. -/
def operators : Family → List Operator
  | .test _ =>
    [.default .unset, .assign .unset, .require .unset, .alternative .unset, .default .unsetOrEmpty,
      .assign .unsetOrEmpty, .require .unsetOrEmpty, .alternative .unsetOrEmpty]
  | .slice => [.slice]
  | .casing => [.lowerFirst, .lowerAll, .upperFirst, .upperAll]
  | .replace => [.replace .first, .replace .everywhere, .replace .start, .replace .finish]
  | .trim _ =>
    [.trim .start .shortest, .trim .start .longest, .trim .finish .shortest, .trim .finish .longest]

/-- What is said where the operator is not there, or is none. -/
def failure : Family → StopReason
  | .test _ => .alarm .missingTest
  | _ => .error .badSubstitution

end Family

end Operator

namespace Descent

open Operator

/-- What a reader gives. -/
abbrev Result (α : Type) (scanner : Scanner) : Type := Except Stop (Onward α scanner)

/-- The token of the given kinds at a scanner. -/
def scanFor (kinds : TokenKinds) (accept : Acceptance) (scanner : Scanner) : TokenKind × Scanner :=
  (scanner.configure kinds accept).scan

section

variable {kinds : TokenKinds} {accept : Acceptance} {scanner next : Scanner} {kind : TokenKind}

theorem length_scanFor_lt (h : scanFor kinds accept scanner = (kind, next)) (he : kind ≠ .ending)
    (hi : kind ≠ .illegal) : next.rest.length < scanner.rest.length := by
  have hlt : next.rest.length < (scanner.configure kinds accept).rest.length :=
    Scanner.length_rest_scan_lt h he hi
  exact hlt

theorem length_scanFor_le (h : scanFor kinds accept scanner = (kind, next)) :
    next.rest.length ≤ scanner.rest.length := by
  have hle : next.rest.length ≤ (scanner.configure kinds accept).rest.length :=
    Scanner.length_rest_scan_le h
  exact hle

theorem length_unread_le (h : scanFor kinds accept scanner = (kind, next)) :
    next.unread.rest.length ≤ scanner.rest.length := by
  have hunread := (scanner.configure kinds accept).rest_unread_scan
  rw [show (scanner.configure kinds accept).scan = (kind, next) from h] at hunread
  rw [hunread]
  exact Nat.le_refl _

end

/-- A run of text that has to be there. -/
def runOf (accept : Acceptance) (failure : StopReason) (scanner : Scanner) : Result Text scanner :=
  match h : scanFor { run := true } accept scanner with
  | (.run, next) => .ok ⟨next.text, next, length_scanFor_le h⟩
  | (_, next) => .error ⟨failure, next.cursor⟩

/-- The name of a variable. -/
def nameOf (failure : StopReason) (scanner : Scanner) : Result Text scanner :=
  runOf (fun c _ => isNameChar c) failure scanner

/-- The operator that a family announces. -/
def operatorOf (family : Family) (scanner : Scanner) : Result Operator scanner := do
  let token ← runOf family.accepts family.failure scanner
  match family.operators.find? (·.spelling = token.value) with
  | some op => return ⟨op, token.next, token.rest_le⟩
  | none => throw ⟨family.failure, token.next.cursor⟩

/-- The brace that closes an expansion. -/
def closeBrace (scanner : Scanner) : Result Unit scanner :=
  match h : scanFor { closing := true } (fun _ _ => true) scanner with
  | (.closing, next) => .ok ⟨(), next, length_scanFor_le h⟩
  | (.ending, next) => .error ⟨.error .missingClosingBrace, next.cursor⟩
  | (_, next) => .error ⟨.error .badSubstitution, next.cursor⟩

/-- Whether an operator takes so many words. -/
def fitsArity : Option Operator → Nat → Bool
  | none, _ => true
  | some op, count => op.arity.1 ≤ count && count ≤ op.arity.2

/-- The expansion that starts at a place and ends at the cursor. -/
def finish (depth : Nat) (name : Text) (op : Option Operator) (args : List Node) (start : Nat)
    (scanner : Scanner) : Except Stop Node :=
  if fitsArity op args.length then
    .ok (.expansion name op args depth
      ((Utf8.between? start scanner.cursor scanner.input).getD []))
  else .error ⟨.alarm (.arity op args.length), scanner.cursor⟩

/-- The closing brace, and the expansion that it closes. -/
def closed (depth : Nat) (name : Text) (op : Option Operator) (args : List Node) (start : Nat)
    (scanner : Scanner) : Result Node scanner := do
  let brace ← closeBrace scanner
  let node ← finish depth name op args start brace.next
  return ⟨node, brace.next, brace.rest_le⟩

/-- The text that two dollars stand for. -/
def dollarText (scanner : Scanner) : Except Stop Node :=
  if scanner.text = ['$'] then .ok (.text ['$'])
  else .error ⟨.alarm (.dollars scanner.text), scanner.cursor⟩

/-- What is wrong with a token at which the pieces of a region end. -/
def alarmAt? : Region → TokenKind → Option Alarm
  | .outside, .ending => none
  | .outside, _ => some .strayToken
  | _, .closing => some .braceInWord
  | _, _ => none

/-- What follows the first of two words: a separator, which is read, or a closing brace, which is
not. -/
def separator (sign : Char) (alarm : Alarm) (scanner : Scanner) : Result Bool scanner :=
  match h : scanFor { run := true, closing := true } (fun c index => c == sign && index == 0)
      scanner with
  | (.run, next) => .ok ⟨true, next, length_scanFor_le h⟩
  | (.closing, next) => .ok ⟨false, next.unread, length_unread_le h⟩
  | (.ending, next) => .error ⟨.error .missingClosingBrace, next.cursor⟩
  | (_, next) => .error ⟨.alarm alarm, next.cursor⟩

mutual

/-- The pieces of a region, up to its end. -/
def pieces (limit : Nat) (region : Region) (depth : Nat) (scanner : Scanner) :
    Result (List Node) scanner :=
  match h : scanFor region.kinds region.accepts scanner with
  | (.run, next) => do
    have lt : next.rest.length < scanner.rest.length := length_scanFor_lt h nofun nofun
    let more ← pieces limit region depth next
    return more.lift (Nat.le_of_lt lt) (.text next.text :: ·)
  | (.dollars, next) => do
    have lt : next.rest.length < scanner.rest.length := length_scanFor_lt h nofun nofun
    let piece ← dollarText next
    let more ← pieces limit region depth next
    return more.lift (Nat.le_of_lt lt) (piece :: ·)
  | (.reference, next) => do
    have lt : next.rest.length < scanner.rest.length := length_scanFor_lt h nofun nofun
    let more ← pieces limit region depth next
    return more.lift (Nat.le_of_lt lt) (Parser.reference depth next.text :: ·)
  | (.opening, next) => do
    have lt : next.rest.length < scanner.rest.length := length_scanFor_lt h nofun nofun
    let node ← expansion limit depth next
    have lt' : node.next.rest.length < scanner.rest.length := Nat.lt_of_le_of_lt node.rest_le lt
    let more ← pieces limit region depth node.next
    return more.lift (Nat.le_of_lt lt') (node.value :: ·)
  | (kind, next) =>
    match alarmAt? region kind with
    | none => .ok ⟨[], next, length_scanFor_le h⟩
    | some alarm => .error ⟨.alarm alarm, next.cursor⟩
termination_by 3 * scanner.rest.length

/-- The words of an operator, up to the closing brace. -/
def words (limit : Nat) (layout : Layout) (depth : Nat) (scanner : Scanner) :
    Result (List Node) scanner :=
  match layout with
  | .bare => .ok ⟨[], scanner, Nat.le_refl _⟩
  | .word => do
    let word ← pieces limit .word (depth + 1) scanner
    return word.lift (Nat.le_refl _) ([Node.ofPieces ·])
  | .fields => do
    let offset ← pieces limit .field (depth + 1) scanner
    if (Node.ofPieces offset.value).isEmptyText then
      throw ⟨.error .badSubstitution, offset.next.cursor⟩
    let colon ← separator ':' .afterOffset offset.next
    have le := Nat.le_trans colon.rest_le offset.rest_le
    if colon.value then
      let length ← pieces limit .field (depth + 1) colon.next
      return length.lift le ([Node.ofPieces offset.value, Node.ofPieces ·])
    else return ⟨[Node.ofPieces offset.value], colon.next, le⟩
  | .replacement => do
    let pattern ← pieces limit .pattern (depth + 1) scanner
    let slash ← separator '/' .afterPattern pattern.next
    have le := Nat.le_trans slash.rest_le pattern.rest_le
    if slash.value then
      let word ← pieces limit .word (depth + 1) slash.next
      return word.lift le ([Node.ofPieces pattern.value, Node.ofPieces ·])
    else return ⟨[Node.ofPieces pattern.value, .text []], slash.next, le⟩
termination_by 3 * scanner.rest.length + 1

/-- The expansion whose `${` has just been scanned. -/
def expansion (limit depth : Nat) (scanner : Scanner) : Result Node scanner :=
  if limit < depth then .error ⟨.error (.nestingTooDeep limit), scanner.cursor⟩
  else if scanner.peek = some '#' then do
    let hash ← runOf (fun c index => c == '#' && index == 0) (.error .badSubstitution) scanner
    let name ← nameOf (.error .badSubstitution) hash.next
    let node ← closed depth name.value (some .length) [] scanner.start name.next
    return node.lift (Nat.le_trans name.rest_le hash.rest_le) id
  else do
    let name ← nameOf (.error .variableName) scanner
    match Family.announced? name.next.peek name.next.peekTwo with
    | some family =>
      let op ← operatorOf family name.next
      have le := Nat.le_trans op.rest_le name.rest_le
      let args ← words limit op.value.layout depth op.next
      let node ← closed depth name.value (some op.value) args.value scanner.start args.next
      return node.lift (Nat.le_trans args.rest_le le) id
    | none =>
      match h : scanFor { closing := true } (fun c _ => isNameChar c) name.next with
      | (.closing, next) =>
        let node ← finish depth name.value none [] scanner.start next
        return ⟨node, next, Nat.le_trans (length_scanFor_le h) name.rest_le⟩
      | (_, next) => throw ⟨.error .missingClosingBrace, next.cursor⟩
termination_by 3 * scanner.rest.length + 2
decreasing_by exact Nat.lt_succ_of_le (Nat.succ_le_succ (Nat.mul_le_mul_left 3 le))

end

/-- Reads a whole text as a template. -/
def parse (limit : Nat) (input : Text) : Except Stop Node := do
  let pieces ← pieces limit .outside 0 (Scanner.new input)
  return Node.ofPieces pieces.value

end Descent

end ShellExpansion
