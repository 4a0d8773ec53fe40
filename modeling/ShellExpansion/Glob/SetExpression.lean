import ShellExpansion.Glob.Engine
import ShellExpansion.Glob.Pattern
import ShellExpansion.Unicode.Classes

/-!
# What a bracket expression means

The text of a bracket expression is read as a set expression. A backslash before a letter may name
a class, a property of Unicode or a control character; `&&`, `--` and `~~` intersect, subtract and
take the symmetric difference of what stands left and right of them, from left to right and after
everything else; `^` in front inverts the whole. Not every text is a set expression: some letters
have no meaning after a backslash, and a range needs two characters in order.

A range that runs into a set in brackets of its own (`A-\h`, `A-[:digit:]`) is a text of another kind.
The bracket ends the range, the set is over where the inner one ends, and the rest of the text stands
outside of it, as a regular expression that is not read here.
-/

namespace ShellExpansion.Glob

/-- Why a text is not a set expression. -/
inductive SetFault where
  /-- The character means nothing after a backslash. -/
  | unknownEscape (char : Char)
  /-- The digits after the backslash and the letter are missing, or name no character. -/
  | badCodePoint
  /-- The name of a property is missing, or nothing is called so. -/
  | unknownProperty
  /-- A range starts or ends with a class. -/
  | classInRange
  /-- A range runs backwards. -/
  | reversedRange (first last : Char)
  /-- A range runs into a set in brackets, and text stands outside of the set. -/
  | rangeIntoSet
  /-- Nothing follows the sign of inversion. -/
  | unclosed
  deriving DecidableEq, Repr

/-! ## Escapes -/

/-- A symbol of a set expression. -/
inductive SetSymbol where
  /-- A character that may be an operator. -/
  | plain (char : Char)
  /-- A character that stands for itself. -/
  | literal (char : Char)
  /-- A class named by a letter; it cannot be the end of a range. -/
  | shorthand (members : CharSet)
  /-- A class in brackets of its own; a `-` after it stands for itself. -/
  | group (members : CharSet)

/-- What a letter or another character means after a backslash. -/
inductive Escape where
  /-- One symbol. -/
  | symbol (s : SetSymbol)
  /-- A code point in so many hexadecimal digits, or in any number of them between braces. -/
  | codePoint (digits : Nat)
  /-- A property, or its absence, by its name. -/
  | property (inverted : Bool)
  /-- Nothing. -/
  | unknown

/-- The meaning of a character after a backslash. -/
def escape (c : Char) : Escape :=
  match c with
  | 'd' => .symbol (.shorthand Unicode.isDecimalDigit)
  | 'D' => .symbol (.shorthand (CharSet.compl Unicode.isDecimalDigit))
  | 's' => .symbol (.shorthand Unicode.isWhiteSpace)
  | 'S' => .symbol (.shorthand (CharSet.compl Unicode.isWhiteSpace))
  | 'w' => .symbol (.shorthand Unicode.isWordChar)
  | 'W' => .symbol (.shorthand (CharSet.compl Unicode.isWordChar))
  | 'h' => .symbol (.group ClassName.xdigit.contains)
  | 'H' => .symbol (.group (CharSet.compl ClassName.xdigit.contains))
  | 'a' => .symbol (.literal '\x07')
  | 'b' => .symbol (.literal '\x08')
  | 't' => .symbol (.literal '\t')
  | 'n' => .symbol (.literal '\n')
  | 'v' => .symbol (.literal '\x0b')
  | 'f' => .symbol (.literal '\x0c')
  | 'r' => .symbol (.literal '\r')
  | 'e' => .symbol (.literal '\x1b')
  | 'x' => .codePoint 2
  | 'u' => .codePoint 4
  | 'U' => .codePoint 8
  | 'p' => .property false
  | 'P' => .property true
  | 'A' | 'B' | 'G' | 'K' | 'k' | 'z' => .symbol (.literal c)
  | _ => if c.isAlphanum then .unknown else .symbol (.literal c)

/-- The value of a hexadecimal digit. -/
def hexDigit? : SetToken → Option Nat
  | .plain c =>
    if c.isDigit then some (c.toNat - '0'.toNat)
    else if 'a' ≤ c && c ≤ 'f' then some (c.toNat - 'a'.toNat + 10)
    else if 'A' ≤ c && c ≤ 'F' then some (c.toNat - 'A'.toNat + 10)
    else none
  | _ => none

/-- The character with the code point that hexadecimal digits write. -/
def charOfHex? (tokens : List SetToken) : Option Char := do
  let digits ← tokens.mapM hexDigit?
  let n := digits.foldl (fun high d => high * 16 + d) 0
  if n.isValidChar then some (Char.ofNat n) else none

/-- The character whose digits start the tokens, and the number of tokens that write it. -/
def codePoint? (digits : Nat) (tokens : List SetToken) : Option (Char × Nat) :=
  let plain := tokens.take digits
  if plain.length = digits && plain.all fun t => (hexDigit? t).isSome then
    (charOfHex? plain).map fun c => (c, digits)
  else
    match tokens with
    | .plain '{' :: rest =>
      let inside := rest.takeWhile fun t => (hexDigit? t).isSome
      match rest.drop inside.length with
      | .plain '}' :: _ =>
        if inside.length = 0 || 8 < inside.length then none
        else (charOfHex? inside).map fun c => (c, inside.length + 2)
      | _ => none
    | _ => none

/-- The character of a token without a backslash. -/
def SetToken.plain? : SetToken → Option Char
  | .plain c => some c
  | _ => none

/-- The name that starts the tokens, one character or any number of them between braces, and the
number of tokens that write it. -/
def propertyName? (tokens : List SetToken) : Option (Text × Nat) :=
  match tokens with
  | .plain '{' :: rest =>
    let inside := rest.takeWhile (· ≠ .plain '}')
    match rest.drop inside.length with
    | .plain '}' :: _ => (inside.mapM SetToken.plain?).map fun name => (name, inside.length + 2)
    | _ => none
  | .plain c :: _ => some ([c], 1)
  | _ => none

section

variable [Engine]

/-- The set of a property, or of all characters without it. -/
def propertySet? (inverted : Bool) (name : Text) : Option CharSet :=
  (Engine.property? name).map fun set => if inverted then set.compl else set

/-- The symbol of a character after a backslash, and how many of the tokens after it write it, too. -/
def escapeSymbol (c : Char) (tokens : List SetToken) : Except SetFault (SetSymbol × Nat) :=
  match escape c with
  | .unknown => .error (.unknownEscape c)
  | .symbol s => .ok (s, 0)
  | .codePoint digits =>
    match codePoint? digits tokens with
    | none => .error .badCodePoint
    | some (char, used) => .ok (.literal char, used)
  | .property inverted =>
    match propertyName? tokens with
    | none => .error .unknownProperty
    | some (name, used) =>
      match propertySet? inverted name with
      | none => .error .unknownProperty
      | some set => .ok (.shorthand set, used)

end

theorem length_drop_lt {α : Type} (n : Nat) (s : List α) :
    (s.drop n).length < s.length + 1 :=
  Nat.lt_succ_of_le (List.length_drop ▸ Nat.sub_le s.length n)

/-- Gives every token its meaning. -/
def symbols [Engine] : List SetToken → Except SetFault (List SetSymbol)
  | [] => .ok []
  | .plain c :: tokens => return .plain c :: (← symbols tokens)
  | .named cls :: tokens => return .group cls.contains :: (← symbols tokens)
  | .escaped c :: tokens =>
    match escapeSymbol c tokens with
    | .error fault => .error fault
    | .ok (s, used) => return s :: (← symbols (tokens.drop used))
termination_by tokens => tokens.length
decreasing_by
  · exact Nat.lt_succ_self _
  · exact Nat.lt_succ_self _
  · exact length_drop_lt _ _

/-! ## Sets -/

/-- The set of one symbol. -/
def SetSymbol.set : SetSymbol → CharSet
  | plain c => .singleton c
  | literal c => .singleton c
  | shorthand members => members
  | group members => members

/-- The character of a symbol that may be the end of a range. -/
def SetSymbol.char? : SetSymbol → Option Char
  | plain c => some c
  | literal c => some c
  | _ => none

/-- The set of a range. A set in brackets at its end lends it the opening bracket. -/
def rangeSet (first last : SetSymbol) : Except SetFault CharSet :=
  match first.char?, last with
  | some a, .group _ => .error (if a ≤ '[' then .rangeIntoSet else .reversedRange a '[')
  | some a, last =>
    match last.char? with
    | some b => if a ≤ b then .ok (.range a b) else .error (.reversedRange a b)
    | none => .error .classInRange
  | none, _ => .error .classInRange

/-- Whether a symbol is a hyphen that may be an operator. -/
def SetSymbol.isHyphen : SetSymbol → Bool
  | plain '-' => true
  | _ => false

/-- The set of a symbol, or of the range that starts with it, and the number of symbols after the
first that belong to it. -/
def itemSet (first : SetSymbol) (rest : List SetSymbol) : Except SetFault (CharSet × Nat) :=
  match first, rest with
  | .group members, _ => .ok (members, 0)
  | _, .plain '-' :: last :: _ =>
    if last.isHyphen then .ok (first.set, 0)
    else (rangeSet first last).map fun set => (set, 2)
  | _, _ => .ok (first.set, 0)

/-- The set of an expression, given how the operand that is being read enters the whole, and the
part of the operand that has been read. -/
def setFrom (whole : CharSet → CharSet) (operand : CharSet) :
    List SetSymbol → Except SetFault CharSet
  | [] => .ok (whole operand)
  | .plain '&' :: .plain '&' :: rest => setFrom ((whole operand).inter ·) .empty rest
  | .plain '-' :: .plain '-' :: rest => setFrom ((whole operand).diff ·) .empty rest
  | .plain '~' :: .plain '~' :: rest => setFrom ((whole operand).symmDiff ·) .empty rest
  | first :: rest =>
    match itemSet first rest with
    | .error fault => .error fault
    | .ok (set, used) =>
      setFrom whole (operand.union set) (rest.drop used)
termination_by symbols => symbols.length
decreasing_by
  · exact Nat.lt_succ_of_lt (Nat.lt_succ_self _)
  · exact Nat.lt_succ_of_lt (Nat.lt_succ_self _)
  · exact Nat.lt_succ_of_lt (Nat.lt_succ_self _)
  · exact length_drop_lt _ _

/-- The set of an expression: hyphens at its start stand for themselves. -/
def setOf (symbols : List SetSymbol) : Except SetFault CharSet :=
  match symbols with
  | .plain '-' :: rest => setFrom id (.singleton '-') (rest.dropWhile SetSymbol.isHyphen)
  | _ => setFrom id .empty symbols

/-- The set of a bracket expression that is not empty. A `^` that has come to the front inverts it
like one that was written there. -/
def bracketSet [Engine] (inverted : Bool) (tokens : List SetToken) : Except SetFault CharSet := do
  match inverted, ← symbols tokens with
  | true, body => return (← setOf body).compl
  | false, [.plain '^'] => throw .unclosed
  | false, .plain '^' :: body => return (← setOf body).compl
  | false, body => setOf body

end ShellExpansion.Glob
