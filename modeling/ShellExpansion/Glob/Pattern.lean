import ShellExpansion.Text

/-!
# Shell patterns

A pattern is a sequence of pieces: characters, `?`, `*`, and bracket expressions. The regular
expression that a pattern stands for is a text of its own, because messages show it.

A bracket expression is written into that text member by member, less the ranges that run
backwards; the tokens of the members are what `SetExpression` gives a meaning to.
-/

namespace ShellExpansion.Glob

/-- The named classes of characters. -/
inductive ClassName where
  | alnum | alpha | blank | cntrl | digit | graph | lower | print | punct | space | upper | xdigit
  deriving DecidableEq, Repr

namespace ClassName

/-- All named classes. -/
def all : List ClassName :=
  [alnum, alpha, blank, cntrl, digit, graph, lower, print, punct, space, upper, xdigit]

/-- The name of a class. -/
def name : ClassName → Text
  | alnum => "alnum".toList
  | alpha => "alpha".toList
  | blank => "blank".toList
  | cntrl => "cntrl".toList
  | digit => "digit".toList
  | graph => "graph".toList
  | lower => "lower".toList
  | print => "print".toList
  | punct => "punct".toList
  | space => "space".toList
  | upper => "upper".toList
  | xdigit => "xdigit".toList

/-- The characters of a class, all of them ASCII. -/
def contains : ClassName → Char → Bool
  | alnum, c => c.isAlphanum
  | alpha, c => c.isAlpha
  | blank, c => c == ' ' || c == '\t'
  | cntrl, c => c.toNat < 32 || c.toNat == 127
  | digit, c => c.isDigit
  | graph, c => 33 ≤ c.toNat && c.toNat ≤ 126
  | lower, c => c.isLower
  | print, c => 32 ≤ c.toNat && c.toNat ≤ 126
  | punct, c => 33 ≤ c.toNat && c.toNat ≤ 126 && !c.isAlphanum
  | space, c => c == ' ' || (9 ≤ c.toNat && c.toNat ≤ 13)
  | upper, c => c.isUpper
  | xdigit, c => c.isDigit || ('a' ≤ c && c ≤ 'f') || ('A' ≤ c && c ≤ 'F')

/-- A class as it is written inside a bracket expression. -/
def spelling (cls : ClassName) : Text := ['[', ':'] ++ cls.name ++ [':', ']']

end ClassName

/-- A character of a bracket expression, possibly after a backslash. -/
structure Endpoint where
  /-- Whether a backslash stands before the character. -/
  escaped : Bool
  /-- The character. -/
  char : Char
  deriving DecidableEq, Repr

/-- A member of a bracket expression. -/
inductive Member where
  /-- `[:name:]` -/
  | named (cls : ClassName)
  /-- `a-b` -/
  | range (first last : Endpoint)
  /-- A character. -/
  | single (char : Endpoint)
  deriving DecidableEq, Repr

/-- A piece of a pattern. -/
inductive Piece where
  /-- A character that stands for itself. -/
  | literal (char : Char)
  /-- `?`: one character. -/
  | any
  /-- `*`: any number of characters. -/
  | many
  /-- `[…]`, or with `!` or `^` in front its complement. -/
  | bracket (inverted : Bool) (members : List Member)
  deriving DecidableEq, Repr

/-! ## The text of a bracket expression -/

/-- A token of the text that a bracket expression is written as. -/
inductive SetToken where
  /-- A character as it is; a few of them are operators. -/
  | plain (char : Char)
  /-- A character after a backslash. -/
  | escaped (char : Char)
  /-- A named class. -/
  | named (cls : ClassName)
  deriving DecidableEq, Repr

/-- A token as it is written. -/
def SetToken.spelling : SetToken → Text
  | plain c => [c]
  | escaped c => ['\\', c]
  | named cls => cls.spelling

/-- The token of an endpoint. An opening bracket always gets a backslash. -/
def Endpoint.token (e : Endpoint) : SetToken :=
  if e.escaped || e.char == '[' then .escaped e.char else .plain e.char

/-- The tokens of a member; a range that runs backwards has none. -/
def Member.tokens : Member → List SetToken
  | named cls => [.named cls]
  | range first last =>
    if first.char ≤ last.char then [first.token, .plain '-', last.token] else []
  | single e => [e.token]

/-! ## The regular expression of a pattern -/

/-- The characters that a regular expression gives a meaning outside brackets. -/
def isSpecial (c : Char) : Bool := "[](){}*?.+^$|\\-".toList.contains c

/-- The regular expression of a piece. -/
def Piece.regex : Piece → Text
  | literal c => if isSpecial c then ['\\', c] else [c]
  | any => ['.']
  | many => ['.', '*']
  | bracket inverted members =>
    match members.flatMap Member.tokens with
    | [] => if inverted then ['.'] else "(?!)".toList
    | tokens => ['['] ++ (if inverted then ['^'] else []) ++ tokens.flatMap SetToken.spelling ++ [']']

end ShellExpansion.Glob
