import ShellExpansion.Template.Node
import ShellExpansion.Template.Parser

/-!
# The grammar of templates

What a template is, said without a reader: a sequence of items, where the braced items hold slots
that are sequences of items again.  Every derivation carries the nodes that its text stands for.

A derivation `Items limit region depth text next nodes` is about the text `text` in front of `next`:
some items end only where the character after them cannot continue them.  A braced expansion is
closed by its own brace, so `Braced limit depth text node` is about `text` alone.

Backslash escapes belong to the inside of expansions; outside of them a backslash is a character
like others.  `depth` counts the expansions around the items, and at most `limit` may stand around a
braced one.
-/

namespace ShellExpansion.Grammar

/-! ## Characters and names -/

/-- The characters that end a region. -/
def ends : Region → List Char
  | .outside => []
  | .word => ['}']
  | .field => [':', '}']
  | .pattern => ['/', '}']

/-- The text is at its end, or goes on with a character that ends the region. -/
def Ends (region : Region) (next : Text) : Prop := ∀ c ∈ next.head?, c ∈ ends region

/-- The characters that a backslash makes plain. -/
def escapable : List Char := ['\\', '/', '}', '$', ':']

/-- A name is not empty and consists of name characters. -/
def IsName (name : Text) : Prop := name ≠ [] ∧ ∀ c ∈ name, isNameChar c = true

/-- The text goes on with a name character. -/
def NameFollows (next : Text) : Prop := ∃ c ∈ next.head?, isNameChar c = true

/-- A dollar in front of the text starts an expansion. -/
def DollarExpands (next : Text) : Prop := next.head? = some '{' ∨ NameFollows next

/-! ## Operators -/

/-- `-` `=` `?` `+`, the same after a colon, `#` `##` `%` `%%`: one word follows. -/
def wordOperators : List Operator :=
  [.default .unset, .assign .unset, .require .unset, .alternative .unset,
    .default .unsetOrEmpty, .assign .unsetOrEmpty, .require .unsetOrEmpty,
    .alternative .unsetOrEmpty,
    .trim .start .shortest, .trim .start .longest, .trim .finish .shortest, .trim .finish .longest]

/-- `/` `//` `/#` `/%`: a pattern and possibly a word follow. -/
def replaceOperators : List Operator :=
  [.replace .first, .replace .everywhere, .replace .start, .replace .finish]

/-- `,` `,,` `^` `^^`: nothing follows. -/
def caseOperators : List Operator := [.lowerFirst, .lowerAll, .upperFirst, .upperAll]

/-- Of several operators, the one with the longest spelling at the start of
`op.spelling ++ after` is `op`. -/
def IsLongest (operators : List Operator) (op : Operator) (after : Text) : Prop :=
  op ∈ operators ∧
    ∀ other ∈ operators, other.spelling <+: op.spelling ++ after →
      other.spelling.length ≤ op.spelling.length

/-! ## Items -/

/-- Items without braces: `$$`, `$name`, an escape, and any other character. -/
inductive Plain (region : Region) (depth : Nat) : Text → Text → Node → Prop
  /-- `$$` stands for one dollar. -/
  | dollars {next : Text} (h : ¬ DollarExpands next) :
      Plain region depth ['$', '$'] next (.text ['$'])
  /-- Of two dollars the first stands for itself if the second starts an expansion. -/
  | dollar {next : Text} (h : DollarExpands next) :
      Plain region depth ['$'] ('$' :: next) (.text ['$'])
  /-- `$name`, with as many name characters as there are. -/
  | reference {name next : Text} (hname : IsName name) (hnext : ¬ NameFollows next) :
      Plain region depth ('$' :: name) next (.expansion name none [] depth ('$' :: name))
  /-- A backslash in a slot makes the next character plain. -/
  | escaped {c : Char} {next : Text} (hregion : region ≠ .outside) (hc : c ∈ escapable) :
      Plain region depth ['\\', c] next (.text [c])
  /-- Any other character that does not end the region stands for itself. -/
  | char {c : Char} {next : Text} (hends : c ∉ ends region)
      (hdollar : c = '$' → next.head? ≠ some '$' ∧ ¬ DollarExpands next)
      (hescape : c = '\\' → region ≠ .outside → ∀ d ∈ next.head?, d ∉ escapable) :
      Plain region depth [c] next (.text [c])

mutual

/-- A sequence of items in a region, with what follows them and the nodes that they stand for. -/
inductive Items (limit : Nat) : Region → Nat → Text → Text → List Node → Prop
  | nil {region : Region} {depth : Nat} {next : Text} : Items limit region depth [] next []
  | plain {region : Region} {depth : Nat} {item text next : Text} {node : Node} {nodes : List Node}
      (head : Plain region depth item (text ++ next) node)
      (tail : Items limit region depth text next nodes) :
      Items limit region depth (item ++ text) next (node :: nodes)
  | braced {region : Region} {depth : Nat} {item text next : Text} {node : Node}
      {nodes : List Node} (hdepth : depth ≤ limit)
      (head : Braced limit depth item node)
      (tail : Items limit region depth text next nodes) :
      Items limit region depth (item ++ text) next (node :: nodes)

/-- A braced expansion and its node. -/
inductive Braced (limit : Nat) : Nat → Text → Node → Prop
  /-- `${#name}` -/
  | length {depth : Nat} {name : Text} (hname : IsName name) :
      Braced limit depth ('$' :: '{' :: '#' :: name ++ ['}'])
        (.expansion name (some .length) [] depth ('$' :: '{' :: '#' :: name ++ ['}']))
  /-- `${name}` -/
  | name {depth : Nat} {name : Text} (hname : IsName name) :
      Braced limit depth ('$' :: '{' :: name ++ ['}'])
        (.expansion name none [] depth ('$' :: '{' :: name ++ ['}']))
  /-- `${name,}` and the like. -/
  | casing {depth : Nat} {name : Text} {op : Operator} (hname : IsName name)
      (hop : op ∈ caseOperators) :
      Braced limit depth ('$' :: '{' :: name ++ op.spelling ++ ['}'])
        (.expansion name (some op) [] depth ('$' :: '{' :: name ++ op.spelling ++ ['}']))
  /-- `${name-word}` and the like. -/
  | word {depth : Nat} {name word : Text} {op : Operator} {nodes : List Node} (hname : IsName name)
      (hop : IsLongest wordOperators op (word ++ ['}']))
      (hword : Items limit .word (depth + 1) word ['}'] nodes) :
      Braced limit depth ('$' :: '{' :: name ++ op.spelling ++ word ++ ['}'])
        (.expansion name (some op) [.ofPieces nodes] depth
          ('$' :: '{' :: name ++ op.spelling ++ word ++ ['}']))
  /-- `${name:offset}` -/
  | offset {depth : Nat} {name offset : Text} {nodes : List Node} (hname : IsName name)
      (hfirst : ∀ c ∈ offset.head?, c ∉ ['=', '-', '?', '+']) (hne : offset ≠ [])
      (hoffset : Items limit .field (depth + 1) offset ['}'] nodes) :
      Braced limit depth ('$' :: '{' :: name ++ ':' :: offset ++ ['}'])
        (.expansion name (some .slice) [.ofPieces nodes] depth
          ('$' :: '{' :: name ++ ':' :: offset ++ ['}']))
  /-- `${name:offset:length}` -/
  | slice {depth : Nat} {name offset length : Text} {nodes nodes' : List Node}
      (hname : IsName name)
      (hfirst : ∀ c ∈ offset.head?, c ∉ ['=', '-', '?', '+']) (hne : offset ≠ [])
      (hoffset : Items limit .field (depth + 1) offset [':'] nodes)
      (hlength : Items limit .field (depth + 1) length ['}'] nodes') :
      Braced limit depth ('$' :: '{' :: name ++ ':' :: offset ++ ':' :: length ++ ['}'])
        (.expansion name (some .slice) [.ofPieces nodes, .ofPieces nodes'] depth
          ('$' :: '{' :: name ++ ':' :: offset ++ ':' :: length ++ ['}']))
  /-- `${name/pattern}` and the like. -/
  | pattern {depth : Nat} {name pattern : Text} {op : Operator} {nodes : List Node}
      (hname : IsName name) (hop : IsLongest replaceOperators op (pattern ++ ['}']))
      (hpattern : Items limit .pattern (depth + 1) pattern ['}'] nodes) :
      Braced limit depth ('$' :: '{' :: name ++ op.spelling ++ pattern ++ ['}'])
        (.expansion name (some op) [.ofPieces nodes, .text []] depth
          ('$' :: '{' :: name ++ op.spelling ++ pattern ++ ['}']))
  /-- `${name/pattern/word}` and the like. -/
  | replacement {depth : Nat} {name pattern word : Text} {op : Operator} {nodes nodes' : List Node}
      (hname : IsName name)
      (hop : IsLongest replaceOperators op (pattern ++ '/' :: word ++ ['}']))
      (hpattern : Items limit .pattern (depth + 1) pattern ['/'] nodes)
      (hword : Items limit .word (depth + 1) word ['}'] nodes') :
      Braced limit depth ('$' :: '{' :: name ++ op.spelling ++ pattern ++ '/' :: word ++ ['}'])
        (.expansion name (some op) [.ofPieces nodes, .ofPieces nodes'] depth
          ('$' :: '{' :: name ++ op.spelling ++ pattern ++ '/' :: word ++ ['}']))

end

/-- A template is a sequence of items outside every expansion, up to the end of the text. -/
def IsTemplate (limit : Nat) (input : Text) : Prop :=
  ∃ nodes, Items limit .outside 0 input [] nodes

end ShellExpansion.Grammar
