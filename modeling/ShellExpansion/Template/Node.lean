import ShellExpansion.Template.Operator

/-!
# Templates as trees

A template is text, an expansion, or a sequence of both. An expansion keeps the text it was read
from, so that a tree can be written out again without knowing how it was spelled.
-/

namespace ShellExpansion

/-- A template, or a word of an expansion. -/
inductive Node where
  /-- Text that stands for itself. -/
  | text (value : Text)
  /-- The value of a variable, possibly changed by an operator with its words. `nesting` counts the
  expansions around it, and `source` is the text it was read from. -/
  | expansion (parameter : Text) (operator : Option Operator) (words : List Node)
      (nesting : Nat) (source : Text)
  /-- Several nodes one after the other. -/
  | sequence (nodes : List Node)
  deriving Repr

namespace Node

/-- Whether a node is text without characters. -/
def isEmptyText : Node → Bool
  | text [] => true
  | _ => false

mutual

/-- The text a node was read from; a doubled dollar outside an expansion counts as one. -/
def render : Node → Text
  | text value => value
  | expansion _ _ _ _ source => source
  | sequence nodes => renderAll nodes

/-- The text of several nodes. -/
def renderAll : List Node → Text
  | [] => []
  | node :: nodes => node.render ++ renderAll nodes

end

/-! ## Putting pieces together -/

/-- Puts a piece before pieces in which no two texts stand side by side. -/
def joinPiece : Node → List Node → List Node
  | text [], nodes => nodes
  | text a, text b :: nodes => text (a ++ b) :: nodes
  | node, nodes => node :: nodes

/-- Merges neighbouring texts and drops empty ones. -/
def mergeText (pieces : List Node) : List Node := pieces.foldr joinPiece []

/-- The node that a run of pieces makes: no node is a sequence of fewer than two, and no two texts
are neighbours. -/
def ofPieces (pieces : List Node) : Node :=
  match mergeText pieces with
  | [] => text []
  | [node] => node
  | nodes => sequence nodes

end Node

end ShellExpansion
