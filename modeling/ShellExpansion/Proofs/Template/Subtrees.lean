import ShellExpansion.Proofs.Template.Pieces

/-!
# Expansions inside a tree

* `Node.expansions` : the expansions of a tree at any depth, an expansion before those in its words.
* `Node.sources` : the sources of the outermost ones, in the order of the text.
* `Node.deepen` : the same tree further inside.

Merging pieces changes none of them (`flatMap_ofPieces`, `deepen_ofPieces`), since it touches only
text.
-/

namespace ShellExpansion.Node

mutual

/-- The expansions in a tree. -/
def expansions : Node → List Node
  | text _ => []
  | expansion name op words nesting source =>
    expansion name op words nesting source :: expansionsAll words
  | sequence nodes => expansionsAll nodes

/-- The expansions in several trees. -/
def expansionsAll : List Node → List Node
  | [] => []
  | node :: nodes => node.expansions ++ expansionsAll nodes

end

mutual

/-- The sources of the expansions of a tree that are inside no other one. -/
def sources : Node → List Text
  | text _ => []
  | expansion _ _ _ _ source => [source]
  | sequence nodes => sourcesAll nodes

/-- The sources of the outermost expansions of several trees. -/
def sourcesAll : List Node → List Text
  | [] => []
  | node :: nodes => node.sources ++ sourcesAll nodes

end

mutual

/-- The tree with `k` more expansions around it. -/
def deepen (k : Nat) : Node → Node
  | text value => text value
  | expansion name op words nesting source =>
    expansion name op (deepenAll k words) (nesting + k) source
  | sequence nodes => sequence (deepenAll k nodes)

/-- Several trees with `k` more expansions around them. -/
def deepenAll (k : Nat) : List Node → List Node
  | [] => []
  | node :: nodes => node.deepen k :: deepenAll k nodes

end

/-! ## Lists of trees -/

theorem expansionsAll_eq_flatMap (nodes : List Node) :
    expansionsAll nodes = nodes.flatMap expansions := by
  induction nodes with
  | nil => rfl
  | cons node nodes ih => rw [expansionsAll, ih, List.flatMap_cons]

theorem sourcesAll_eq_flatMap (nodes : List Node) : sourcesAll nodes = nodes.flatMap sources := by
  induction nodes with
  | nil => rfl
  | cons node nodes ih => rw [sourcesAll, ih, List.flatMap_cons]

theorem deepenAll_eq_map (k : Nat) (nodes : List Node) :
    deepenAll k nodes = nodes.map (deepen k) := by
  induction nodes with
  | nil => rfl
  | cons node nodes ih => rw [deepenAll, ih, List.map_cons]

/-! ## Merged pieces -/

section

variable {α : Type} {collect : Node → List α} (htext : ∀ value, collect (text value) = [])

include htext

/-- What is collected from anything but text is not changed by joining text. -/
theorem flatMap_joinPiece (piece : Node) (nodes : List Node) :
    (joinPiece piece nodes).flatMap collect = collect piece ++ nodes.flatMap collect := by
  cases piece with
  | text a =>
    cases a with
    | nil => rw [joinPiece_text_nil, htext, List.nil_append]
    | cons c a =>
      rw [joinPiece_text_cons]
      rcases nodes with _ | ⟨b | _ | _, rest⟩ <;> simp [htext]
  | expansion name op words nesting source => rfl
  | sequence nodes' => rfl

theorem flatMap_mergeText (pieces : List Node) :
    (mergeText pieces).flatMap collect = pieces.flatMap collect := by
  induction pieces with
  | nil => rfl
  | cons piece pieces ih =>
    rw [mergeText_cons, flatMap_joinPiece htext, ih, List.flatMap_cons]

theorem flatMap_ofPieces (hsequence : ∀ nodes, collect (sequence nodes) = nodes.flatMap collect)
    (pieces : List Node) : collect (ofPieces pieces) = pieces.flatMap collect := by
  rw [← flatMap_mergeText htext, ofPieces]
  split
  · rename_i h
    rw [h, htext, List.flatMap_nil]
  · rename_i node h
    rw [h, List.flatMap_singleton]
  · rename_i nodes _ _
    exact hsequence _

end

theorem expansions_ofPieces (pieces : List Node) :
    (ofPieces pieces).expansions = pieces.flatMap expansions :=
  flatMap_ofPieces (fun _ => rfl) expansionsAll_eq_flatMap pieces

theorem sources_ofPieces (pieces : List Node) :
    (ofPieces pieces).sources = pieces.flatMap sources :=
  flatMap_ofPieces (fun _ => rfl) sourcesAll_eq_flatMap pieces

theorem map_deepen_joinPiece (k : Nat) (piece : Node) (nodes : List Node) :
    (joinPiece piece nodes).map (deepen k) = joinPiece (piece.deepen k) (nodes.map (deepen k)) := by
  cases piece with
  | text a =>
    cases a with
    | nil => rfl
    | cons c a =>
      rw [joinPiece_text_cons, deepen, joinPiece_text_cons]
      rcases nodes with _ | ⟨b | _ | _, rest⟩ <;> rfl
  | expansion name op words nesting source => rfl
  | sequence nodes' => rfl

theorem map_deepen_mergeText (k : Nat) (pieces : List Node) :
    (mergeText pieces).map (deepen k) = mergeText (pieces.map (deepen k)) := by
  induction pieces with
  | nil => rfl
  | cons piece pieces ih =>
    rw [mergeText_cons, map_deepen_joinPiece, ih, List.map_cons, mergeText_cons]

theorem deepen_ofPieces (k : Nat) (pieces : List Node) :
    (ofPieces pieces).deepen k = ofPieces (pieces.map (deepen k)) := by
  rw [ofPieces, ofPieces, ← map_deepen_mergeText]
  rcases mergeText pieces with _ | ⟨node, _ | ⟨node', nodes⟩⟩
  · rfl
  · rfl
  · exact congrArg sequence (deepenAll_eq_map k _)

end ShellExpansion.Node
