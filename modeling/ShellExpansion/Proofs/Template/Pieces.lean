import ShellExpansion.Template.Node

/-!
# Runs of pieces

Laws of `Node.joinPiece`, `Node.mergeText` and `Node.ofPieces`: joining is associative on text
(`joinPiece_text_append`), and merging is done once and for all (`mergeText_mergeText`), also for a
part of the pieces (`foldr_joinPiece_mergeText`).  So a run of pieces makes the same node however
the reader cuts its text.
-/

namespace ShellExpansion.Node

@[simp] theorem joinPiece_text_nil (nodes : List Node) : joinPiece (text []) nodes = nodes := rfl

@[simp] theorem mergeText_cons (piece : Node) (pieces : List Node) :
    mergeText (piece :: pieces) = joinPiece piece (mergeText pieces) := rfl

theorem joinPiece_text_cons (c : Char) (a : Text) (nodes : List Node) :
    joinPiece (text (c :: a)) nodes =
      match nodes with
      | text b :: rest => text (c :: a ++ b) :: rest
      | _ => text (c :: a) :: nodes := by
  rcases nodes with _ | ⟨_ | _ | _, rest⟩ <;> rfl

/-- Two texts side by side count as one. -/
theorem joinPiece_text_append (a b : Text) (nodes : List Node) :
    joinPiece (text a) (joinPiece (text b) nodes) = joinPiece (text (a ++ b)) nodes := by
  cases a with
  | nil => rfl
  | cons c a =>
    cases b with
    | nil => rw [joinPiece_text_nil, List.append_nil]
    | cons d b =>
      rw [List.cons_append, joinPiece_text_cons d b, joinPiece_text_cons c (a ++ d :: b)]
      rcases nodes with _ | ⟨_ | _ | _, rest⟩ <;> simp [joinPiece_text_cons]

/-- A piece may be put before pieces once these have been joined to what follows, or before. -/
theorem foldr_joinPiece (piece : Node) (nodes rest : List Node) :
    (joinPiece piece nodes).foldr joinPiece rest
      = joinPiece piece (nodes.foldr joinPiece rest) := by
  cases piece with
  | text a =>
    cases a with
    | nil => rfl
    | cons c a =>
      rw [joinPiece_text_cons]
      rcases nodes with _ | ⟨b | _ | _, nodes⟩
      · rfl
      · rw [List.foldr_cons, List.foldr_cons, joinPiece_text_append]
      · rfl
      · rfl
  | expansion name op words nesting source => rfl
  | sequence nodes' => rfl

/-- Pieces may be merged before they are joined to what follows. -/
theorem foldr_joinPiece_mergeText (pieces rest : List Node) :
    (mergeText pieces).foldr joinPiece rest = pieces.foldr joinPiece rest := by
  induction pieces with
  | nil => rfl
  | cons piece pieces ih => rw [mergeText_cons, foldr_joinPiece, ih, List.foldr_cons]

theorem mergeText_append (pieces pieces' : List Node) :
    mergeText (pieces ++ pieces') = pieces.foldr joinPiece (mergeText pieces') :=
  List.foldr_append

theorem mergeText_mergeText (pieces : List Node) :
    mergeText (mergeText pieces) = mergeText pieces :=
  foldr_joinPiece_mergeText pieces []

/-- The node of a run of pieces is known once the pieces are merged. -/
theorem ofPieces_mergeText (pieces : List Node) :
    ofPieces (mergeText pieces) = ofPieces pieces := by
  simp only [ofPieces, mergeText_mergeText]

theorem mergeText_map_text (a : Text) :
    mergeText (a.map fun c => text [c]) = joinPiece (text a) [] := by
  induction a with
  | nil => rfl
  | cons c a ih =>
    rw [List.map_cons, mergeText_cons, ih, joinPiece_text_append, List.singleton_append]

/-- A text that is read character by character is one node. -/
theorem ofPieces_map_text (a : Text) : ofPieces (a.map fun c => text [c]) = text a := by
  rw [ofPieces, mergeText_map_text]
  cases a <;> rfl

/-- Pieces that start with one that is not empty make a node that is not. -/
theorem isEmptyText_ofPieces_cons {piece : Node} (h : piece.isEmptyText = false)
    (pieces : List Node) : (ofPieces (piece :: pieces)).isEmptyText = false := by
  have hhead : ∃ node nodes,
      mergeText (piece :: pieces) = node :: nodes ∧ node.isEmptyText = false := by
    rw [mergeText_cons]
    cases piece with
    | text a =>
      cases a with
      | nil => cases h
      | cons c a =>
        rw [joinPiece_text_cons]
        rcases mergeText pieces with _ | ⟨_ | _ | _, rest⟩ <;> exact ⟨_, _, rfl, rfl⟩
    | expansion name op words nesting source => exact ⟨_, _, rfl, rfl⟩
    | sequence nodes => exact ⟨_, _, rfl, rfl⟩
  obtain ⟨node, nodes, hmerge, hnode⟩ := hhead
  rw [ofPieces, hmerge]
  cases nodes with
  | nil => exact hnode
  | cons _ _ => rfl

end ShellExpansion.Node
