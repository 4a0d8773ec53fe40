import ShellExpansion.Proofs.Template.Recognition
import Mathlib

/-!
# The shape of the trees that are read

What a tree looks like at every node of it (`IsWellFormedAt`), said node by node: which nodes stand
side by side in a sequence, how many words an operator has, and what an expansion keeps of its
source.  `Occurs root depth node` counts the expansions around a node, so that the `nesting` which
an expansion carries can be compared with the place where it stands.

* `forall_mem_mergeText`, `isChain_mergeText` : what merging makes of a run of pieces.
* `Sound` : trees that are well-formed at all of their nodes, closed under what the grammar builds.
* `parse_wellFormed` : **every node of a tree that is read is well-formed.**
-/

namespace ShellExpansion

namespace Node

/-! ## Places in a tree -/

/-- A node stands in a tree, with this many expansions of the tree around it. -/
inductive Occurs : Node → Nat → Node → Prop
  /-- The tree itself. -/
  | here {root : Node} : Occurs root 0 root
  /-- A node of a sequence. -/
  | item {nodes : List Node} {child node : Node} {depth : Nat} (hchild : child ∈ nodes)
      (hnode : Occurs child depth node) : Occurs (sequence nodes) depth node
  /-- A node of a word, which has one more expansion around it. -/
  | word {name : Text} {op : Option Operator} {words : List Node} {nesting : Nat} {source : Text}
      {child node : Node} {depth : Nat} (hchild : child ∈ words)
      (hnode : Occurs child depth node) :
      Occurs (expansion name op words nesting source) (depth + 1) node

/-- Text, as opposed to expansions and sequences. -/
def IsText : Node → Prop
  | text _ => True
  | _ => False

/-- Nodes that may stand one after the other in a sequence. -/
structure AreSiblings (nodes : List Node) : Prop where
  /-- There are several. -/
  several : 2 ≤ nodes.length
  /-- None is a sequence. -/
  flat : ∀ node ∈ nodes, ∀ inner, node ≠ sequence inner
  /-- None is empty. -/
  nonempty : ∀ node ∈ nodes, node ≠ text []
  /-- No two texts are neighbours. -/
  apart : nodes.IsChain fun a b => ¬ (a.IsText ∧ b.IsText)

/-- The number of words fits the operator. -/
def HasArity (count : Nat) : Option Operator → Prop
  | none => count = 0
  | some op => op.arity.1 ≤ count ∧ count ≤ op.arity.2

/-- What a variable and an operator say about the text of an expansion. -/
def HasSource (name source : Text) : Option Operator → Prop
  | none => source = '$' :: name ∨ source = '$' :: '{' :: name ++ ['}']
  | some .length => source = '$' :: '{' :: '#' :: name ++ ['}']
  | some op => ∃ body, source = '$' :: '{' :: name ++ op.spelling ++ body ++ ['}']

/-- What is true of an expansion with `depth` expansions around it. -/
structure IsExpansionAt (depth : Nat) (name : Text) (op : Option Operator) (words : List Node)
    (nesting : Nat) (source : Text) : Prop where
  /-- It has a name. -/
  isName : Grammar.IsName name
  /-- It has as many words as its operator takes. -/
  hasArity : HasArity words.length op
  /-- Its nesting is the number of expansions around it. -/
  nesting_eq : nesting = depth
  /-- Its source tells its name and its operator. -/
  hasSource : HasSource name source op

/-- What is true of a node with `depth` expansions around it. -/
def IsWellFormedAt (depth : Nat) : Node → Prop
  | text _ => True
  | sequence nodes => AreSiblings nodes
  | expansion name op words nesting source => IsExpansionAt depth name op words nesting source

/-! ## Merged pieces -/

section

variable {P : Node → Prop} {piece : Node} {nodes pieces : List Node}

/-- A piece is dropped if it is empty, put into a text that it would stand beside, or put in
front. -/
theorem joinPiece_cases (piece : Node) (nodes : List Node) :
    (piece = text [] ∧ joinPiece piece nodes = nodes) ∨
      (∃ a b rest, a ≠ [] ∧ piece = text a ∧ nodes = text b :: rest ∧
        joinPiece piece nodes = text (a ++ b) :: rest) ∨
      (piece ≠ text [] ∧ (∀ node ∈ nodes.head?, ¬ (piece.IsText ∧ node.IsText)) ∧
        joinPiece piece nodes = piece :: nodes) := by
  rcases piece with (_ | ⟨c, a⟩) | _ | _
  · exact .inl ⟨rfl, rfl⟩
  · rw [joinPiece_text_cons]
    rcases nodes with _ | ⟨b | _ | _, rest⟩
    · exact .inr (.inr ⟨nofun, nofun, rfl⟩)
    · exact .inr (.inl ⟨c :: a, b, rest, nofun, rfl, rfl, rfl⟩)
    · refine .inr (.inr ⟨nofun, ?_, rfl⟩)
      rintro _ ⟨rfl⟩ ⟨-, ⟨⟩⟩
    · refine .inr (.inr ⟨nofun, ?_, rfl⟩)
      rintro _ ⟨rfl⟩ ⟨-, ⟨⟩⟩
  · exact .inr (.inr ⟨nofun, fun _ _ => And.left, rfl⟩)
  · exact .inr (.inr ⟨nofun, fun _ _ => And.left, rfl⟩)

/-- What is true of every text that is not empty and of all other pieces is true of what merging
makes of them. -/
theorem forall_mem_joinPiece (htext : ∀ value, value ≠ [] → P (text value))
    (hpiece : ¬ piece.IsText → P piece) (hnodes : ∀ node ∈ nodes, P node) :
    ∀ node ∈ joinPiece piece nodes, P node := by
  obtain ⟨-, hjoin⟩ | ⟨a, b, rest, ha, -, rfl, hjoin⟩ | ⟨hne, -, hjoin⟩ :=
    joinPiece_cases piece nodes
  · rwa [hjoin]
  · rw [hjoin]
    exact List.forall_mem_cons.2
      ⟨htext _ (List.append_ne_nil_of_left_ne_nil ha b), (List.forall_mem_cons.1 hnodes).2⟩
  · rw [hjoin]
    refine List.forall_mem_cons.2 ⟨?_, hnodes⟩
    cases piece with
    | text value => exact htext value (mt (congrArg text) hne)
    | _ => exact hpiece id

theorem forall_mem_mergeText (htext : ∀ value, value ≠ [] → P (text value))
    (hpieces : ∀ piece ∈ pieces, ¬ piece.IsText → P piece) :
    ∀ node ∈ mergeText pieces, P node := by
  induction pieces with
  | nil => exact nofun
  | cons piece pieces ih =>
    obtain ⟨hpiece, htail⟩ := List.forall_mem_cons.1 hpieces
    rw [mergeText_cons]
    exact forall_mem_joinPiece htext hpiece (ih htail)

/-- Joining keeps texts apart: a text is put into the one that it would stand beside. -/
theorem isChain_joinPiece (h : nodes.IsChain fun a b => ¬ (a.IsText ∧ b.IsText)) :
    (joinPiece piece nodes).IsChain fun a b => ¬ (a.IsText ∧ b.IsText) := by
  obtain ⟨-, hjoin⟩ | ⟨a, b, rest, -, -, rfl, hjoin⟩ | ⟨-, hapart, hjoin⟩ :=
    joinPiece_cases piece nodes
  · rwa [hjoin]
  · rw [hjoin]
    rw [List.isChain_cons] at h ⊢
    exact h
  · rw [hjoin]
    exact List.isChain_cons.2 ⟨hapart, h⟩

theorem isChain_mergeText (pieces : List Node) :
    (mergeText pieces).IsChain fun a b => ¬ (a.IsText ∧ b.IsText) := by
  induction pieces with
  | nil => exact List.isChain_nil
  | cons piece pieces ih =>
    rw [mergeText_cons]
    exact isChain_joinPiece ih

end

/-! ## Trees that are well-formed throughout -/

/-- Every node of a tree with `depth` expansions around it is well-formed. -/
def Sound (depth : Nat) (root : Node) : Prop :=
  ∀ further node, root.Occurs further node → node.IsWellFormedAt (depth + further)

theorem sound_text (depth : Nat) (value : Text) : Sound depth (text value) := by
  rintro further node ⟨⟩
  trivial

theorem Sound.sequence {depth : Nat} {nodes : List Node} (hsiblings : AreSiblings nodes)
    (hnodes : ∀ node ∈ nodes, Sound depth node) : Sound depth (sequence nodes) := by
  rintro further node (_ | ⟨hchild, hnode⟩)
  · exact hsiblings
  · exact hnodes _ hchild further node hnode

theorem Sound.expansion {depth : Nat} {name source : Text} {op : Option Operator}
    {words : List Node} (hname : Grammar.IsName name) (harity : HasArity words.length op)
    (hsource : HasSource name source op) (hwords : ∀ word ∈ words, Sound (depth + 1) word) :
    Sound depth (expansion name op words depth source) := by
  rintro further node (_ | _ | ⟨hchild, hnode⟩)
  · exact ⟨hname, harity, rfl, hsource⟩
  · have hsound := hwords _ hchild _ node hnode
    rwa [Nat.add_right_comm, Nat.add_assoc] at hsound

/-- A run of sound pieces makes a sound node, which is a sequence only if it has to be one. -/
theorem sound_ofPieces {depth : Nat} {pieces : List Node}
    (h : ∀ piece ∈ pieces, Sound depth piece ∧ ∀ inner, piece ≠ .sequence inner) :
    Sound depth (ofPieces pieces) := by
  have hsound : ∀ node ∈ mergeText pieces, Sound depth node :=
    forall_mem_mergeText (fun value _ => sound_text depth value) fun piece hpiece _ =>
      (h piece hpiece).1
  have hflat : ∀ node ∈ mergeText pieces, ∀ inner, node ≠ .sequence inner :=
    forall_mem_mergeText (fun _ _ => nofun) fun piece hpiece _ => (h piece hpiece).2
  have hnonempty : ∀ node ∈ mergeText pieces, node ≠ text [] := by
    refine forall_mem_mergeText (fun value hvalue heq => hvalue (Node.text.inj heq)) ?_
    rintro piece - hnot rfl
    exact hnot trivial
  have hapart := isChain_mergeText pieces
  rw [ofPieces]
  generalize mergeText pieces = nodes at hsound hflat hnonempty hapart ⊢
  rcases nodes with _ | ⟨first, _ | ⟨second, rest⟩⟩
  · exact sound_text depth []
  · exact hsound first List.mem_cons_self
  · exact .sequence ⟨Nat.le_add_left 2 rest.length, hflat, hnonempty, hapart⟩ hsound

end Node

namespace Grammar

open Node

/-! ## Derivations -/

theorem hasSource_of_ne_length {name source : Text} {op : Operator} (hop : op ≠ .length)
    (body : Text) (hsource : source = '$' :: '{' :: name ++ op.spelling ++ body ++ ['}']) :
    HasSource name source (some op) := by
  cases op with
  | length => exact absurd rfl hop
  | _ => exact ⟨body, hsource⟩

/-- The layout of the words says how many there may be. -/
theorem hasArity_iff {count : Nat} {op : Operator} :
    HasArity count (some op) ↔
      match op.layout with
      | .bare => count = 0
      | .word => count = 1
      | .fields => count = 1 ∨ count = 2
      | .replacement => count = 2 := by
  rw [HasArity, Operator.arity]
  cases op.layout <;> simp only <;> omega

theorem ne_length_of_layout {op : Operator} (h : op.layout ≠ .bare) : op ≠ .length := by
  rintro rfl
  exact h rfl

theorem Plain.sound {region : Region} {depth : Nat} {item next : Text} {node : Node}
    (h : Plain region depth item next node) :
    Sound depth node ∧ ∀ inner, node ≠ .sequence inner := by
  cases h with
  | reference hname hnext => exact ⟨.expansion hname rfl (.inl rfl) nofun, nofun⟩
  | dollars h => exact ⟨sound_text depth _, nofun⟩
  | dollar h => exact ⟨sound_text depth _, nofun⟩
  | escaped hregion hc => exact ⟨sound_text depth _, nofun⟩
  | char hends hdollar hescape => exact ⟨sound_text depth _, nofun⟩

mutual

/-- The nodes of derived items are sound. -/
theorem Items.sound {limit depth : Nat} {region : Region} {text next : Text} {nodes : List Node} :
    Items limit region depth text next nodes →
      ∀ node ∈ nodes, Sound depth node ∧ ∀ inner, node ≠ .sequence inner
  | .nil => nofun
  | .plain head tail => List.forall_mem_cons.2 ⟨head.sound, tail.sound⟩
  | .braced _ head tail => List.forall_mem_cons.2 ⟨head.sound, tail.sound⟩

/-- The node of a derived expansion is sound. -/
theorem Braced.sound {limit depth : Nat} {text : Text} {node : Node} :
    Braced limit depth text node → Sound depth node ∧ ∀ inner, node ≠ .sequence inner
  | .length hname => ⟨.expansion hname (hasArity_iff.2 rfl) rfl nofun, nofun⟩
  | .name hname => ⟨.expansion hname rfl (.inr rfl) nofun, nofun⟩
  | @Braced.casing _ _ name op hname hop => by
    have harity : HasArity 0 (some op) := by rw [hasArity_iff, layout_of_mem_caseOperators op hop]
    have hlength : op ≠ .length := by
      rintro rfl
      revert hop
      decide
    refine ⟨.expansion hname harity ?_ nofun, nofun⟩
    exact hasSource_of_ne_length hlength [] (by simp)
  | @Braced.word _ _ name word op nodes hname hop hword => by
    have hlayout := layout_of_mem_wordOperators op hop.1
    have harity : HasArity 1 (some op) := by rw [hasArity_iff, hlayout]
    refine ⟨.expansion hname harity ?_ ?_, nofun⟩
    · exact hasSource_of_ne_length (ne_length_of_layout (hlayout ▸ nofun)) _ rfl
    · exact List.forall_mem_singleton.2 (sound_ofPieces hword.sound)
  | @Braced.offset _ _ name offset nodes hname _ _ hoffset => by
    refine ⟨.expansion hname (hasArity_iff.2 (.inl rfl)) ?_ ?_, nofun⟩
    · exact ⟨offset, by simp [Operator.spelling]⟩
    · exact List.forall_mem_singleton.2 (sound_ofPieces hoffset.sound)
  | @Braced.slice _ _ name offset length nodes nodes' hname _ _ hoffset hlength => by
    refine ⟨.expansion hname (hasArity_iff.2 (.inr rfl)) ?_ ?_, nofun⟩
    · exact ⟨offset ++ ':' :: length, by simp [Operator.spelling]⟩
    · exact List.forall_mem_cons.2
        ⟨sound_ofPieces hoffset.sound, List.forall_mem_singleton.2 (sound_ofPieces hlength.sound)⟩
  | @Braced.pattern _ _ name pattern op nodes hname hop hpattern => by
    have hlayout := layout_of_mem_replaceOperators op hop.1
    have harity : HasArity 2 (some op) := by rw [hasArity_iff, hlayout]
    refine ⟨.expansion hname harity ?_ ?_, nofun⟩
    · exact hasSource_of_ne_length (ne_length_of_layout (hlayout ▸ nofun)) _ rfl
    · exact List.forall_mem_cons.2
        ⟨sound_ofPieces hpattern.sound, List.forall_mem_singleton.2 (sound_text _ _)⟩
  | @Braced.replacement _ _ name pattern word op nodes nodes' hname hop hpattern hword => by
    have hlayout := layout_of_mem_replaceOperators op hop.1
    have harity : HasArity 2 (some op) := by rw [hasArity_iff, hlayout]
    refine ⟨.expansion hname harity ?_ ?_, nofun⟩
    · exact hasSource_of_ne_length (ne_length_of_layout (hlayout ▸ nofun))
        (pattern ++ '/' :: word) (by simp)
    · exact List.forall_mem_cons.2
        ⟨sound_ofPieces hpattern.sound, List.forall_mem_singleton.2 (sound_ofPieces hword.sound)⟩

end

end Grammar

namespace Template

/-- **Every node of a tree that is read is well-formed.**  A sequence has several nodes, none of
them a sequence or empty, and no two texts are neighbours in it.  An expansion has a name, as many words
as its operator asks for, the nesting of the place where it stands, and a source that starts with
its name and its operator. -/
theorem parse_wellFormed {limit : Nat} {input : Text} {root : Node}
    (h : parse limit input = .ok root) {depth : Nat} {node : Node}
    (hnode : root.Occurs depth node) : node.IsWellFormedAt depth := by
  obtain ⟨nodes, hitems, rfl⟩ := parse_eq_ok_iff.1 h
  have hsound := Node.sound_ofPieces hitems.sound depth node hnode
  rwa [Nat.zero_add] at hsound

theorem parse_wellFormed_nested :
    ∃ root, parse 64 ['x', '$', '{', 'a', '-', 'y', '$', 'b', '}'] = .ok root ∧
      root.Occurs 1 (.sequence [.text ['y'], .expansion ['b'] none [] 1 ['$', 'b']]) ∧
      Node.IsWellFormedAt 1 (.sequence [.text ['y'], .expansion ['b'] none [] 1 ['$', 'b']]) := by
  have hparse : parse 64 ['x', '$', '{', 'a', '-', 'y', '$', 'b', '}']
      = .ok (.sequence [.text ['x'],
          .expansion ['a'] (some (.default .unset))
            [.sequence [.text ['y'], .expansion ['b'] none [] 1 ['$', 'b']]] 0
            ['$', '{', 'a', '-', 'y', '$', 'b', '}']]) := by
    cbv
  refine ⟨_, hparse, ?_, parse_wellFormed hparse ?_⟩
  all_goals
    exact .item (List.mem_cons_of_mem _ List.mem_cons_self) (.word List.mem_cons_self .here)

end Template

end ShellExpansion
