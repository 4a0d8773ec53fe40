import ShellExpansion.Proofs.Template.WellFormed
import ShellExpansion.Proofs.Template.Subtrees

/-!
# How deep expansions are nested

The limit is looked at where a brace opens, and nowhere else.  So no more expansions than the limit
allows stand around a braced one, and at most one more stands around a reference `$name`: the
innermost braced expansion may be as deep as the limit, with a reference in its words.

* `Items.keepsLimit`, `Braced.keepsLimit` : the nestings that a derivation gives to its expansions.
* `parse_keepsLimit` : **the limit bounds the nesting of every braced expansion, and by one more that
  of references.**
* `exists_reference_beyond` : for every limit there is a template whose tree goes beyond it.
-/

namespace ShellExpansion

namespace Node

/-- A reference `$name`, as opposed to a braced expansion. -/
def IsReference (name : Text) (op : Option Operator) (words : List Node) (source : Text) : Prop :=
  op = none ∧ words = [] ∧ source = '$' :: name

/-- The nestings of these expansions keep to the limit, those of references to one more. -/
def KeepsLimit (limit : Nat) (expansions : List Node) : Prop :=
  ∀ name op words nesting source, expansion name op words nesting source ∈ expansions →
    nesting ≤ limit ∨ nesting = limit + 1 ∧ IsReference name op words source

section

variable {limit nesting : Nat} {nodes nodes' words : List Node} {name source : Text}
  {op : Option Operator}

theorem KeepsLimit.nil : KeepsLimit limit [] := by
  intro name op words nesting source hmem
  cases hmem

theorem KeepsLimit.append (h : KeepsLimit limit nodes) (h' : KeepsLimit limit nodes') :
    KeepsLimit limit (nodes ++ nodes') := by
  intro name op words nesting source hmem
  rcases List.mem_append.1 hmem with hmem | hmem
  · exact h name op words nesting source hmem
  · exact h' name op words nesting source hmem

/-- A braced expansion within the limit, with words that keep to it. -/
theorem KeepsLimit.braced (hnesting : nesting ≤ limit)
    (hwords : KeepsLimit limit (words.flatMap expansions)) :
    KeepsLimit limit (expansion name op words nesting source).expansions := by
  rw [expansions, expansionsAll_eq_flatMap]
  intro name' op' words' nesting' source' hmem
  rcases List.mem_cons.1 hmem with heq | hmem
  · cases heq
    exact .inl hnesting
  · exact hwords name' op' words' nesting' source' hmem

theorem KeepsLimit.reference (hnesting : nesting ≤ limit + 1) :
    KeepsLimit limit (expansion name none [] nesting ('$' :: name)).expansions := by
  intro name' op' words' nesting' source' hmem
  cases List.mem_singleton.1 hmem
  by_cases h : nesting ≤ limit
  · exact .inl h
  · exact .inr ⟨by omega, rfl, rfl, rfl⟩

/-- One word more, made of pieces that keep to the limit. -/
theorem KeepsLimit.word (h : KeepsLimit limit (nodes.flatMap expansions))
    (hwords : KeepsLimit limit (words.flatMap expansions)) :
    KeepsLimit limit ((ofPieces nodes :: words).flatMap expansions) := by
  rw [List.flatMap_cons, expansions_ofPieces]
  exact h.append hwords

/-- An expansion that stands in a tree is among its expansions. -/
theorem Occurs.mem_expansions {root node : Node} {depth : Nat} (h : root.Occurs depth node)
    (hnode : node = expansion name op words nesting source) : node ∈ root.expansions := by
  induction h with
  | here =>
    subst hnode
    exact List.mem_cons_self
  | item hchild _ ih =>
    rw [expansions, expansionsAll_eq_flatMap]
    exact List.mem_flatMap.2 ⟨_, hchild, ih hnode⟩
  | word hchild _ ih =>
    rw [expansions, expansionsAll_eq_flatMap]
    exact List.mem_cons_of_mem _ (List.mem_flatMap.2 ⟨_, hchild, ih hnode⟩)

end

end Node

namespace Grammar

open Node

variable {limit : Nat}

/-! ## Derivations keep to the limit -/

theorem Plain.keepsLimit {region : Region} {depth : Nat} {item next : Text} {node : Node}
    (h : Plain region depth item next node) (hdepth : depth ≤ limit + 1) :
    KeepsLimit limit node.expansions := by
  cases h with
  | reference hname hnext => exact .reference hdepth
  | dollars h => exact .nil
  | dollar h => exact .nil
  | escaped hregion hc => exact .nil
  | char hends hdollar hescape => exact .nil

mutual

/-- Items that stand in a braced expansion within the limit are at most one deeper than the limit;
the braced ones among them are within it again. -/
theorem Items.keepsLimit {region : Region} {depth : Nat} {text next : Text} {nodes : List Node} :
    Items limit region depth text next nodes → depth ≤ limit + 1 →
      KeepsLimit limit (nodes.flatMap expansions)
  | .nil, _ => .nil
  | .plain head tail, hdepth => (head.keepsLimit hdepth).append (tail.keepsLimit hdepth)
  | .braced hlimit head tail, hdepth => (head.keepsLimit hlimit).append (tail.keepsLimit hdepth)

/-- A braced expansion within the limit, with all that stands in it. -/
theorem Braced.keepsLimit {depth : Nat} {text : Text} {node : Node} :
    Braced limit depth text node → depth ≤ limit → KeepsLimit limit node.expansions
  | .length _, hdepth => .braced hdepth .nil
  | .name _, hdepth => .braced hdepth .nil
  | .casing _ _, hdepth => .braced hdepth .nil
  | .word _ _ hword, hdepth =>
    .braced hdepth ((hword.keepsLimit (Nat.succ_le_succ hdepth)).word .nil)
  | .offset _ _ _ hoffset, hdepth =>
    .braced hdepth ((hoffset.keepsLimit (Nat.succ_le_succ hdepth)).word .nil)
  | .slice _ _ _ hoffset hlength, hdepth =>
    .braced hdepth ((hoffset.keepsLimit (Nat.succ_le_succ hdepth)).word
      ((hlength.keepsLimit (Nat.succ_le_succ hdepth)).word .nil))
  | .pattern _ _ hpattern, hdepth =>
    .braced hdepth ((hpattern.keepsLimit (Nat.succ_le_succ hdepth)).word .nil)
  | .replacement _ _ hpattern hword, hdepth =>
    .braced hdepth ((hpattern.keepsLimit (Nat.succ_le_succ hdepth)).word
      ((hword.keepsLimit (Nat.succ_le_succ hdepth)).word .nil))

end

/-! ## A reference beyond the limit -/

/-- A reference inside `k` expansions. -/
def nested : Nat → Text
  | 0 => ['$', 'b']
  | k + 1 => '$' :: '{' :: ['a'] ++ ['-'] ++ nested k ++ ['}']

/-- What is read of it inside `depth` more. -/
def nestedNode : Nat → Nat → Node
  | 0, depth => .expansion ['b'] none [] depth (nested 0)
  | k + 1, depth =>
    .expansion ['a'] (some (.default .unset)) [nestedNode k (depth + 1)] depth (nested (k + 1))

theorem ofPieces_nestedNode (k depth : Nat) :
    Node.ofPieces [nestedNode k depth] = nestedNode k depth := by
  cases k <;> rfl

/-- The braced expansions are within the limit although the reference need not be. -/
theorem items_nested {region : Region} {next : Text} (hnext : ¬ NameFollows next) :
    ∀ {k depth : Nat}, depth + k ≤ limit + 1 →
      Items limit region depth (nested k) next [nestedNode k depth] := by
  intro k
  induction k generalizing region next with
  | zero =>
    intro depth _
    have hname : IsName ['b'] :=
      ⟨List.cons_ne_nil _ _, List.forall_mem_singleton.2 (by cbv)⟩
    have hitems : Items limit region depth ('$' :: ['b'] ++ []) next _ :=
      .plain (.reference hname hnext) .nil
    exact hitems
  | succ k ih =>
    intro depth hdepth
    have hname : IsName ['a'] :=
      ⟨List.cons_ne_nil _ _, List.forall_mem_singleton.2 (by cbv)⟩
    have hop : IsLongest wordOperators (.default .unset) (nested k ++ ['}']) :=
      isLongest_word_iff.2 ⟨by decide, fun _ h => by cases h⟩
    have hword : Items limit .word (depth + 1) (nested k) ['}'] [nestedNode k (depth + 1)] :=
      ih (Parser.not_nameFollows_cons (by decide)) (by omega)
    have hbraced := Braced.word hname hop hword
    rw [ofPieces_nestedNode] at hbraced
    have hitems : Items limit region depth (nested (k + 1) ++ []) next _ :=
      .braced (by omega) hbraced .nil
    rwa [List.append_nil] at hitems

theorem occurs_nestedNode (k depth : Nat) :
    (nestedNode k depth).Occurs k (.expansion ['b'] none [] (depth + k) ['$', 'b']) := by
  induction k generalizing depth with
  | zero => exact .here
  | succ k ih =>
    have hword := ih (depth + 1)
    rw [Nat.add_right_comm, Nat.add_assoc] at hword
    exact .word List.mem_cons_self hword

end Grammar

namespace Template

open Grammar

/-- For every limit there is a template with a reference that has more expansions around it than the
limit allows. -/
theorem exists_reference_beyond (limit : Nat) :
    ∃ input root, parse limit input = .ok root ∧
      root.Occurs (limit + 1) (.expansion ['b'] none [] (limit + 1) ['$', 'b']) := by
  have hitems : Items limit .outside 0 (nested (limit + 1)) [] [nestedNode (limit + 1) 0] :=
    items_nested (by simp [NameFollows]) (by omega)
  refine ⟨nested (limit + 1), nestedNode (limit + 1) 0, ?_, ?_⟩
  · exact parse_eq_ok_iff.2 ⟨_, hitems, (ofPieces_nestedNode _ _).symm⟩
  · have hoccurs := occurs_nestedNode (limit + 1) 0
    rwa [Nat.zero_add] at hoccurs

/-- **The limit bounds the nesting of every braced expansion.**  Wherever an expansion stands in the
tree of a text, its nesting is the number of expansions around it.  This number is within the limit,
except for references, around which one more may stand. -/
theorem parse_keepsLimit {limit : Nat} {input : Text} {root : Node}
    (h : parse limit input = .ok root) {depth : Nat} {name : Text} {op : Option Operator}
    {words : List Node} {nesting : Nat} {source : Text}
    (hf : root.Occurs depth (.expansion name op words nesting source)) :
    nesting = depth ∧
      (depth ≤ limit ∨ depth = limit + 1 ∧ op = none ∧ words = [] ∧ source = '$' :: name) := by
  obtain ⟨nodes, hitems, rfl⟩ := parse_eq_ok_iff.1 h
  have hnesting : nesting = 0 + depth := (Node.sound_ofPieces hitems.sound depth _ hf).nesting_eq
  rw [Nat.zero_add] at hnesting
  subst hnesting
  have hmem := hf.mem_expansions rfl
  rw [Node.expansions_ofPieces] at hmem
  exact ⟨rfl, hitems.keepsLimit (Nat.zero_le _) name op words nesting source hmem⟩

theorem parse_keepsLimit_reference :
    ∃ root, parse 1 ['$', '{', 'a', '-', '$', '{', 'b', '-', '$', 'c', '}', '}'] = .ok root ∧
      root.Occurs 2 (.expansion ['c'] none [] 2 ['$', 'c']) ∧
      (2 ≤ 1 ∨ 2 = 1 + 1 ∧ (none : Option Operator) = none ∧ ([] : List Node) = [] ∧
        ['$', 'c'] = '$' :: ['c']) := by
  obtain ⟨root, hparse, hoccurs⟩ :
      ∃ root, parse 1 ['$', '{', 'a', '-', '$', '{', 'b', '-', '$', 'c', '}', '}'] = .ok root ∧
        root.Occurs 2 (.expansion ['c'] none [] 2 ['$', 'c']) := by
    refine ⟨.expansion ['a'] (some (.default .unset))
      [.expansion ['b'] (some (.default .unset)) [.expansion ['c'] none [] 2 ['$', 'c']] 1
        ['$', '{', 'b', '-', '$', 'c', '}']] 0
      ['$', '{', 'a', '-', '$', '{', 'b', '-', '$', 'c', '}', '}'], ?_, ?_⟩
    · cbv
    · exact .word List.mem_cons_self (.word List.mem_cons_self .here)
  exact ⟨root, hparse, hoccurs, (parse_keepsLimit hparse hoccurs).2⟩

/-- A reference is not refused where a braced expansion would be. -/
theorem parse_reference_beyond :
    ∃ root, parse 0 ['$', '{', 'a', '-', '$', 'b', '}'] = .ok root ∧
      root.Occurs 1 (.expansion ['b'] none [] 1 ['$', 'b']) ∧ ¬ 1 ≤ 0 := by
  refine ⟨.expansion ['a'] (some (.default .unset)) [.expansion ['b'] none [] 1 ['$', 'b']] 0
    ['$', '{', 'a', '-', '$', 'b', '}'], ?_, .word List.mem_cons_self .here, by decide⟩
  cbv

end Template

end ShellExpansion
