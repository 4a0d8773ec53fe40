import ShellExpansion.Proofs.Template.Recognition
import ShellExpansion.Proofs.Template.Subtrees
import Mathlib

/-!
# The sources that a tree keeps

Every expansion of a tree keeps the text it was read from.  That text does not depend on where it
stood: alone, it is read as the same expansion (`Template.source_reread`), except that it is not as
deep.

* `Items.shallower` : a derivation at some depth is one at any smaller depth.
* `InOrder` : texts that stand in another one, one after the other.
* `Embedded` : trees whose expansions are cut out of a text, closed under everything that the
  grammar does with slots.
-/

namespace ShellExpansion

namespace Grammar

/-! ## Depth -/

theorem Plain.shallower {region : Region} {deep depth k : Nat} {item next : Text} {node : Node}
    (h : Plain region deep item next node) (hdeep : deep = depth + k) :
    ∃ node', Plain region depth item next node' ∧ node = node'.deepen k := by
  subst hdeep
  cases h with
  | dollars h => exact ⟨_, .dollars h, rfl⟩
  | dollar h => exact ⟨_, .dollar h, rfl⟩
  | reference hname hnext => exact ⟨_, .reference hname hnext, rfl⟩
  | escaped hregion hc => exact ⟨_, .escaped hregion hc, rfl⟩
  | char hends hdollar hescape => exact ⟨_, .char hends hdollar hescape, rfl⟩

mutual

/-- Items that are derived at some depth are derived at a smaller one, with the same nodes but for
their nestings. -/
theorem Items.shallower {limit deep depth k : Nat} {region : Region} {text next : Text}
    {nodes : List Node} : Items limit region deep text next nodes → deep = depth + k →
      ∃ nodes', Items limit region depth text next nodes' ∧ nodes = nodes'.map (Node.deepen k)
  | .nil, _ => ⟨[], .nil, rfl⟩
  | .plain head tail, hdeep => by
    obtain ⟨node, hnode, rfl⟩ := head.shallower hdeep
    obtain ⟨nodes', hnodes, rfl⟩ := tail.shallower hdeep
    exact ⟨node :: nodes', .plain hnode hnodes, rfl⟩
  | .braced hdepth head tail, hdeep => by
    obtain ⟨node, hnode, rfl⟩ := head.shallower hdeep
    obtain ⟨nodes', hnodes, rfl⟩ := tail.shallower hdeep
    exact ⟨node :: nodes', .braced (by omega) hnode hnodes, rfl⟩

/-- The same for an expansion. -/
theorem Braced.shallower {limit deep depth k : Nat} {text : Text} {node : Node} :
    Braced limit deep text node → deep = depth + k →
      ∃ node', Braced limit depth text node' ∧ node = node'.deepen k
  | .length hname, hdeep => ⟨_, .length hname, by rw [hdeep]; rfl⟩
  | .name hname, hdeep => ⟨_, .name hname, by rw [hdeep]; rfl⟩
  | .casing hname hop, hdeep => ⟨_, .casing hname hop, by rw [hdeep]; rfl⟩
  | .word hname hop hword, hdeep => by
    obtain ⟨nodes, hnodes, rfl⟩ := hword.shallower (show _ = depth + 1 + k by omega)
    refine ⟨_, .word hname hop hnodes, ?_⟩
    rw [hdeep, ← Node.deepen_ofPieces]
    rfl
  | .offset hname hfirst hne hoffset, hdeep => by
    obtain ⟨nodes, hnodes, rfl⟩ := hoffset.shallower (show _ = depth + 1 + k by omega)
    refine ⟨_, .offset hname hfirst hne hnodes, ?_⟩
    rw [hdeep, ← Node.deepen_ofPieces]
    rfl
  | .slice hname hfirst hne hoffset hlength, hdeep => by
    obtain ⟨nodes, hnodes, rfl⟩ := hoffset.shallower (show _ = depth + 1 + k by omega)
    obtain ⟨nodes', hnodes', rfl⟩ := hlength.shallower (show _ = depth + 1 + k by omega)
    refine ⟨_, .slice hname hfirst hne hnodes hnodes', ?_⟩
    rw [hdeep, ← Node.deepen_ofPieces, ← Node.deepen_ofPieces]
    rfl
  | .pattern hname hop hpattern, hdeep => by
    obtain ⟨nodes, hnodes, rfl⟩ := hpattern.shallower (show _ = depth + 1 + k by omega)
    refine ⟨_, .pattern hname hop hnodes, ?_⟩
    rw [hdeep, ← Node.deepen_ofPieces]
    rfl
  | .replacement hname hop hpattern hword, hdeep => by
    obtain ⟨nodes, hnodes, rfl⟩ := hpattern.shallower (show _ = depth + 1 + k by omega)
    obtain ⟨nodes', hnodes', rfl⟩ := hword.shallower (show _ = depth + 1 + k by omega)
    refine ⟨_, .replacement hname hop hnodes hnodes', ?_⟩
    rw [hdeep, ← Node.deepen_ofPieces, ← Node.deepen_ofPieces]
    rfl

end

/-! ## Texts in a text -/

/-- Texts that stand in another one, one after the other. -/
inductive InOrder : List Text → Text → Prop
  | nil {text : Text} : InOrder [] text
  | cons {gap source after : Text} {sources : List Text} (tail : InOrder sources after) :
      InOrder (source :: sources) (gap ++ source ++ after)

theorem InOrder.append_left {sources : List Text} {text : Text} (h : InOrder sources text)
    (left : Text) : InOrder sources (left ++ text) := by
  cases h with
  | nil => exact .nil
  | @cons gap source after sources tail =>
    have hcons : InOrder (source :: sources) (left ++ gap ++ source ++ after) := .cons tail
    simpa only [List.append_assoc] using hcons

theorem InOrder.append {sources sources' : List Text} {text text' : Text}
    (h : InOrder sources text) (h' : InOrder sources' text') :
    InOrder (sources ++ sources') (text ++ text') := by
  induction h with
  | nil => exact h'.append_left _
  | @cons gap source after sources tail ih =>
    have hcons : InOrder (source :: (sources ++ sources')) (gap ++ source ++ (after ++ text')) :=
      .cons ih
    simpa only [List.append_assoc, List.cons_append] using hcons

/-! ## Expansions that can be cut out -/

/-- The node is an expansion that can be cut out of the text: its source stands in the text and is,
alone, read as the same expansion, and the expansions in its words stand in its source. -/
def IsCutOut (limit : Nat) (text : Text) : Node → Prop
  | .expansion name op words nesting source =>
    source <:+: text ∧
      (∃ root, Template.parse limit source = .ok root ∧
        root.deepen nesting = .expansion name op words nesting source) ∧
      InOrder (Node.sourcesAll words) source ∧
      ∀ f ∈ Node.expansionsAll words, f.render <:+: source
  | _ => False

theorem IsCutOut.stands_in {limit : Nat} {text : Text} {f : Node} (h : IsCutOut limit text f) :
    f.render <:+: text := by
  cases f with
  | expansion name op words nesting source => exact h.1
  | text value => exact h.elim
  | sequence nodes => exact h.elim

theorem IsCutOut.mono {limit : Nat} {text text' : Text} {f : Node} (h : IsCutOut limit text f)
    (hstands : text <:+: text') : IsCutOut limit text' f := by
  cases f with
  | expansion name op words nesting source => exact ⟨h.1.trans hstands, h.2⟩
  | text value => exact h.elim
  | sequence nodes => exact h.elim

/-- Nodes whose expansions are cut out of a text, the outermost ones in the order of the text. -/
structure Embedded (limit : Nat) (nodes : List Node) (text : Text) : Prop where
  /-- The outermost expansions stand in the text one after the other. -/
  ordered : InOrder (nodes.flatMap Node.sources) text
  /-- All expansions can be cut out. -/
  cutOut : ∀ f ∈ nodes.flatMap Node.expansions, IsCutOut limit text f

section

variable {limit : Nat} {nodes nodes' : List Node} {s t : Text}

theorem Embedded.nil : Embedded limit [] s := ⟨.nil, fun f hf => by cases hf⟩

theorem Embedded.text {value : Text} : Embedded limit [.text value] s :=
  ⟨.nil, fun f hf => by cases hf⟩

theorem Embedded.append (h : Embedded limit nodes s) (h' : Embedded limit nodes' t) :
    Embedded limit (nodes ++ nodes') (s ++ t) where
  ordered := by
    rw [List.flatMap_append]
    exact h.ordered.append h'.ordered
  cutOut := by
    intro f hf
    rw [List.flatMap_append] at hf
    rcases List.mem_append.1 hf with hf | hf
    · exact (h.cutOut f hf).mono (List.prefix_append _ _).isInfix
    · exact (h'.cutOut f hf).mono (List.suffix_append _ _).isInfix

theorem Embedded.between (h : Embedded limit nodes s) (left right : Text) :
    Embedded limit nodes (left ++ s ++ right) := by
  have hpad : Embedded limit ([] ++ nodes ++ []) (left ++ s ++ right) :=
    (Embedded.nil.append h).append .nil
  rwa [List.append_nil, List.nil_append] at hpad

theorem Embedded.cons (h : Embedded limit nodes s) (c : Char) : Embedded limit nodes (c :: s) := by
  have hpad : Embedded limit ([] ++ nodes) ([c] ++ s) := Embedded.nil.append h
  exact hpad

theorem Embedded.ofPieces (h : Embedded limit nodes s) :
    Embedded limit [.ofPieces nodes] s where
  ordered := by
    rw [List.flatMap_singleton, Node.sources_ofPieces]
    exact h.ordered
  cutOut := by
    rw [List.flatMap_singleton, Node.expansions_ofPieces]
    exact h.cutOut

theorem Embedded.expansion {name : Text} {op : Option Operator} {words : List Node} {nesting : Nat}
    {source : Text} (h : Embedded limit words source)
    (hread : ∃ root, Template.parse limit source = .ok root ∧
      root.deepen nesting = .expansion name op words nesting source) :
    Embedded limit [.expansion name op words nesting source] source where
  ordered := by
    have hcons : InOrder [source] ([] ++ source ++ []) := .cons .nil
    rwa [List.append_nil, List.nil_append] at hcons
  cutOut := by
    intro f hf
    rw [List.flatMap_singleton, Node.expansions, Node.expansionsAll_eq_flatMap] at hf
    rcases List.mem_cons.1 hf with rfl | hf
    · refine ⟨List.infix_rfl, hread, ?_, fun f hf => ?_⟩
      · rw [Node.sourcesAll_eq_flatMap]
        exact h.ordered
      · rw [Node.expansionsAll_eq_flatMap] at hf
        exact (h.cutOut f hf).stands_in
    · exact h.cutOut f hf

end

/-! ## Derivations -/

theorem Braced.eq_expansion {limit depth : Nat} {text : Text} {node : Node}
    (h : Braced limit depth text node) :
    ∃ name op words, node = .expansion name op words depth text := by
  cases h <;> exact ⟨_, _, _, rfl⟩

/-- A braced expansion alone is a template. -/
theorem Braced.parse_eq {limit : Nat} {text : Text} {node : Node} (h : Braced limit 0 text node) :
    Template.parse limit text = .ok node := by
  refine Template.parse_eq_ok_iff.2 ⟨[node], ?_, ?_⟩
  · have hitems : Items limit .outside 0 (text ++ []) [] [node] :=
      .braced (Nat.zero_le limit) h .nil
    rwa [List.append_nil] at hitems
  · obtain ⟨name, op, words, rfl⟩ := h.eq_expansion
    rfl

/-- An expansion, alone, is read as the same expansion outside every other. -/
theorem Braced.reread {limit depth : Nat} {text : Text} {node : Node}
    (h : Braced limit depth text node) :
    ∃ root, Template.parse limit text = .ok root ∧ root.deepen depth = node := by
  obtain ⟨root, hroot, rfl⟩ := h.shallower (Nat.zero_add depth).symm
  exact ⟨root, hroot.parse_eq, rfl⟩

theorem reference_reread {limit depth : Nat} {name : Text} (hname : IsName name) :
    ∃ root, Template.parse limit ('$' :: name) = .ok root ∧
      root.deepen depth = .expansion name none [] depth ('$' :: name) := by
  refine ⟨.expansion name none [] 0 ('$' :: name),
    Template.parse_eq_ok_iff.2 ⟨[.expansion name none [] 0 ('$' :: name)], ?_, rfl⟩, ?_⟩
  · have hend : ¬ NameFollows ([] ++ []) := by
      rintro ⟨c, hc, -⟩
      cases hc
    have hitems : Items limit .outside 0 ('$' :: name ++ []) [] _ :=
      .plain (.reference hname hend) .nil
    rwa [List.append_nil] at hitems
  · rw [Node.deepen, Nat.zero_add]
    rfl

theorem Plain.embedded {limit depth : Nat} {region : Region} {item next : Text} {node : Node}
    (h : Plain region depth item next node) : Embedded limit [node] item := by
  cases h with
  | reference hname hnext => exact Embedded.nil.expansion (reference_reread hname)
  | dollars h => exact .text
  | dollar h => exact .text
  | escaped hregion hc => exact .text
  | char hends hdollar hescape => exact .text

mutual

/-- The nodes of derived items are embedded in the text of the items. -/
theorem Items.embedded {limit depth : Nat} {region : Region} {text next : Text}
    {nodes : List Node} : Items limit region depth text next nodes → Embedded limit nodes text
  | .nil => .nil
  | .plain head tail => head.embedded.append tail.embedded
  | .braced _ head tail => head.embedded.append tail.embedded

/-- The node of a derived expansion is embedded in its source. -/
theorem Braced.embedded {limit depth : Nat} {text : Text} {node : Node} :
    Braced limit depth text node → Embedded limit [node] text
  | .length hname => Embedded.nil.expansion (Braced.length hname).reread
  | .name hname => Embedded.nil.expansion (Braced.name hname).reread
  | .casing hname hop => Embedded.nil.expansion (Braced.casing hname hop).reread
  | .word hname hop hword =>
    (hword.embedded.ofPieces.between _ _).expansion (Braced.word hname hop hword).reread
  | .pattern hname hop hpattern =>
    ((Embedded.nil.append hpattern.embedded.ofPieces).append .text).expansion
      (Braced.pattern hname hop hpattern).reread
  | .offset hname hfirst hne hoffset =>
    ((hoffset.embedded.ofPieces.cons ':').between _ _).expansion
      (Braced.offset hname hfirst hne hoffset).reread
  | @Braced.slice _ _ name _ _ _ _ hname hfirst hne hoffset hlength => by
    have hwords := (hoffset.embedded.ofPieces.cons ':').append (hlength.embedded.ofPieces.cons ':')
    refine Embedded.expansion ?_ (Braced.slice hname hfirst hne hoffset hlength).reread
    simpa using hwords.between ('$' :: '{' :: name) ['}']
  | @Braced.replacement _ _ name _ _ op _ _ hname hop hpattern hword => by
    have hwords := hpattern.embedded.ofPieces.append (hword.embedded.ofPieces.cons '/')
    refine Embedded.expansion ?_ (Braced.replacement hname hop hpattern hword).reread
    simpa using hwords.between ('$' :: '{' :: name ++ op.spelling) ['}']

end

end Grammar

namespace Template

open Grammar

theorem embedded_of_parse {limit : Nat} {input : Text} {root : Node}
    (h : parse limit input = .ok root) : Embedded limit [root] input := by
  obtain ⟨nodes, hitems, rfl⟩ := parse_eq_ok_iff.1 h
  exact hitems.embedded.ofPieces

/-- **The source of an expansion is self-contained.**  Wherever an expansion stands in the tree of a
text, its source stands in the text and is, alone, read as that expansion, with every nesting less
by the nesting that the expansion has in the tree.  The expansions directly inside stand in its
source one after the other, and those further inside stand in it too. -/
theorem source_reread {limit : Nat} {input : Text} {root : Node} (h : parse limit input = .ok root)
    {name : Text} {op : Option Operator} {words : List Node} {nesting : Nat} {source : Text}
    (hf : .expansion name op words nesting source ∈ root.expansions) :
    source <:+: input ∧
      (∃ alone, parse limit source = .ok alone ∧
        alone.deepen nesting = .expansion name op words nesting source) ∧
      InOrder (Node.sourcesAll words) source ∧
      ∀ f ∈ Node.expansionsAll words, f.render <:+: source := by
  have hmem : .expansion name op words nesting source ∈ [root].flatMap Node.expansions := by
    rwa [List.flatMap_singleton]
  have hcut : IsCutOut limit input (.expansion name op words nesting source) :=
    (embedded_of_parse h).cutOut _ hmem
  exact hcut

theorem source_reread_nested :
    parse 64 ['x', '$', '{', 'a', '-', '$', '{', 'b', '}', '}']
        = .ok (.sequence [.text ['x'],
            .expansion ['a'] (some (.default .unset))
              [.expansion ['b'] none [] 1 ['$', '{', 'b', '}']] 0
              ['$', '{', 'a', '-', '$', '{', 'b', '}', '}']]) ∧
      ['$', '{', 'b', '}'] <:+: ['x', '$', '{', 'a', '-', '$', '{', 'b', '}', '}'] ∧
      ∃ alone, parse 64 ['$', '{', 'b', '}'] = .ok alone ∧
        alone.deepen 1 = .expansion ['b'] none [] 1 ['$', '{', 'b', '}'] := by
  have hparse : parse 64 ['x', '$', '{', 'a', '-', '$', '{', 'b', '}', '}']
      = .ok (.sequence [.text ['x'],
          .expansion ['a'] (some (.default .unset))
            [.expansion ['b'] none [] 1 ['$', '{', 'b', '}']] 0
            ['$', '{', 'a', '-', '$', '{', 'b', '}', '}']]) := by
    cbv
  have hsource := source_reread hparse (List.mem_cons_of_mem _ List.mem_cons_self)
  exact ⟨hparse, hsource.1, hsource.2.1⟩

end Template

end ShellExpansion
