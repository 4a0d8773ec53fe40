import ShellExpansion.Proofs.Template.Nesting
import ShellExpansion.Proofs.Template.Source

/-!
# What the nesting limit changes

A larger limit reads everything that a smaller one does not refuse, and reads it in the same way; and
a tree that was read under the larger limit is read under the smaller one if its braced expansions
keep to it.

* `Refines` : one result is another unless that is a refusal; kept by everything that a reader does
  with the results of its parts.
* `slotsRefine` : every slot, by induction on the length of the text.
* `Items.within`, `Braced.within` : a derivation whose braced expansions keep to a smaller limit is
  one under that limit.
* `parse_raise_limit` : **the limit decides what is refused, and nothing else.**
-/

namespace ShellExpansion

open Grammar

namespace Parser

/-! ## Results that are not refusals -/

/-- The second result is the first, unless the first is a refusal under the limit. -/
def Refines {α : Type} (limit : Nat) (x y : Except Fault α) : Prop :=
  (∃ rest, x = .error ⟨.nestingTooDeep limit, rest⟩) ∨ y = x

section

variable {α β : Type} {limit : Nat} {x y : Except Fault α}

theorem Refines.refl (limit : Nat) (x : Except Fault α) : Refines limit x x := .inr rfl

theorem Refines.map (h : Refines limit x y) (f : α → β) : Refines limit (x.map f) (y.map f) := by
  obtain ⟨rest, rfl⟩ | rfl := h
  · exact .inl ⟨rest, rfl⟩
  · exact .refl limit _

theorem Refines.bind {f g : α → Except Fault β} (h : Refines limit x y)
    (hrest : ∀ a, x = .ok a → Refines limit (f a) (g a)) :
    Refines limit (x.bind f) (y.bind g) := by
  obtain ⟨rest, rfl⟩ | rfl := h
  · exact .inl ⟨rest, rfl⟩
  · cases y with
    | error fault => exact .refl limit _
    | ok a => exact hrest a rfl

end

theorem length_le_of_outcome {α : Type} {s rest : Text} {a : α}
    {result : Except Fault (Reading α s)} (h : outcome result = .ok (a, rest)) :
    rest.length ≤ s.length := by
  obtain ⟨reading, -, heq⟩ := except_map_eq_ok h
  cases heq
  exact reading.rest_le

theorem length_le_of_merged {limit depth : Nat} {region : Region} {s rest : Text}
    {nodes : List Node} (h : merged limit region depth s = .ok (nodes, rest)) :
    rest.length ≤ s.length := by
  obtain ⟨⟨pieces, rest'⟩, hread, heq⟩ := except_map_eq_ok h
  cases heq
  exact length_le_of_outcome hread

/-! ## Two limits -/

section

variable {limit limit' : Nat}

/-- Every slot of the text is read alike under both limits, unless the first refuses it. -/
def SlotsRefine (limit limit' : Nat) (s : Text) : Prop :=
  ∀ region depth, Refines limit (merged limit region depth s) (merged limit' region depth s)

theorem words_refines {s : Text} (hs : ∀ t, t.length ≤ s.length → SlotsRefine limit limit' t)
    (layout : Operator.Layout) (depth : Nat) :
    Refines limit (outcome (words limit layout depth s)) (outcome (words limit' layout depth s)) := by
  rw [words_eq, words_eq]
  cases layout with
  | bare => exact .refl limit _
  | word => exact (hs s le_rfl .word (depth + 1)).map _
  | fields =>
    refine (hs s le_rfl .field (depth + 1)).bind ?_
    rintro ⟨offset, rest⟩ hoffset
    have hle : rest.length ≤ s.length := length_le_of_merged hoffset
    simp only
    split
    · exact .refl limit _
    · split
      · rename_i t
        exact (hs t (Nat.le_of_succ_le hle) .field (depth + 1)).map _
      · exact .refl limit _
      · exact .refl limit _
      · exact .refl limit _
  | replacement =>
    refine (hs s le_rfl .pattern (depth + 1)).bind ?_
    rintro ⟨pattern, rest⟩ hpattern
    have hle : rest.length ≤ s.length := length_le_of_merged hpattern
    simp only
    split
    · rename_i t
      exact (hs t (Nat.le_of_succ_le hle) .word (depth + 1)).map _
    · exact .refl limit _
    · exact .refl limit _
    · exact .refl limit _

/-- The limits are compared with the depth of a brace; past that only its words tell them apart. -/
theorem expansion_refines (hle : limit ≤ limit') {s : Text}
    (hs : ∀ t, t.length < s.length → SlotsRefine limit limit' t) (depth : Nat) :
    Refines limit (outcome (expansion limit depth s)) (outcome (expansion limit' depth s)) := by
  by_cases hdepth : limit < depth
  · exact .inl ⟨s, expansion_of_lt hdepth s⟩
  · have hlimit : depth ≤ limit := Nat.le_of_not_lt hdepth
    have hlimit' : depth ≤ limit' := Nat.le_trans hlimit hle
    by_cases hhash : ∃ t, s = '#' :: t
    · obtain ⟨t, rfl⟩ := hhash
      rw [expansion_hash hlimit, expansion_hash hlimit']
      exact .refl limit _
    · have hhead : s.head? ≠ some '#' := by
        intro hhead
        obtain ⟨t, rfl⟩ := head?_eq_some.1 hhead
        exact hhash ⟨t, rfl⟩
      rw [expansion_named hlimit hhead, expansion_named hlimit' hhead]
      split
      · exact .refl limit _
      · rename_i hname
        split
        · rename_i op t hfind
          have hlt : t.length < s.length :=
            Nat.lt_trans (length_lt_of_find hfind) (length_dropWhile_lt hname)
          refine (words_refines (fun u hu => hs u (Nat.lt_of_le_of_lt hu hlt)) _ depth).bind ?_
          intro args _
          exact .refl limit _
        · exact .refl limit _
        · exact .refl limit _

/-- Every slot is read alike under both limits, unless the smaller one refuses it. -/
theorem slotsRefine (hle : limit ≤ limit') (s : Text) : SlotsRefine limit limit' s := by
  induction hn : s.length using Nat.strong_induction_on generalizing s with
  | h n ih =>
    subst hn
    have ih' : ∀ t, t.length < s.length → SlotsRefine limit limit' t :=
      fun t ht => ih t.length ht t rfl
    intro region depth
    rcases exists_item region depth s with hends | ⟨item, next, node, hitem, rfl⟩ | ⟨t, rfl⟩
    · rw [merged_of_ends hends, merged_of_ends hends]
      exact .refl limit _
    · have hlt : next.length < (item ++ next).length := by
        have hpos := List.length_pos_iff.2 hitem.ne_nil
        rw [List.length_append]
        omega
      rw [merged_plain hitem, merged_plain hitem]
      exact (ih' next hlt region depth).map _
    · have hshort : ∀ u, u.length ≤ t.length → SlotsRefine limit limit' u :=
        fun u hu => ih' u (by simp only [List.length_cons]; omega)
      rw [merged_opening, merged_opening]
      refine (expansion_refines hle (fun u hu => hshort u (Nat.le_of_lt hu)) depth).bind ?_
      rintro ⟨node, rest⟩ hread
      exact (hshort rest (length_le_of_outcome hread) region depth).map _

end

end Parser

/-! ## Braced expansions within a limit -/

namespace Node

/-- The nestings of the braced expansions among these are within the limit. -/
def BracedWithin (limit : Nat) (expansions : List Node) : Prop :=
  ∀ name op words nesting source, expansion name op words nesting source ∈ expansions →
    ['$', '{'] <+: source → nesting ≤ limit

section

variable {limit nesting : Nat} {nodes nodes' words : List Node} {name source : Text}
  {op : Option Operator}

theorem BracedWithin.mono (h : BracedWithin limit nodes) (hsub : ∀ node ∈ nodes', node ∈ nodes) :
    BracedWithin limit nodes' :=
  fun name op words nesting source hmem => h name op words nesting source (hsub _ hmem)

theorem bracedWithin_append :
    BracedWithin limit (nodes ++ nodes') ↔ BracedWithin limit nodes ∧ BracedWithin limit nodes' := by
  constructor
  · intro h
    exact ⟨h.mono fun node hmem => List.mem_append_left _ hmem,
      h.mono fun node hmem => List.mem_append_right _ hmem⟩
  · rintro ⟨h, h'⟩ name op words nesting source hmem
    rcases List.mem_append.1 hmem with hmem | hmem
    · exact h name op words nesting source hmem
    · exact h' name op words nesting source hmem

/-- What an expansion says about the words in it. -/
theorem BracedWithin.of_expansion
    (h : BracedWithin limit (expansion name op words nesting source).expansions) :
    BracedWithin limit (words.flatMap expansions) := by
  rw [expansions, expansionsAll_eq_flatMap] at h
  exact h.mono fun node hmem => List.mem_cons_of_mem _ hmem

/-- What several words say about the first of them, in terms of the pieces that it is made of. -/
theorem BracedWithin.word
    (h : BracedWithin limit ((ofPieces nodes :: words).flatMap expansions)) :
    BracedWithin limit (nodes.flatMap expansions) ∧
      BracedWithin limit (words.flatMap expansions) := by
  rw [List.flatMap_cons, expansions_ofPieces] at h
  exact bracedWithin_append.1 h

/-- Expansions that keep to a limit by the measure for derivations keep to it where they are braced:
a name has no brace in it. -/
theorem KeepsLimit.bracedWithin (h : KeepsLimit limit nodes)
    (hnames : ∀ name op words nesting source,
      expansion name op words nesting source ∈ nodes → IsName name) : BracedWithin limit nodes := by
  intro name op words nesting source hmem hbraced
  rcases h name op words nesting source hmem with hle | ⟨-, -, -, rfl⟩
  · exact hle
  · obtain ⟨t, ht⟩ := hbraced
    have hbrace : isNameChar '{' = true := by
      refine (hnames _ _ _ _ _ hmem).2 _ ?_
      rw [← (List.cons.inj ht).2]
      exact List.mem_cons_self
    exact absurd hbrace (by decide)

end

mutual

/-- An expansion of a tree stands in it. -/
theorem exists_occurs {root node : Node} (h : node ∈ root.expansions) :
    ∃ depth, root.Occurs depth node := by
  cases root with
  | text value => cases h
  | expansion name op words nesting source =>
    rcases List.mem_cons.1 h with rfl | h
    · exact ⟨0, .here⟩
    · obtain ⟨word, hword, depth, hoccurs⟩ := exists_occurs_all h
      exact ⟨depth + 1, .word hword hoccurs⟩
  | sequence nodes =>
    obtain ⟨child, hchild, depth, hoccurs⟩ := exists_occurs_all h
    exact ⟨depth, .item hchild hoccurs⟩

/-- An expansion of several trees stands in one of them. -/
theorem exists_occurs_all {nodes : List Node} {node : Node} (h : node ∈ expansionsAll nodes) :
    ∃ child ∈ nodes, ∃ depth, child.Occurs depth node := by
  cases nodes with
  | nil => cases h
  | cons first nodes =>
    rcases List.mem_append.1 h with h | h
    · exact ⟨first, List.mem_cons_self, exists_occurs h⟩
    · obtain ⟨child, hchild, hoccurs⟩ := exists_occurs_all h
      exact ⟨child, List.mem_cons_of_mem first hchild, hoccurs⟩

end

end Node

namespace Grammar

open Node

variable {limit limit' : Nat}

/-- The depth of a braced expansion is its nesting. -/
theorem Braced.depth_le {depth : Nat} {text : Text} {node : Node}
    (h : Braced limit' depth text node) (hwithin : BracedWithin limit node.expansions) :
    depth ≤ limit := by
  have hbraced : ['$', '{'] <+: text := by
    cases h <;> exact ⟨_, rfl⟩
  obtain ⟨name, op, words, rfl⟩ := h.eq_expansion
  exact hwithin name op words depth text List.mem_cons_self hbraced

mutual

/-- Items whose braced expansions keep to a limit are derived under it. -/
theorem Items.within {region : Region} {depth : Nat} {text next : Text} {nodes : List Node} :
    Items limit' region depth text next nodes → BracedWithin limit (nodes.flatMap expansions) →
      Items limit region depth text next nodes
  | .nil, _ => .nil
  | .plain head tail, h => .plain head (tail.within (bracedWithin_append.1 h).2)
  | .braced hdepth head tail, h => by
    obtain ⟨hhead, htail⟩ := bracedWithin_append.1 h
    exact .braced (head.depth_le hhead) (head.within hhead) (tail.within htail)

/-- A braced expansion in which all braced expansions keep to a limit is derived under it. -/
theorem Braced.within {depth : Nat} {text : Text} {node : Node} :
    Braced limit' depth text node → BracedWithin limit node.expansions →
      Braced limit depth text node
  | .length hname, _ => .length hname
  | .name hname, _ => .name hname
  | .casing hname hop, _ => .casing hname hop
  | .word hname hop hword, h => .word hname hop (hword.within h.of_expansion.word.1)
  | .offset hname hfirst hne hoffset, h =>
    .offset hname hfirst hne (hoffset.within h.of_expansion.word.1)
  | .slice hname hfirst hne hoffset hlength, h =>
    .slice hname hfirst hne (hoffset.within h.of_expansion.word.1)
      (hlength.within h.of_expansion.word.2.word.1)
  | .pattern hname hop hpattern, h => .pattern hname hop (hpattern.within h.of_expansion.word.1)
  | .replacement hname hop hpattern hword, h =>
    .replacement hname hop (hpattern.within h.of_expansion.word.1)
      (hword.within h.of_expansion.word.2.word.1)

end

end Grammar

namespace Template

/-- **The limit decides what is refused, and nothing else.**  What a smaller limit does not refuse is
read under a larger one to the same tree or with the same error; and the smaller limit lets the trees
pass in which the nesting of every braced expansion is within it. -/
theorem parse_raise_limit {limit limit' : Nat} (hle : limit ≤ limit') (input : Text) :
    ((∀ rest, parse limit input ≠ .error ⟨.nestingTooDeep limit, rest⟩) →
        parse limit' input = parse limit input) ∧
      ∀ root, parse limit input = .ok root ↔
        parse limit' input = .ok root ∧ Node.BracedWithin limit root.expansions := by
  have hrefines : Parser.Refines limit (parse limit input) (parse limit' input) := by
    rw [parse_eq_map, parse_eq_map]
    exact (Parser.slotsRefine hle input .outside 0).map _
  have hraise : (∀ rest, parse limit input ≠ .error ⟨.nestingTooDeep limit, rest⟩) →
      parse limit' input = parse limit input := by
    intro hpasses
    obtain ⟨rest, hrefused⟩ | hsame := hrefines
    · exact absurd hrefused (hpasses rest)
    · exact hsame
  refine ⟨hraise, fun root => ⟨fun hroot => ⟨?_, ?_⟩, ?_⟩⟩
  · rw [hraise fun rest => by rw [hroot]; exact nofun, hroot]
  · obtain ⟨nodes, hitems, rfl⟩ := parse_eq_ok_iff.1 hroot
    rw [Node.expansions_ofPieces]
    refine (hitems.keepsLimit (Nat.zero_le _)).bracedWithin ?_
    intro name op words nesting source hmem
    rw [← Node.expansions_ofPieces] at hmem
    obtain ⟨depth, hoccurs⟩ := Node.exists_occurs hmem
    exact (Node.sound_ofPieces hitems.sound depth _ hoccurs).isName
  · rintro ⟨hroot, hwithin⟩
    obtain ⟨nodes, hitems, rfl⟩ := parse_eq_ok_iff.1 hroot
    rw [Node.expansions_ofPieces] at hwithin
    exact parse_eq_ok_iff.2 ⟨nodes, hitems.within hwithin, rfl⟩

theorem parse_raise_limit_nested :
    1 ≤ 64 ∧
      (∀ rest, parse 1 ['$', '{', 'a', '-', '$', '{', 'b', '}', '}']
        ≠ .error ⟨.nestingTooDeep 1, rest⟩) ∧
      ∃ root, parse 1 ['$', '{', 'a', '-', '$', '{', 'b', '}', '}'] = .ok root ∧
        parse 64 ['$', '{', 'a', '-', '$', '{', 'b', '}', '}'] = .ok root ∧
        Node.BracedWithin 1 root.expansions := by
  have hroot : parse 1 ['$', '{', 'a', '-', '$', '{', 'b', '}', '}']
      = .ok (.expansion ['a'] (some (.default .unset))
          [.expansion ['b'] none [] 1 ['$', '{', 'b', '}']] 0
          ['$', '{', 'a', '-', '$', '{', 'b', '}', '}']) := by
    cbv
  have hpasses : ∀ rest, parse 1 ['$', '{', 'a', '-', '$', '{', 'b', '}', '}']
      ≠ .error ⟨.nestingTooDeep 1, rest⟩ := by
    intro rest hrefused
    rw [hroot] at hrefused
    cases hrefused
  obtain ⟨hsame, htrees⟩ := parse_raise_limit (show 1 ≤ 64 by decide)
    ['$', '{', 'a', '-', '$', '{', 'b', '}', '}']
  exact ⟨by decide, hpasses, _, hroot, by rw [hsame hpasses, hroot], ((htrees _).1 hroot).2⟩

end Template

end ShellExpansion
