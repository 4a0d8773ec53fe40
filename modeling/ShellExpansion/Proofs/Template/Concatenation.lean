import ShellExpansion.Proofs.Template.Recognition

/-!
# Templates one after the other

Two templates that are put together are read as each of them is read, provided that the second does
not go on with a token of the first (`MayFollow`): a dollar at the end could start an expansion, and
a reference `$name` at the end could have a longer name.

* `Items.followed` : a derivation stands in front of any text that may follow it.
* `parse_append` : **the tree of two texts is made of the pieces of both.**
-/

namespace ShellExpansion

namespace Grammar

/-! ## Where a text may be cut -/

/-- The text ends in a reference `$name`. -/
def EndsInReference (text : Text) : Prop :=
  ∃ before name, text = before ++ '$' :: name ∧ IsName name

/-- The next text does not go on with a token of the first. -/
structure MayFollow (text next : Text) : Prop where
  /-- No dollar is left that could start an expansion. -/
  dollar : text.getLast? ≠ some '$'
  /-- A name at the end is not made longer. -/
  reference : EndsInReference text → ¬ NameFollows next

section

variable {text next left right : Text}

/-- Where a text ends is known from its end. -/
theorem MayFollow.of_append (h : MayFollow (left ++ right) next) : MayFollow right next where
  dollar := by
    intro hlast
    refine h.dollar ?_
    rw [List.getLast?_append, hlast, Option.some_or]
  reference := by
    rintro ⟨before, name, rfl, hname⟩
    exact h.reference ⟨left ++ before, name, (List.append_assoc _ _ _).symm, hname⟩

/-- In front of a text that is not empty no item sees what follows it. -/
theorem MayFollow.agree (h : MayFollow text next) (hne : text ≠ []) : Agree text (text ++ next) := by
  rcases text with _ | ⟨c, _ | ⟨d, text⟩⟩
  · exact absurd rfl hne
  · have hc : c ≠ '$' := by
      rintro rfl
      exact h.dollar rfl
    exact agree_cons hc [] next
  · exact ⟨rfl, fun _ => rfl⟩

end

/-! ## Derivations in front of a text -/

theorem Plain.followed {depth : Nat} {item next : Text} {node : Node}
    (h : Plain .outside depth item [] node) (hnext : MayFollow item next) :
    Plain .outside depth item next node := by
  cases h with
  | dollars h => exact absurd rfl hnext.dollar
  | reference hname hend => exact .reference hname (hnext.reference ⟨[], _, rfl, hname⟩)
  | escaped hregion hc => exact absurd rfl hregion
  | @char c _ hends hdollar hescape =>
    refine .char hends ?_ ?_
    · rintro rfl
      exact absurd rfl hnext.dollar
    · intro _ hregion
      exact absurd rfl hregion

/-- Items that were derived at the end of a text are derived in front of any text that may follow
them: only the last item could see the difference. -/
theorem Items.followed {limit depth : Nat} {region : Region} {text rest next : Text}
    {nodes : List Node} : Items limit region depth text rest nodes → region = .outside → rest = [] →
      MayFollow text next → Items limit region depth text next nodes
  | .nil, _, _, _ => .nil
  | @Items.plain _ _ _ item text _ node nodes head tail, hregion, hrest, hnext => by
    subst hregion hrest
    refine .plain ?_ (tail.followed rfl rfl hnext.of_append)
    rw [List.append_nil] at head
    -- only the last item sees the text that follows; any other sees the items after it
    by_cases htext : text = []
    · subst htext
      rw [List.append_nil] at hnext
      exact head.followed hnext
    · exact head.congr (hnext.of_append.agree htext)
  | .braced hdepth head tail, hregion, hrest, hnext =>
    .braced hdepth head (tail.followed hregion hrest hnext.of_append)

end Grammar

open Grammar

namespace Template

/-! ## Pieces -/

/-- The pieces of a text outside of every expansion, as they are read one after the other. -/
def pieces (limit : Nat) (input : Text) : Except Fault (List Node) :=
  (Parser.pieces limit .outside 0 input).map fun reading => reading.value

variable {limit : Nat} {a b : Text} {firsts : List Node}

theorem parse_eq_map_pieces (limit : Nat) (input : Text) :
    parse limit input = (pieces limit input).map .ofPieces := by
  unfold parse pieces
  cases Parser.pieces limit .outside 0 input <;> rfl

/-- Outside of every expansion a text is read to its end. -/
theorem merged_eq_map_pieces (limit : Nat) (input : Text) :
    Parser.merged limit .outside 0 input
      = (pieces limit input).map fun nodes => (Node.mergeText nodes, []) := by
  cases hreading : Parser.pieces limit .outside 0 input with
  | error fault => rw [pieces, Parser.merged, Parser.outcome, hreading]; rfl
  | ok reading =>
    have hmerged : Parser.merged limit .outside 0 input
        = .ok (Node.mergeText reading.value, reading.rest) := by
      rw [Parser.merged, Parser.outcome, hreading]
      rfl
    obtain ⟨hrest, -⟩ := Parser.merged_outside hmerged
    rw [hmerged, hrest, pieces, hreading]
    rfl

/-- In front of a text that may follow it a text is read as it is alone. -/
theorem merged_append (h : pieces limit a = .ok firsts) (hb : MayFollow a b) :
    Parser.merged limit .outside 0 (a ++ b)
      = (Parser.merged limit .outside 0 b).map fun result =>
          (firsts.foldr Node.joinPiece result.1, result.2) := by
  have hmerged : Parser.merged limit .outside 0 a = .ok (Node.mergeText firsts, []) := by
    rw [merged_eq_map_pieces, h]
    rfl
  obtain ⟨-, nodes, hitems, hnodes⟩ := Parser.merged_outside hmerged
  rw [(hitems.followed rfl rfl hb).reads b (Agree.refl b)]
  congr 1
  funext result
  rw [← Node.foldr_joinPiece_mergeText nodes, ← hnodes, Node.foldr_joinPiece_mergeText]

/-- **Reading distributes over concatenation.**  In front of a text that may follow it a text keeps
its pieces: the tree of both is made of the pieces of the first and then those of the second, and
what is wrong with the second is wrong with both. -/
theorem parse_append (h : pieces limit a = .ok firsts) (hb : MayFollow a b) :
    parse limit (a ++ b) = (pieces limit b).map fun more => .ofPieces (firsts ++ more) := by
  have hpieces : ∀ more, Node.ofPieces (firsts.foldr Node.joinPiece (Node.mergeText more))
      = .ofPieces (firsts ++ more) := by
    intro more
    rw [← Node.mergeText_append, Node.ofPieces_mergeText]
  rw [parse_eq_map, merged_append h hb, merged_eq_map_pieces]
  simp only [Parser.except_map_map, Function.comp_def, hpieces]

end Template

end ShellExpansion
