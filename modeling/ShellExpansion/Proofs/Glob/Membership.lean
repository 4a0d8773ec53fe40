import ShellExpansion.Proofs.Glob.Correctness

/-!
# What a bracket expression matches

* `matches_of_isUnambiguous` : a pattern whose bracket expressions are unambiguous matches what its
  pieces take.
* `bracket_matches_members` : **an unambiguous bracket expression matches the characters of its members,
  or all others.**
* `bracket_of_operator` : two signs that make an operator are no members.
-/

namespace ShellExpansion.Glob

section

variable {pattern value : Text} {pieces : List Piece} {inverted : Bool} {members : List Member}
  {x : Char}

/-- A pattern whose bracket expressions are unambiguous matches what its pieces take, unless the engine
gives up. -/
theorem matches_of_isUnambiguous [Engine] (hspells : Spells pattern pieces)
    (h : ∀ piece ∈ pieces, piece.IsUnambiguous) (value : Text) :
    ∃ accepted, matches? pattern value = attempt true true pattern value accepted ∧
      (accepted = true ↔ Splits pieces value) := by
  obtain ⟨steps, hsteps, hsplits⟩ := mapM_step_of_isUnambiguous h
  refine ⟨matchesAll steps value, ?_, by rw [matchesAll_iff, hsplits]⟩
  rw [matches?, compile, spells_iff.1 hspells, hsteps]

/-- A single piece takes the whole value. -/
theorem splits_singleton_iff {piece : Piece} : Splits [piece] value ↔ piece.Takes value := by
  rw [Splits, splitsBy_cons_iff]
  simp only [splitsBy_nil_iff]
  constructor
  · rintro ⟨part, rest, rfl, hpart, rfl⟩
    rwa [List.append_nil]
  · exact fun h => ⟨value, [], (List.append_nil value).symm, h, rfl⟩

theorem takes_bracket_iff :
    (Piece.bracket inverted members).Takes [x] ↔ ((∃ m ∈ members, m.Has x) ↔ inverted = false) := by
  simp [Piece.Takes]

/-- **An unambiguous bracket expression matches the characters of its members, or all others.**  A
named class has the characters of ASCII that its name says, a range those from its first to its last
one, and every other member one character, the one after the backslash if there is a backslash. -/
theorem bracket_matches_members [Engine]
    (hbracket : IsBracket pattern (.bracket inverted members) [])
    (hunambiguous : IsUnambiguous inverted members) (x : Char) :
    ∃ accepted, matches? pattern [x] = .ok accepted ∧
      (accepted = true ↔ ((∃ m ∈ members, m.Has x) ↔ inverted = false)) := by
  have hspells : Spells pattern [.bracket inverted members] := .bracket hbracket .nil
  obtain ⟨accepted, hanswer, hsplits⟩ := matches_of_isUnambiguous hspells
    (List.forall_mem_singleton.2 hunambiguous) [x]
  have hshort : ([x].length + 2).pow ((read pattern).count .many + 1) ≤ backtrackLimit := by
    rw [spells_iff.1 hspells, List.count_singleton, List.length_singleton]
    exact (by decide : Nat.pow 3 1 ≤ backtrackLimit)
  refine ⟨accepted, ?_, by rw [hsplits, splits_singleton_iff, takes_bracket_iff]⟩
  rw [hanswer, attempt_eq_ok_iff]
  exact ⟨not_givesUp_of_short hshort, rfl⟩

end

attribute [local instance] Engine.standard

/-- A hyphen in front, a range that runs backwards, a sign that is not in front, and a backslash. -/
theorem bracket_matches_members_signs :
    IsBracket ['[', '-', 'z', '-', 'a', '^', '\\', ']', '&', ']']
        (.bracket false [.single hyphen, .range ⟨false, 'z'⟩ ⟨false, 'a'⟩, .single ⟨false, '^'⟩,
          .single ⟨true, ']'⟩, .single ⟨false, '&'⟩]) [] ∧
      matches? ['[', '-', 'z', '-', 'a', '^', '\\', ']', '&', ']'] [']'] = .ok true := by
  have hread : readBracket? ['-', 'z', '-', 'a', '^', '\\', ']', '&', ']']
      = some (.bracket false [.single hyphen, .range ⟨false, 'z'⟩ ⟨false, 'a'⟩,
          .single ⟨false, '^'⟩, .single ⟨true, ']'⟩, .single ⟨false, '&'⟩], []) := by
    decide +kernel
  have hbracket := readBracket?_eq_some_iff.1 hread
  obtain ⟨accepted, hanswer, haccepted⟩ := bracket_matches_members hbracket (by decide +kernel) ']'
  have hhas : ∃ m ∈ [Member.single hyphen, .range ⟨false, 'z'⟩ ⟨false, 'a'⟩, .single ⟨false, '^'⟩,
      .single ⟨true, ']'⟩, .single ⟨false, '&'⟩], m.Has ']' :=
    ⟨.single ⟨true, ']'⟩, by decide, rfl⟩
  obtain rfl : accepted = true := haccepted.2 (iff_of_true hhas rfl)
  exact ⟨hbracket, hanswer⟩

/-- Two signs that make an operator are no members: what stands left and right of them is intersected,
and here nothing is left. -/
theorem bracket_of_operator :
    IsBracket ['[', 'a', '&', '&', 'b', ']']
        (.bracket false [.single ⟨false, 'a'⟩, .single ⟨false, '&'⟩, .single ⟨false, '&'⟩,
          .single ⟨false, 'b'⟩]) [] ∧
      (∃ m ∈ [Member.single ⟨false, 'a'⟩, .single ⟨false, '&'⟩, .single ⟨false, '&'⟩,
          .single ⟨false, 'b'⟩], m.Has 'a') ∧
      matches? ['[', 'a', '&', '&', 'b', ']'] ['a'] = .ok false := by
  have hread : readBracket? ['a', '&', '&', 'b', ']']
      = some (.bracket false [.single ⟨false, 'a'⟩, .single ⟨false, '&'⟩, .single ⟨false, '&'⟩,
          .single ⟨false, 'b'⟩], []) := by
    decide +kernel
  exact ⟨readBracket?_eq_some_iff.1 hread, ⟨_, List.mem_cons_self, rfl⟩, by decide +kernel⟩

end ShellExpansion.Glob
