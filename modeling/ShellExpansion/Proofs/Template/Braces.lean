import ShellExpansion.Proofs.Template.Steps

/-!
# Reading a braced expansion

Equations for what stands between `${` and `}`: the closing brace (`closeBrace_eq`), the words of
each layout (`words_eq`) and the whole (`expansion_hash`, `expansion_named`).  They speak of merged
pieces only, and of failures as well as of successes.
-/

namespace ShellExpansion.Parser

/-! ## The closing brace -/

theorem scan_closing (accept : Acceptance) (s : Text) :
    Token.scan { closing := true } accept s =
      match s with
      | [] => (.ending, [])
      | '}' :: t => (.closing, t)
      | c :: t => (.illegal, c :: t) := by
  unfold Token.scan
  split
  · rfl
  · rename_i t
    have hnone : Token.afterDollar? { closing := true } t = none := by
      unfold Token.afterDollar?
      split <;> rfl
    rw [hnone]
    rfl
  · rfl
  · rename_i hnil _ hbrace
    split
    · exact (hnil rfl).elim
    · exact (hbrace _ rfl).elim
    · rfl

theorem closeBrace_eq (s : Text) :
    outcome (closeBrace s) =
      match s with
      | [] => .error ⟨.missingClosingBrace, []⟩
      | '}' :: t => .ok ((), t)
      | c :: t => .error ⟨.badSubstitution, c :: t⟩ := by
  have hscan := scan_closing (fun _ _ => true) s
  unfold closeBrace
  split
  · rename_i rest h
    rw [h] at hscan
    split at hscan <;> simp_all [outcome, Except.map]
  · rename_i rest h
    rw [h] at hscan
    split at hscan <;> simp_all [outcome, Except.map]
  · rename_i hclosing hending
    split
    · exact (hending [] hscan).elim
    · exact (hclosing _ hscan).elim
    · rfl

/-! ## Words -/

/-- The words of each layout, in terms of slots. -/
theorem words_eq (limit : Nat) (layout : Operator.Layout) (depth : Nat) (s : Text) :
    outcome (words limit layout depth s) =
      match layout with
      | .bare => .ok ([], s)
      | .word =>
        (merged limit .word (depth + 1) s).map fun word => ([.ofPieces word.1], word.2)
      | .fields =>
        (merged limit .field (depth + 1) s).bind fun offset =>
          if (Node.ofPieces offset.1).isEmptyText then .error ⟨.badSubstitution, offset.2⟩
          else
            match offset.2 with
            | ':' :: t =>
              (merged limit .field (depth + 1) t).map fun length =>
                ([.ofPieces offset.1, .ofPieces length.1], length.2)
            | '}' :: t => .ok ([.ofPieces offset.1], '}' :: t)
            | [] => .error ⟨.missingClosingBrace, []⟩
            | c :: t => .error ⟨.badSubstitution, c :: t⟩
      | .replacement =>
        (merged limit .pattern (depth + 1) s).bind fun pattern =>
          match pattern.2 with
          | '/' :: t =>
            (merged limit .word (depth + 1) t).map fun word =>
              ([.ofPieces pattern.1, .ofPieces word.1], word.2)
          | '}' :: t => .ok ([.ofPieces pattern.1, .text []], '}' :: t)
          | [] => .error ⟨.missingClosingBrace, []⟩
          | c :: t => .error ⟨.badSubstitution, c :: t⟩ := by
  cases layout with
  | bare => rw [words]; rfl
  | word =>
    rw [words]
    simp only [merged, outcome]
    cases pieces limit .word (depth + 1) s with
    | error fault => rfl
    | ok word =>
      simp [Except.map, bind, Except.bind, pure, Except.pure, Reading.lift,
        Node.ofPieces_mergeText]
  | fields =>
    rw [words]
    simp only [merged, outcome]
    cases pieces limit .field (depth + 1) s with
    | error fault => rfl
    | ok offset =>
      obtain ⟨value, rest, hle⟩ := offset
      simp only [Except.map, bind, Except.bind, Node.ofPieces_mergeText]
      by_cases hempty : (Node.ofPieces value).isEmptyText = true
      · simp only [if_pos hempty]
        rfl
      · simp only [if_neg hempty]
        rcases rest with _ | ⟨c, t⟩
        · rfl
        · by_cases hcolon : c = ':'
          · subst hcolon
            simp only
            cases h : pieces limit .field (depth + 1) t <;>
              simp [pure, Except.pure, Reading.lift, Node.ofPieces_mergeText]
          · by_cases hbrace : c = '}'
            · subst hbrace
              rfl
            · simp [throw, throwThe, MonadExceptOf.throw]
  | replacement =>
    rw [words]
    simp only [merged, outcome]
    cases pieces limit .pattern (depth + 1) s with
    | error fault => rfl
    | ok pattern =>
      obtain ⟨value, rest, hle⟩ := pattern
      simp only [Except.map, bind, Except.bind, Node.ofPieces_mergeText]
      rcases rest with _ | ⟨c, t⟩
      · rfl
      · by_cases hslash : c = '/'
        · subst hslash
          simp only
          cases h : pieces limit .word (depth + 1) t <;>
            simp [pure, Except.pure, Reading.lift, Node.ofPieces_mergeText]
        · by_cases hbrace : c = '}'
          · subst hbrace
            rfl
          · simp [throw, throwThe, MonadExceptOf.throw]

/-! ## Expansions -/

variable {limit depth : Nat} {s : Text}

/-- The limit is looked at first. -/
theorem expansion_of_lt (h : limit < depth) (s : Text) :
    outcome (expansion limit depth s) = .error ⟨.nestingTooDeep limit, s⟩ := by
  unfold expansion
  rw [if_pos h]
  rfl

/-- After a number sign there is a name and the closing brace. -/
theorem expansion_hash (h : depth ≤ limit) (s : Text) :
    outcome (expansion limit depth ('#' :: s)) =
      if s.takeWhile isNameChar = [] then .error ⟨.badSubstitution, s⟩
      else
        (outcome (closeBrace (s.dropWhile isNameChar))).map fun brace =>
          (braced depth ('#' :: s) brace.2 (s.takeWhile isNameChar) (some .length) [],
            brace.2) := by
  rw [expansion, if_neg (Nat.not_lt.2 h)]
  by_cases hname : s.takeWhile isNameChar = []
  · simp only [if_pos hname]
    rfl
  · simp only [if_neg hname, outcome, bind, Except.bind]
    cases closeBrace (s.dropWhile isNameChar) <;> rfl

/-- Otherwise the name comes first, and what follows it decides. -/
theorem expansion_named (h : depth ≤ limit) (hs : s.head? ≠ some '#') :
    outcome (expansion limit depth s) =
      if s.takeWhile isNameChar = [] then .error ⟨.variableName, s⟩
      else
        match Operator.find (s.dropWhile isNameChar) with
        | .operator op t =>
          (outcome (words limit op.layout depth t)).bind fun args =>
            (outcome (closeBrace args.2)).map fun brace =>
              (braced depth s brace.2 (s.takeWhile isNameChar) (some op) args.1, brace.2)
        | .mixedCase t => .error ⟨.badSubstitution, t⟩
        | .nothing =>
          match s.dropWhile isNameChar with
          | '}' :: t => .ok (braced depth s t (s.takeWhile isNameChar) none [], t)
          | after => .error ⟨.missingClosingBrace, after⟩ := by
  have hhash : ∀ t, s = '#' :: t → False := by
    rintro t rfl
    exact hs rfl
  rw [expansion.eq_2 limit depth s hhash, if_neg (Nat.not_lt.2 h)]
  split
  · rfl
  · simp only
    split
    · rename_i op t hfind
      simp only [hfind, outcome, bind, Except.bind]
      cases words limit op.layout depth t with
      | error fault => rfl
      | ok args =>
        simp only [Except.map]
        cases closeBrace args.rest <;> rfl
    · rename_i hfind
      simp only [hfind]
      rfl
    · rename_i hfind
      simp only [hfind]
      split
      · rename_i hafter
        simp only [hafter]
        rfl
      · rename_i hbrace
        split
        · rename_i hafter
          exact (hbrace _ hafter).elim
        · rfl

end ShellExpansion.Parser
