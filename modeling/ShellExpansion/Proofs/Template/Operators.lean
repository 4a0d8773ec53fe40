import ShellExpansion.Proofs.Template.Grammar

/-!
# The longest operator

`Operator.find` finds the operator that the grammar asks for: the longest one of the lists
`wordOperators` and `replaceOperators`, a case operator in front of a brace, and the colon of a
slice.  What is longest depends on one more character only (`isLongest_word_iff`,
`isLongest_replace_iff`).
-/

namespace ShellExpansion.Grammar

variable {op : Operator} {after rest s : Text}

/-! ## What is longest -/

/-- The longest operator is the one that no longer spelling of the list completes. -/
theorem isLongest_iff {operators : List Operator} :
    IsLongest operators op after ↔
      op ∈ operators ∧ ∀ other ∈ operators, op.spelling <+: other.spelling →
        op.spelling.length < other.spelling.length → ¬ other.spelling <+: op.spelling ++ after := by
  constructor
  · rintro ⟨hmem, hmax⟩
    exact ⟨hmem, fun other hother _ hlt hprefix => absurd (hmax other hother hprefix) (by omega)⟩
  · rintro ⟨hmem, hnone⟩
    refine ⟨hmem, fun other hother hprefix => Nat.le_of_not_lt fun hlt => ?_⟩
    have hpre : op.spelling <+: other.spelling :=
      List.prefix_of_prefix_length_le (List.prefix_append _ _) hprefix (Nat.le_of_lt hlt)
    exact hnone other hother hpre hlt hprefix

theorem wordOperators_extend : ∀ op ∈ wordOperators, ∀ other ∈ wordOperators,
    op.spelling <+: other.spelling → op.spelling.length < other.spelling.length →
      op = .trim .start .shortest ∧ other = .trim .start .longest
        ∨ op = .trim .finish .shortest ∧ other = .trim .finish .longest := by
  decide

theorem replaceOperators_extend : ∀ op ∈ replaceOperators, ∀ other ∈ replaceOperators,
    op.spelling <+: other.spelling → op.spelling.length < other.spelling.length →
      op = .replace .first ∧ other ∈ [.replace .everywhere, .replace .start, .replace .finish] := by
  decide

theorem head?_eq_some {c : Char} : after.head? = some c ↔ [c] <+: after := by
  cases after <;> simp [eq_comm]

/-- Two characters stand at a place where the first one does and the second one follows. -/
theorem pair_prefix_iff {c d : Char} : [c, d] <+: [c] ++ after ↔ after.head? = some d := by
  rw [head?_eq_some]
  exact List.prefix_append_right_inj [c]

/-- Among the operators with a word only the sign of a trim can be doubled. -/
theorem isLongest_word_iff :
    IsLongest wordOperators op after ↔
      op ∈ wordOperators ∧ ∀ side, op = .trim side .shortest → after.head? ≠ some side.mark := by
  rw [isLongest_iff]
  refine and_congr_right fun hmem => ⟨?_, ?_⟩
  · rintro hnone side rfl hhead
    refine hnone (.trim side .longest) (by cases side <;> simp [wordOperators]) ?_ ?_ ?_
    · simp [Operator.spelling]
    · simp [Operator.spelling]
    · exact pair_prefix_iff.2 hhead
  · intro hshort other hother hpre hlt hprefix
    rcases wordOperators_extend op hmem other hother hpre hlt with ⟨rfl, rfl⟩ | ⟨rfl, rfl⟩
    · exact hshort .start rfl (pair_prefix_iff.1 hprefix)
    · exact hshort .finish rfl (pair_prefix_iff.1 hprefix)

/-- Among the operators with a pattern only the single slash can be completed. -/
theorem isLongest_replace_iff :
    IsLongest replaceOperators op after ↔
      op ∈ replaceOperators ∧
        (op = .replace .first → ∀ c ∈ after.head?, c ∉ ['/', '#', '%']) := by
  rw [isLongest_iff]
  refine and_congr_right fun hmem => ⟨?_, ?_⟩
  · rintro hnone rfl c hc hmark
    simp only [List.mem_cons, List.not_mem_nil, or_false] at hmark
    rcases hmark with rfl | rfl | rfl
    · exact hnone (.replace .everywhere) (by decide) (by decide) (by decide)
        (pair_prefix_iff.2 hc)
    · exact hnone (.replace .start) (by decide) (by decide) (by decide) (pair_prefix_iff.2 hc)
    · exact hnone (.replace .finish) (by decide) (by decide) (by decide) (pair_prefix_iff.2 hc)
  · intro hfirst other hother hpre hlt hprefix
    obtain ⟨rfl, hmem'⟩ := replaceOperators_extend op hmem other hother hpre hlt
    simp only [List.mem_cons, List.not_mem_nil, or_false] at hmem'
    rcases hmem' with rfl | rfl | rfl
    · exact hfirst rfl '/' (pair_prefix_iff.1 hprefix) (by decide)
    · exact hfirst rfl '#' (pair_prefix_iff.1 hprefix) (by decide)
    · exact hfirst rfl '%' (pair_prefix_iff.1 hprefix) (by decide)

theorem isLongest_word_congr {after' : Text} (h : after.head? = after'.head?) :
    IsLongest wordOperators op after ↔ IsLongest wordOperators op after' := by
  rw [isLongest_word_iff, isLongest_word_iff, h]

theorem isLongest_replace_congr {after' : Text} (h : after.head? = after'.head?) :
    IsLongest replaceOperators op after ↔ IsLongest replaceOperators op after' := by
  rw [isLongest_replace_iff, isLongest_replace_iff, h]

/-! ## What is found -/

theorem layout_of_mem_wordOperators : ∀ op ∈ wordOperators, op.layout = .word := by
  decide

theorem layout_of_mem_replaceOperators : ∀ op ∈ replaceOperators, op.layout = .replacement := by
  decide

theorem layout_of_mem_caseOperators : ∀ op ∈ caseOperators, op.layout = .bare := by
  decide

theorem find_hash (h : after.head? ≠ some '#') :
    Operator.find ('#' :: after) = .operator (.trim .start .shortest) after := by
  rw [Operator.find]
  rintro t rfl
  exact h rfl

theorem find_percent (h : after.head? ≠ some '%') :
    Operator.find ('%' :: after) = .operator (.trim .finish .shortest) after := by
  rw [Operator.find]
  rintro t rfl
  exact h rfl

theorem find_slash (h : ∀ c ∈ after.head?, c ∉ ['/', '#', '%']) :
    Operator.find ('/' :: after) = .operator (.replace .first) after := by
  rw [Operator.find]
  all_goals
    rintro t rfl
    exact h _ rfl (by simp)

theorem find_colon (h : ∀ c ∈ after.head?, c ∉ ['=', '-', '?', '+']) :
    Operator.find (':' :: after) = .operator .slice after := by
  rw [Operator.find]
  all_goals
    rintro t rfl
    exact h _ rfl (by simp)

theorem find_of_isLongest_word (h : IsLongest wordOperators op after) :
    Operator.find (op.spelling ++ after) = .operator op after := by
  obtain ⟨hmem, hshort⟩ := isLongest_word_iff.1 h
  simp only [wordOperators, List.mem_cons, List.not_mem_nil, or_false] at hmem
  rcases hmem with rfl | rfl | rfl | rfl | rfl | rfl | rfl | rfl | rfl | rfl | rfl | rfl
  case inr.inr.inr.inr.inr.inr.inr.inr.inl => exact find_hash (hshort .start rfl)
  case inr.inr.inr.inr.inr.inr.inr.inr.inr.inr.inl => exact find_percent (hshort .finish rfl)
  all_goals rfl

theorem find_of_isLongest_replace (h : IsLongest replaceOperators op after) :
    Operator.find (op.spelling ++ after) = .operator op after := by
  obtain ⟨hmem, hfirst⟩ := isLongest_replace_iff.1 h
  simp only [replaceOperators, List.mem_cons, List.not_mem_nil, or_false] at hmem
  rcases hmem with rfl | rfl | rfl | rfl
  · exact find_slash (hfirst rfl)
  all_goals rfl

theorem find_of_mem_caseOperators (h : op ∈ caseOperators) (s : Text) :
    Operator.find (op.spelling ++ '}' :: s) = .operator op ('}' :: s) := by
  simp only [caseOperators, List.mem_cons, List.not_mem_nil, or_false] at h
  rcases h with rfl | rfl | rfl | rfl <;> rfl

/-- What `Operator.find` finds, by the layout of its words. -/
theorem find_eq_operator (h : Operator.find s = .operator op rest) :
    match op.layout with
    | .bare => op ∈ caseOperators
    | .word => IsLongest wordOperators op rest
    | .fields => op = .slice ∧ ∀ c ∈ rest.head?, c ∉ ['=', '-', '?', '+']
    | .replacement => IsLongest replaceOperators op rest := by
  unfold Operator.find at h
  split at h <;> cases h
  all_goals simp only [Operator.layout, isLongest_word_iff, isLongest_replace_iff]
  case h_5.refl hminus hequals hquestion hplus =>
    refine ⟨trivial, fun c hc hmem => ?_⟩
    obtain ⟨t, rfl⟩ := head?_eq_some.1 hc
    simp only [List.mem_cons, List.not_mem_nil, or_false] at hmem
    rcases hmem with rfl | rfl | rfl | rfl
    · exact hequals t rfl
    · exact hminus t rfl
    · exact hquestion t rfl
    · exact hplus t rfl
  case h_19.refl hslash hhash hpercent =>
    refine ⟨by decide, fun _ c hc hmem => ?_⟩
    obtain ⟨t, rfl⟩ := head?_eq_some.1 hc
    simp only [List.mem_cons, List.not_mem_nil, or_false] at hmem
    rcases hmem with rfl | rfl | rfl
    · exact hslash t rfl
    · exact hhash t rfl
    · exact hpercent t rfl
  case h_21.refl hhash =>
    refine ⟨by decide, ?_⟩
    intro side hside hhead
    cases hside
    obtain ⟨t, rfl⟩ := head?_eq_some.1 hhead
    exact hhash t rfl
  case h_23.refl hpercent =>
    refine ⟨by decide, ?_⟩
    intro side hside hhead
    cases hside
    obtain ⟨t, rfl⟩ := head?_eq_some.1 hhead
    exact hpercent t rfl
  all_goals simp [wordOperators, replaceOperators, caseOperators]

/-- No operator can be taken for more of the name. -/
theorem not_nameFollows_of_find (h : Operator.find s = .operator op rest) : ¬ NameFollows s := by
  have hspelling : ∀ c ∈ op.spelling.head?, isNameChar c = false := by
    rcases op with
      _ | _ | _ | _ | _ | _ | ⟨_ | _, _ | _⟩ | _ | ⟨_ | _⟩ | ⟨_ | _⟩ | ⟨_ | _⟩ | ⟨_ | _⟩
    all_goals
      intro c hc
      cases hc
      decide
  rintro ⟨c, hc, hname⟩
  obtain ⟨d, spelling, hcons⟩ := List.exists_cons_of_ne_nil op.spelling_ne_nil
  rw [Operator.eq_append_of_find h, hcons] at hc
  cases hc
  rw [hspelling c (by rw [hcons]; rfl)] at hname
  cases hname

end ShellExpansion.Grammar
