import ShellExpansion.Proofs.Glob.Correctness

/-!
# Valid patterns

A pattern compiles unless one of its bracket expressions is written as a text that is no set
expression (`compile_eq_ok_iff`).  Of these texts some make the whole pattern invalid.  Others are of
the kind that is not read: a range runs into a set in brackets, and what follows stands outside of the
set.  A pattern is supported if it holds none of the second kind (`IsSupported`), and valid if it holds
none of the first (`IsValid`).

Patterns with plain bracket expressions, or with none, are both (`compiles_of_isPlain`,
`compiles_of_not_mem`); a backslash with a character that means nothing after it makes every pattern
invalid (`not_isValid_of_unknown`).
-/

namespace ShellExpansion.Glob

section

variable [Engine]

/-- No bracket expression of the pattern has a range that runs into a set in brackets, such as `\h` or
a named class. -/
def IsSupported (pattern : Text) : Prop :=
  ∀ pieces, Spells pattern pieces → ∀ inverted members, .bracket inverted members ∈ pieces →
    bracketSet inverted (members.flatMap Member.tokens) ≠ .error .rangeIntoSet

/-- There is nothing else that is wrong with a bracket expression of the pattern. -/
def IsValid (pattern : Text) : Prop :=
  ∀ pieces, Spells pattern pieces → ∀ inverted members, .bracket inverted members ∈ pieces →
    ∀ fault, bracketSet inverted (members.flatMap Member.tokens) = .error fault →
      fault = .rangeIntoSet

variable {pattern : Text} {pieces : List Piece} {inverted : Bool} {members : List Member}
  {fault : SetFault}

theorem bracketSet_nil (inverted : Bool) : bracketSet inverted [] ≠ .error fault := by
  have hset : setOf [] = .ok .empty := by
    simp only [setOf, setFrom]
    rfl
  cases inverted <;> simp [bracketSet, symbols, hset, bind, Except.bind, pure, Except.pure]

theorem step_eq_error_iff {piece : Piece} :
    piece.step = .error fault ↔ ∃ inverted members, piece = .bracket inverted members ∧
      bracketSet inverted (members.flatMap Member.tokens) = .error fault := by
  cases piece with
  | literal c | any | many =>
    constructor
    · intro h
      cases h
    · rintro ⟨inverted, members, hpiece, -⟩
      cases hpiece
  | bracket inverted members =>
    have hbracket : (∃ inverted' members',
        Piece.bracket inverted members = .bracket inverted' members' ∧
          bracketSet inverted' (members'.flatMap Member.tokens) = .error fault) ↔
        bracketSet inverted (members.flatMap Member.tokens) = .error fault := by
      constructor
      · rintro ⟨_, _, ⟨⟩, h⟩
        exact h
      · exact fun h => ⟨_, _, rfl, h⟩
    rw [hbracket]
    by_cases htokens : members.flatMap Member.tokens = []
    · rw [htokens]
      simp only [Piece.step, htokens]
      exact ⟨fun h => (by cases h), fun h => absurd h (bracketSet_nil inverted)⟩
    · rw [step_bracket htokens]
      cases bracketSet inverted (members.flatMap Member.tokens) with
      | ok set => exact ⟨fun h => (by cases h), fun h => (by cases h)⟩
      | error e =>
        exact ⟨fun h => congrArg _ (Except.error.inj h), fun h => congrArg _ (Except.error.inj h)⟩

/-- The first piece that has no step makes the pattern fail. -/
theorem exists_piece_of_mapM (h : pieces.mapM Piece.step = .error fault) :
    ∃ piece ∈ pieces, piece.step = .error fault := by
  induction pieces with
  | nil => cases h
  | cons piece pieces ih =>
    rw [List.mapM_cons] at h
    cases hstep : piece.step with
    | error e =>
      rw [hstep] at h
      cases h
      exact ⟨piece, List.mem_cons_self, hstep⟩
    | ok step =>
      cases hsteps : pieces.mapM Piece.step with
      | error e =>
        rw [hstep, hsteps] at h
        cases h
        obtain ⟨piece', hmem, hfault⟩ := ih hsteps
        exact ⟨piece', List.mem_cons_of_mem _ hmem, hfault⟩
      | ok steps =>
        rw [hstep, hsteps] at h
        cases h

theorem exists_step_of_mem {steps : List Step} {piece : Piece}
    (h : List.Forall₂ (fun piece step => Piece.step piece = .ok step) pieces steps)
    (hmem : piece ∈ pieces) : ∃ step, piece.step = .ok step := by
  induction h with
  | nil => cases hmem
  | cons hstep _ ih =>
    rcases List.mem_cons.1 hmem with rfl | hmem
    · exact ⟨_, hstep⟩
    · exact ih hmem

/-- A fault of a pattern is that of one of its bracket expressions. -/
theorem exists_bracket_of_compile (h : compile pattern = .error fault) :
    ∃ pieces inverted members, Spells pattern pieces ∧ .bracket inverted members ∈ pieces ∧
      bracketSet inverted (members.flatMap Member.tokens) = .error fault := by
  obtain ⟨piece, hmem, hstep⟩ := exists_piece_of_mapM h
  obtain ⟨inverted, members, rfl, hset⟩ := step_eq_error_iff.1 hstep
  exact ⟨read pattern, inverted, members, spells_iff.2 rfl, hmem, hset⟩

/-- In a pattern that compiles all bracket expressions do. -/
theorem bracketSet_of_compile {steps : List Step} (hsteps : compile pattern = .ok steps)
    (hspells : Spells pattern pieces) (hmem : .bracket inverted members ∈ pieces) :
    bracketSet inverted (members.flatMap Member.tokens) ≠ .error fault := by
  intro hset
  rw [← spells_iff.1 hspells] at hmem
  obtain ⟨step, hstep⟩ := exists_step_of_mem (forall₂_step hsteps) hmem
  rw [step_eq_error_iff.2 ⟨inverted, members, rfl, hset⟩] at hstep
  cases hstep

/-- A pattern compiles if and only if it is supported and valid. -/
theorem compile_eq_ok_iff :
    (∃ steps, compile pattern = .ok steps) ↔ IsSupported pattern ∧ IsValid pattern := by
  constructor
  · rintro ⟨steps, hsteps⟩
    refine ⟨fun pieces hspells inverted members hmem => bracketSet_of_compile hsteps hspells hmem,
      fun pieces hspells inverted members hmem fault hset => ?_⟩
    exact absurd hset (bracketSet_of_compile hsteps hspells hmem)
  · rintro ⟨hsupported, hvalid⟩
    cases hcompile : compile pattern with
    | ok steps => exact ⟨steps, rfl⟩
    | error fault =>
      obtain ⟨pieces, inverted, members, hspells, hmem, hset⟩ := exists_bracket_of_compile hcompile
      obtain rfl := hvalid pieces hspells inverted members hmem fault hset
      exact absurd hset (hsupported pieces hspells inverted members hmem)

theorem compiles_of_isPlain
    (hplain : ∀ pieces, Spells pattern pieces → ∀ piece ∈ pieces, piece.IsPlain) :
    IsSupported pattern ∧ IsValid pattern := by
  obtain ⟨steps, hsteps, -⟩ := mapM_step_of_isPlain (hplain _ (spells_iff.2 rfl))
  exact compile_eq_ok_iff.1 ⟨steps, hsteps⟩

end

/-! ## Letters without a meaning -/

section

theorem exists_plain_of_hexDigit? {token : SetToken} (h : (hexDigit? token).isSome = true) :
    ∃ c, token = .plain c := by
  cases token with
  | plain c => exact ⟨c, rfl⟩
  | escaped c => cases h
  | named cls => cases h

/-- The tokens of something in braces are the braces and the tokens between them. -/
theorem mem_take_braces {p : SetToken → Bool} {token : SetToken} {rest after : List SetToken}
    (hclose : rest.drop (rest.takeWhile p).length = .plain '}' :: after)
    (h : token ∈ (SetToken.plain '{' :: rest).take ((rest.takeWhile p).length + 2)) :
    token = .plain '{' ∨ token ∈ rest.takeWhile p ∨ token = .plain '}' := by
  generalize hinside : rest.takeWhile p = inside at hclose h ⊢
  have hsplit : rest = inside ++ .plain '}' :: after := by
    rw [← hclose]
    exact (List.prefix_iff_eq_append.1 (hinside ▸ List.takeWhile_prefix p)).symm
  rw [List.take_succ_cons, hsplit, List.take_length_add_append] at h
  simpa only [List.mem_cons, List.mem_append, List.take_succ_cons, List.take_zero, List.not_mem_nil,
    or_false] using h

/-- A code point is written in plain tokens. -/
theorem exists_plain_of_codePoint? {digits used : Nat} {tokens : List SetToken} {c : Char}
    (h : codePoint? digits tokens = some (c, used)) :
    ∀ token ∈ tokens.take used, ∃ d, token = .plain d := by
  unfold codePoint? at h
  simp only at h
  split at h
  · rename_i hdigits
    rw [Bool.and_eq_true, List.all_eq_true] at hdigits
    obtain ⟨d, -, heq⟩ := Option.map_eq_some_iff.1 h
    cases heq
    intro token htoken
    exact exists_plain_of_hexDigit? (hdigits.2 token htoken)
  · split at h
    · rename_i rest hnot
      split at h
      · rename_i t hrest
        split at h
        · cases h
        · obtain ⟨d, -, heq⟩ := Option.map_eq_some_iff.1 h
          cases heq
          intro token htoken
          rcases mem_take_braces hrest htoken with rfl | hmem | rfl
          · exact ⟨_, rfl⟩
          · exact exists_plain_of_hexDigit? (List.all_eq_true.1 List.all_takeWhile token hmem)
          · exact ⟨_, rfl⟩
      · cases h
    · cases h

/-- The tokens of a text without backslashes are plain. -/
theorem exists_plain_of_mapM {tokens : List SetToken} {name : Text}
    (h : tokens.mapM SetToken.plain? = some name) : ∀ token ∈ tokens, ∃ d, token = .plain d := by
  induction tokens generalizing name with
  | nil => nofun
  | cons token tokens ih =>
    rw [List.mapM_cons] at h
    cases token with
    | plain d =>
      cases hrest : tokens.mapM SetToken.plain? with
      | none =>
        rw [hrest] at h
        cases h
      | some rest => exact List.forall_mem_cons.2 ⟨⟨d, rfl⟩, ih hrest⟩
    | escaped d => cases h
    | named cls => cases h

/-- The name of a property is written in plain tokens. -/
theorem exists_plain_of_propertyName? {used : Nat} {tokens : List SetToken} {name : Text}
    (h : propertyName? tokens = some (name, used)) :
    ∀ token ∈ tokens.take used, ∃ d, token = .plain d := by
  unfold propertyName? at h
  split at h
  · rename_i rest
    simp only at h
    split at h
    · rename_i t hrest
      obtain ⟨_, hname, ⟨⟩⟩ := Option.map_eq_some_iff.1 h
      intro token htoken
      rcases mem_take_braces hrest htoken with rfl | hmem | rfl
      · exact ⟨_, rfl⟩
      · exact exists_plain_of_mapM hname token hmem
      · exact ⟨_, rfl⟩
    · cases h
  · rename_i c rest _
    cases h
    intro token htoken
    obtain rfl := List.mem_singleton.1 htoken
    exact ⟨_, rfl⟩
  · cases h

variable [Engine]

/-- An escape is written in its own token and plain ones. -/
theorem exists_plain_of_escapeSymbol {c : Char} {tokens : List SetToken} {s : SetSymbol} {used : Nat}
    (h : escapeSymbol c tokens = .ok (s, used)) :
    ∀ token ∈ tokens.take used, ∃ d, token = .plain d := by
  unfold escapeSymbol at h
  split at h
  · cases h
  · cases h
    nofun
  · split at h
    · cases h
    · rename_i hpoint
      cases h
      exact exists_plain_of_codePoint? hpoint
  · split at h
    · cases h
    · rename_i hname
      split at h
      · cases h
      · cases h
        exact exists_plain_of_propertyName? hname

theorem ne_rangeIntoSet_of_escapeSymbol {c : Char} {tokens : List SetToken} {fault : SetFault}
    (h : escapeSymbol c tokens = .error fault) : fault ≠ .rangeIntoSet := by
  unfold escapeSymbol at h
  split at h
  · cases h
    nofun
  · cases h
  · split at h <;> cases h
    nofun
  · split at h
    · cases h
      nofun
    · split at h <;> cases h
      nofun

/-- A character that means nothing after a backslash is never passed over. -/
theorem symbols_of_unknown {tokens : List SetToken} {c : Char} (hmem : .escaped c ∈ tokens)
    (hc : escape c = .unknown) :
    ∃ fault, symbols tokens = .error fault ∧ fault ≠ .rangeIntoSet := by
  fun_induction symbols tokens with
  | case1 => cases hmem
  | case2 d tokens ih =>
    have hne : SetToken.escaped c ≠ .plain d := by
      intro h
      cases h
    obtain ⟨fault, hfault, hkind⟩ := ih (List.mem_of_ne_of_mem hne hmem)
    exact ⟨fault, by rw [hfault]; rfl, hkind⟩
  | case3 cls tokens ih =>
    have hne : SetToken.escaped c ≠ .named cls := by
      intro h
      cases h
    obtain ⟨fault, hfault, hkind⟩ := ih (List.mem_of_ne_of_mem hne hmem)
    exact ⟨fault, by rw [hfault]; rfl, hkind⟩
  | case4 d tokens fault hfault => exact ⟨fault, rfl, ne_rangeIntoSet_of_escapeSymbol hfault⟩
  | case5 d tokens s used hsymbol ih =>
    have hne : SetToken.escaped c ≠ .escaped d := by
      rintro ⟨rfl⟩
      rw [escapeSymbol, hc] at hsymbol
      cases hsymbol
    -- the other tokens of an escape hold no backslash, so this one stands after them
    have hdrop : .escaped c ∈ tokens.drop used := by
      have hsplit := List.mem_of_ne_of_mem hne hmem
      rw [← List.take_append_drop used tokens, List.mem_append] at hsplit
      refine hsplit.resolve_left fun htake => ?_
      obtain ⟨f, hf⟩ := exists_plain_of_escapeSymbol hsymbol _ htake
      cases hf
    obtain ⟨fault, hfault, hkind⟩ := ih hdrop
    exact ⟨fault, by rw [hfault]; rfl, hkind⟩

/-- A pattern is not valid if one of its bracket expressions holds a backslash with a character that
means nothing after it. -/
theorem not_isValid_of_unknown {pattern : Text} {pieces : List Piece} {inverted : Bool}
    {members : List Member} {c : Char} (hspells : Spells pattern pieces)
    (hpiece : .bracket inverted members ∈ pieces)
    (hmem : .escaped c ∈ members.flatMap Member.tokens) (hc : escape c = .unknown) :
    ¬ IsValid pattern := by
  intro hvalid
  obtain ⟨fault, hfault, hkind⟩ := symbols_of_unknown hmem hc
  refine hkind (hvalid pieces hspells inverted members hpiece fault ?_)
  rw [bracketSet, hfault]
  rfl

end

end ShellExpansion.Glob
