import ShellExpansion.Glob.Reader

/-!
# What a pattern is made of

`Spells text pieces` says which pieces a text is a pattern of, without a reader: wildcards, escapes,
bracket expressions, and characters that stand for themselves because nothing else begins with them.

Main results:

* `readBracket?_eq_some_iff` : the reader finds the bracket expressions that there are.
* `spells_iff` : **every text spells exactly one list of pieces, the one that is read.**
-/

namespace ShellExpansion.Glob

/-! ## Bracket expressions -/

/-- A character of a bracket expression at the start of a text, and the text after it.  A backslash
stands for itself only if nothing follows it. -/
inductive IsEndpoint : Text → Endpoint → Text → Prop
  | escaped {c : Char} {rest : Text} : IsEndpoint ('\\' :: c :: rest) ⟨true, c⟩ rest
  | plain {c : Char} {rest : Text} (hclose : c ≠ ']') (hescape : c = '\\' → rest = []) :
      IsEndpoint (c :: rest) ⟨false, c⟩ rest

/-- A named class stands at the start of the text. -/
def StartsClass (s : Text) : Prop := ∃ cls : ClassName, cls.spelling <+: s

/-- A member of a bracket expression at the start of a text, and the text after it.  A class comes
before a range, and a range before a character. -/
inductive IsMember : Text → Member → Text → Prop
  | named {cls : ClassName} {rest : Text} : IsMember (cls.spelling ++ rest) (.named cls) rest
  | range {s t rest : Text} {first last : Endpoint} (hclass : ¬ StartsClass s)
      (hfirst : IsEndpoint s first ('-' :: t)) (hlast : IsEndpoint t last rest) :
      IsMember s (.range first last) rest
  | single {s rest : Text} {e : Endpoint} (hclass : ¬ StartsClass s) (hchar : IsEndpoint s e rest)
      (hrange : ∀ t last rest', rest = '-' :: t → ¬ IsEndpoint t last rest') :
      IsMember s (.single e) rest

/-- Members one after the other, and the text after them. -/
inductive AreMembers : Text → List Member → Text → Prop
  | nil {s : Text} : AreMembers s [] s
  | cons {s t rest : Text} {m : Member} {members : List Member} (head : IsMember s m t)
      (tail : AreMembers t members rest) : AreMembers s (m :: members) rest

/-- A bracket expression at the start of a text, and the text after it: at least one member between
the brackets, possibly after a sign of inversion. -/
inductive IsBracket : Text → Piece → Text → Prop
  | plain {body rest : Text} {members : List Member} (hsign : ∀ c ∈ body.head?, c ≠ '!' ∧ c ≠ '^')
      (hne : members ≠ []) (hbody : AreMembers body members (']' :: rest)) :
      IsBracket ('[' :: body) (.bracket false members) rest
  | inverted {sign : Char} {body rest : Text} {members : List Member}
      (hsign : sign = '!' ∨ sign = '^') (hne : members ≠ [])
      (hbody : AreMembers body members (']' :: rest)) :
      IsBracket ('[' :: sign :: body) (.bracket true members) rest

/-! ## Patterns -/

/-- The pieces that a text is a pattern of. -/
inductive Spells : Text → List Piece → Prop
  | nil : Spells [] []
  | many {s : Text} {pieces : List Piece} (tail : Spells s pieces) :
      Spells ('*' :: s) (.many :: pieces)
  | any {s : Text} {pieces : List Piece} (tail : Spells s pieces) :
      Spells ('?' :: s) (.any :: pieces)
  | escaped {c : Char} {s : Text} {pieces : List Piece} (tail : Spells s pieces) :
      Spells ('\\' :: c :: s) (.literal c :: pieces)
  | bracket {s rest : Text} {piece : Piece} {pieces : List Piece} (head : IsBracket s piece rest)
      (tail : Spells rest pieces) : Spells s (piece :: pieces)
  /-- A character stands for itself if nothing else begins with it. -/
  | literal {c : Char} {s : Text} {pieces : List Piece} (hwildcard : c ≠ '*' ∧ c ≠ '?')
      (hescape : c = '\\' → s = []) (hbracket : ∀ piece rest, ¬ IsBracket (c :: s) piece rest)
      (tail : Spells s pieces) : Spells (c :: s) (.literal c :: pieces)

/-! ## The readers -/

variable {s rest : Text}

theorem readEndpoint?_eq_some_iff {e : Endpoint} :
    readEndpoint? s = some (e, rest) ↔ IsEndpoint s e rest := by
  constructor
  · intro h
    unfold readEndpoint? at h
    split at h
    · cases h
      exact .escaped
    · cases h
    · rename_i c t hescape hclose
      cases h
      refine .plain (fun hc => hclose (by rw [hc])) (fun hc => ?_)
      subst hc
      cases rest with
      | nil => rfl
      | cons d rest => exact (hescape d rest rfl rfl).elim
    · cases h
  · intro h
    cases h with
    | escaped => rfl
    | @plain c rest hclose hescape =>
      by_cases hc : c = '\\'
      · subst hc
        rw [hescape rfl]
        rfl
      · unfold readEndpoint?
        split <;> simp_all

theorem readEndpoint?_eq_none_iff :
    readEndpoint? s = none ↔ ∀ e rest, ¬ IsEndpoint s e rest := by
  constructor
  · intro h e rest hend
    rw [readEndpoint?_eq_some_iff.2 hend] at h
    cases h
  · intro h
    cases hread : readEndpoint? s with
    | none => rfl
    | some found => exact (h found.1 found.2 (readEndpoint?_eq_some_iff.1 hread)).elim

/-- At most one class stands at the start of a text. -/
theorem eq_of_spelling_prefix {cls cls' : ClassName} (h : cls.spelling <+: s)
    (h' : cls'.spelling <+: s) : cls = cls' := by
  have hpair : cls.spelling <+: cls'.spelling ∨ cls'.spelling <+: cls.spelling :=
    List.prefix_or_prefix_of_prefix h h'
  revert hpair
  clear h h'
  cases cls <;> cases cls' <;> decide

theorem ClassName.mem_all (cls : ClassName) : cls ∈ ClassName.all := by
  cases cls <;> decide

theorem readClass?_sound {cls : ClassName} (h : readClass? s = some (cls, rest)) :
    s = cls.spelling ++ rest := by
  obtain ⟨cls', -, hcls⟩ := List.exists_of_findSome?_eq_some h
  split at hcls
  · rename_i hprefix
    cases hcls
    exact (List.prefix_iff_eq_append.1 (List.isPrefixOf_iff_prefix.1 hprefix)).symm
  · cases hcls

theorem readClass?_eq_some_iff {cls : ClassName} :
    readClass? s = some (cls, rest) ↔ s = cls.spelling ++ rest := by
  refine ⟨readClass?_sound, fun h => ?_⟩
  cases hread : readClass? s with
  | none =>
    have hnone := List.findSome?_eq_none_iff.1 hread cls cls.mem_all
    have hprefix : cls.spelling.isPrefixOf s = true := by
      rw [h]
      exact List.isPrefixOf_iff_prefix.2 (List.prefix_append _ _)
    rw [if_pos hprefix] at hnone
    cases hnone
  | some found =>
    obtain ⟨cls', rest'⟩ := found
    have hsplit := readClass?_sound hread
    obtain rfl : cls = cls' :=
      eq_of_spelling_prefix ⟨rest, h.symm⟩ ⟨rest', hsplit.symm⟩
    rw [List.append_cancel_left (h.symm.trans hsplit)]

theorem readClass?_eq_none_iff : readClass? s = none ↔ ¬ StartsClass s := by
  constructor
  · rintro h ⟨cls, rest, hsplit⟩
    rw [readClass?_eq_some_iff.2 hsplit.symm] at h
    cases h
  · intro h
    cases hread : readClass? s with
    | none => rfl
    | some found =>
      exact (h ⟨found.1, found.2, (readClass?_eq_some_iff.1 hread).symm⟩).elim

theorem readMember?_eq_some_iff {m : Member} :
    readMember? s = some (m, rest) ↔ IsMember s m rest := by
  constructor
  · intro h
    unfold readMember? at h
    split at h
    · rename_i cls t hclass
      cases h
      rw [readClass?_eq_some_iff.1 hclass]
      exact .named
    · rename_i hclass
      rw [readClass?_eq_none_iff] at hclass
      split at h
      · cases h
      · rename_i first t hfirst
        rw [readEndpoint?_eq_some_iff] at hfirst
        split at h
        · rename_i last t' hlast
          cases h
          exact .range hclass hfirst (readEndpoint?_eq_some_iff.1 hlast)
        · rename_i hlast
          cases h
          refine .single hclass hfirst fun u last rest' hu => ?_
          cases hu
          exact readEndpoint?_eq_none_iff.1 hlast last rest'
      · rename_i e t hhyphen hchar
        cases h
        exact .single hclass (readEndpoint?_eq_some_iff.1 hchar) fun u _ _ hu => (hhyphen u hu).elim
  · intro h
    cases h with
    | named => rw [readMember?, readClass?_eq_some_iff.2 rfl]
    | range hclass hfirst hlast =>
      rw [readMember?, readClass?_eq_none_iff.2 hclass, readEndpoint?_eq_some_iff.2 hfirst]
      simp only [readEndpoint?_eq_some_iff.2 hlast]
    | single hclass hchar hrange =>
      rw [readMember?, readClass?_eq_none_iff.2 hclass, readEndpoint?_eq_some_iff.2 hchar]
      cases rest with
      | nil => rfl
      | cons c t =>
        by_cases hhyphen : c = '-'
        · subst hhyphen
          simp only [readEndpoint?_eq_none_iff.2 fun last rest' => hrange t last rest' rfl]
        · split <;> simp_all

/-- The members that are read are there. -/
theorem areMembers_readMembers (s : Text) : AreMembers s (readMembers s).1 (readMembers s).2 := by
  fun_induction readMembers s with
  | case1 s hnone => exact .nil
  | case2 s m t hsome hlt members rest heq ih =>
    rw [heq] at ih
    exact .cons (readMember?_eq_some_iff.1 hsome) ih

/-- Members are read up to the first closing bracket that is no part of one. -/
theorem readMembers_of_areMembers {members : List Member}
    (h : AreMembers s members (']' :: rest)) : readMembers s = (members, ']' :: rest) := by
  generalize hend : ']' :: rest = final at h
  induction h with
  | nil =>
    subst hend
    have hnone : readMember? (']' :: rest) = none := by
      have hclass : ¬ StartsClass (']' :: rest) := by
        rintro ⟨cls, t, ht⟩
        cases ht
      rw [readMember?, readClass?_eq_none_iff.2 hclass]
      rfl
    rw [readMembers]
    split
    · rfl
    · rename_i hsome
      rw [hnone] at hsome
      cases hsome
  | cons head tail ih =>
    have hread := readMember?_eq_some_iff.2 head
    rw [readMembers]
    split
    · rename_i hnone
      rw [hnone] at hread
      cases hread
    · rename_i m t hsome
      rw [hsome] at hread
      cases hread
      rw [ih hend]

theorem readInversion_of_sign {sign : Char} (h : sign = '!' ∨ sign = '^') (s : Text) :
    readInversion (sign :: s) = (true, s) := by
  rcases h with rfl | rfl <;> rfl

theorem readInversion_of_no_sign (h : ∀ c ∈ s.head?, c ≠ '!' ∧ c ≠ '^') :
    readInversion s = (false, s) := by
  unfold readInversion
  split
  · exact ((h '!' rfl).1 rfl).elim
  · exact ((h '^' rfl).2 rfl).elim
  · rfl

/-- What follows the sign decides whether there is a bracket expression. -/
theorem readBracket?_eq_some_iff_members {piece : Piece} :
    readBracket? s = some (piece, rest) ↔
      ∃ members, members ≠ [] ∧ piece = .bracket (readInversion s).1 members ∧
        AreMembers (readInversion s).2 members (']' :: rest) := by
  constructor
  · intro h
    have hread := areMembers_readMembers (readInversion s).2
    simp only [readBracket?] at h
    split at h
    · rename_i m members t heq
      cases h
      rw [heq] at hread
      exact ⟨m :: members, List.cons_ne_nil _ _, rfl, hread⟩
    · cases h
  · rintro ⟨members, hne, rfl, hbody⟩
    obtain ⟨m, members, rfl⟩ := List.exists_cons_of_ne_nil hne
    simp only [readBracket?, readMembers_of_areMembers hbody]

theorem readBracket?_eq_some_iff {piece : Piece} :
    readBracket? s = some (piece, rest) ↔ IsBracket ('[' :: s) piece rest := by
  rw [readBracket?_eq_some_iff_members]
  constructor
  · rintro ⟨members, hne, rfl, hbody⟩
    by_cases hsign : ∀ c ∈ s.head?, c ≠ '!' ∧ c ≠ '^'
    · rw [readInversion_of_no_sign hsign] at hbody ⊢
      exact .plain hsign hne hbody
    · obtain ⟨sign, t, rfl, hsign'⟩ : ∃ sign t, s = sign :: t ∧ (sign = '!' ∨ sign = '^') := by
        cases s with
        | nil => exact (hsign fun c hc => by cases hc).elim
        | cons sign t =>
          refine ⟨sign, t, rfl, ?_⟩
          by_cases hno : sign = '!' ∨ sign = '^'
          · exact hno
          · refine (hsign fun c hc => ?_).elim
            cases hc
            exact not_or.1 hno
      rw [readInversion_of_sign hsign'] at hbody ⊢
      exact .inverted hsign' hne hbody
  · intro h
    cases h with
    | plain hsign hne hbody =>
      rw [readInversion_of_no_sign hsign]
      exact ⟨_, hne, rfl, hbody⟩
    | inverted hsign hne hbody =>
      rw [readInversion_of_sign hsign]
      exact ⟨_, hne, rfl, hbody⟩

theorem not_isBracket {c : Char} (hc : c ≠ '[') {piece : Piece} :
    ¬ IsBracket (c :: s) piece rest := by
  intro h
  cases h <;> exact hc rfl

theorem read_of_isBracket {piece : Piece} (h : IsBracket s piece rest) :
    read s = piece :: read rest := by
  obtain ⟨t, rfl⟩ : ∃ t, s = '[' :: t := by
    cases h <;> exact ⟨_, rfl⟩
  have hread := readBracket?_eq_some_iff.2 h
  rw [read]
  split
  · rename_i heq
    rw [heq] at hread
    cases hread
    rfl
  · rename_i heq
    rw [heq] at hread
    cases hread

theorem read_of_literal {c : Char} (hwildcard : c ≠ '*' ∧ c ≠ '?') (hescape : c = '\\' → s = [])
    (hbracket : ∀ piece rest, ¬ IsBracket (c :: s) piece rest) :
    read (c :: s) = .literal c :: read s := by
  by_cases hopen : c = '['
  · subst hopen
    rw [read]
    split
    · rename_i heq
      exact (hbracket _ _ (readBracket?_eq_some_iff.1 heq)).elim
    · rfl
  · rw [read]
    · rintro d t rfl hd
      cases hescape rfl
      cases hd
    · exact hwildcard.2
    · exact hwildcard.1
    · exact hopen

/-- **Every text spells exactly one list of pieces, the one that is read.** -/
theorem spells_iff {pieces : List Piece} : Spells s pieces ↔ read s = pieces := by
  constructor
  · intro h
    induction h with
    | nil => rw [read]
    | many tail ih => rw [read, ih]
    | any tail ih => rw [read, ih]
    | escaped tail ih => rw [read, ih]
    | bracket head tail ih => rw [read_of_isBracket head, ih]
    | literal hwildcard hescape hbracket tail ih =>
      rw [read_of_literal hwildcard hescape hbracket, ih]
  · rintro rfl
    fun_induction read s with
    | case1 => exact .nil
    | case2 c s ih => exact .escaped ih
    | case3 s ih => exact .any ih
    | case4 s ih => exact .many ih
    | case5 s piece rest hsome hlt ih => exact .bracket (readBracket?_eq_some_iff.1 hsome) ih
    | case6 s hnone ih =>
      have hescape : '[' ≠ '\\' := by decide
      refine .literal (by decide) (fun hc => absurd hc hescape) (fun piece rest hbracket => ?_) ih
      rw [readBracket?_eq_some_iff.2 hbracket] at hnone
      cases hnone
    | case7 c s hescape hany hmany hopen ih =>
      refine .literal ⟨hmany, hany⟩ (fun hc => ?_) (fun piece rest => not_isBracket hopen) ih
      cases s with
      | nil => rfl
      | cons d t => exact (hescape d t hc rfl).elim

end ShellExpansion.Glob
