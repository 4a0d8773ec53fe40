import ShellExpansion.Proofs.Glob.PlainBrackets
import ShellExpansion.Proofs.Glob.Reading

/-!
# What the regular expression of a pattern means

`Accepts` gives regular expressions their standard meaning, for as much of their syntax as patterns
with plain bracket expressions are written in: characters, escaped ones, `.` and `.*` where a
newline is a character like others, and classes in brackets.  `accepts_regex_iff` says that the text
which is written for a pattern means what its pieces take.  In particular every character that the
syntax gives a meaning is escaped, and nothing that is left out changes what stands beside it.
-/

namespace ShellExpansion.Glob

/-! ## The standard meaning -/

/-- The characters that have a meaning outside brackets. -/
def metacharacters : List Char :=
  ['\\', '.', '+', '*', '?', '(', ')', '|', '[', ']', '{', '}', '^', '$']

/-- The text goes on with a repetition of what stands before it. -/
def Repeats (r : Text) : Prop := ∃ c ∈ r.head?, c ∈ ['*', '+', '?', '{']

/-- What stands in brackets, up to the closing one, and the characters that it names. -/
inductive SetItems : Text → (Char → Prop) → Text → Prop
  | close {r : Text} : SetItems (']' :: r) (fun _ => False) r
  | named {cls : ClassName} {s r : Text} {has : Char → Prop} (tail : SetItems s has r) :
      SetItems (cls.spelling ++ s) (fun c => cls.contains c = true ∨ has c) r
  | range {a b : Char} {s r : Text} {has : Char → Prop} (ha : a.isAlphanum = true)
      (hb : b.isAlphanum = true) (hab : a ≤ b) (tail : SetItems s has r) :
      SetItems (a :: '-' :: b :: s) (fun c => a ≤ c ∧ c ≤ b ∨ has c) r
  | single {a : Char} {s r : Text} {has : Char → Prop} (ha : a.isAlphanum = true)
      (hs : s.head? ≠ some '-') (tail : SetItems s has r) :
      SetItems (a :: s) (fun c => c = a ∨ has c) r

/-- The regular expression, up to the anchor at its end, matches a whole text. -/
inductive Accepts : Text → Text → Prop
  | ending : Accepts ['$'] []
  | char {c : Char} {r s : Text} (hc : c ∉ metacharacters) (hr : ¬ Repeats r) (tail : Accepts r s) :
      Accepts (c :: r) (c :: s)
  | escaped {c : Char} {r s : Text} (hc : ClassName.punct.contains c = true) (hr : ¬ Repeats r)
      (tail : Accepts r s) : Accepts ('\\' :: c :: r) (c :: s)
  | any {c : Char} {r s : Text} (hr : ¬ Repeats r) (tail : Accepts r s) :
      Accepts ('.' :: r) (c :: s)
  | many {part r s : Text} (hr : ¬ Repeats r) (tail : Accepts r s) :
      Accepts ('.' :: '*' :: r) (part ++ s)
  /-- The brackets are not empty, since a closing one in front stands for itself. -/
  | set {c : Char} {items r s : Text} {has : Char → Prop}
      (hfirst : ∀ d ∈ items.head?, d ≠ '^' ∧ d ≠ ']') (hitems : SetItems items has r)
      (hr : ¬ Repeats r) (hc : has c) (tail : Accepts r s) : Accepts ('[' :: items) (c :: s)
  | complement {c : Char} {items r s : Text} {has : Char → Prop}
      (hfirst : ∀ d ∈ items.head?, d ≠ ']') (hitems : SetItems items has r)
      (hr : ¬ Repeats r) (hc : ¬ has c) (tail : Accepts r s) :
      Accepts ('[' :: '^' :: items) (c :: s)

/-! ## Brackets -/

theorem setItems_named_iff {cls : ClassName} {s r : Text} {has : Char → Prop} :
    SetItems (cls.spelling ++ s) has r ↔
      ∃ has', SetItems s has' r ∧ has = fun c => cls.contains c = true ∨ has' c := by
  constructor
  · generalize htext : cls.spelling ++ s = text
    intro h
    cases h with
    | close => cases htext
    | @named cls' s' r has' tail =>
      have hcls : cls = cls' :=
        eq_of_spelling_prefix (List.prefix_append _ _) ⟨s', htext.symm⟩
      subst hcls
      rw [List.append_cancel_left htext]
      exact ⟨has', tail, rfl⟩
    | range ha => cases htext
    | single ha => cases htext; cases ha
  · rintro ⟨has', tail, rfl⟩
    exact .named tail

theorem setItems_single_iff {a : Char} {s r : Text} {has : Char → Prop} (ha : a.isAlphanum = true)
    (hs : s.head? ≠ some '-') :
    SetItems (a :: s) has r ↔ ∃ has', SetItems s has' r ∧ has = fun c => c = a ∨ has' c := by
  constructor
  · generalize htext : a :: s = text
    intro h
    cases h with
    | close => cases htext; cases ha
    | named tail => cases htext; cases ha
    | range => cases htext; exact absurd rfl hs
    | @single a' s' r has' ha hs tail => cases htext; exact ⟨has', tail, rfl⟩
  · rintro ⟨has', tail, rfl⟩
    exact .single ha hs tail

theorem setItems_range_iff {a b : Char} {s r : Text} {has : Char → Prop}
    (ha : a.isAlphanum = true) (hb : b.isAlphanum = true) (hab : a ≤ b) :
    SetItems (a :: '-' :: b :: s) has r ↔
      ∃ has', SetItems s has' r ∧ has = fun c => a ≤ c ∧ c ≤ b ∨ has' c := by
  constructor
  · generalize htext : a :: '-' :: b :: s = text
    intro h
    cases h with
    | close => cases htext; cases ha
    | named tail => cases htext
    | @range a' b' s' r has' ha hb hab tail => cases htext; exact ⟨has', tail, rfl⟩
    | single ha hs => cases htext; exact absurd rfl hs
  · rintro ⟨has', tail, rfl⟩
    exact .range ha hb hab tail

theorem setItems_close_iff {s r : Text} {has : Char → Prop} :
    SetItems (']' :: s) has r ↔ r = s ∧ has = fun _ => False := by
  constructor
  · generalize htext : ']' :: s = text
    intro h
    cases h with
    | close => cases htext; exact ⟨rfl, rfl⟩
    | named tail => cases htext
    | range ha => cases htext; cases ha
    | single ha => cases htext; cases ha
  · rintro ⟨rfl, rfl⟩
    exact .close

/-- The text of the members of a bracket expression. -/
def membersText (members : List Member) : Text :=
  (members.flatMap Member.tokens).flatMap SetToken.spelling

theorem membersText_cons (m : Member) (members : List Member) :
    membersText (m :: members) = m.tokens.flatMap SetToken.spelling ++ membersText members := by
  rw [membersText, List.flatMap_cons, List.flatMap_append, membersText]

theorem membersText_ne_nil {members : List Member} (h : members.flatMap Member.tokens ≠ []) :
    membersText members ≠ [] := by
  intro hnil
  obtain ⟨token, tokens, htokens⟩ := List.exists_cons_of_ne_nil h
  rw [membersText, htokens, List.flatMap_cons, List.append_eq_nil_iff] at hnil
  cases token with
  | plain c => cases hnil.1
  | escaped c => cases hnil.1
  | named cls => cases hnil.1

theorem regex_bracket {members : List Member} (h : members.flatMap Member.tokens ≠ [])
    (inverted : Bool) :
    (Piece.bracket inverted members).regex
      = ['['] ++ (if inverted then ['^'] else []) ++ membersText members ++ [']'] := by
  rw [Piece.regex]
  split
  · rename_i hnil
    exact absurd hnil h
  · rfl

theorem head?_membersText {members : List Member} (h : ∀ m ∈ members, m.IsPlain) :
    ∀ c ∈ (membersText members).head?, c.isAlphanum = true ∨ c = '[' := by
  induction members with
  | nil =>
    intro c hc
    cases hc
  | cons m members ih =>
    obtain ⟨hm, hmembers⟩ := List.forall_mem_cons.1 h
    rw [membersText_cons]
    cases m with
    | named cls =>
      intro c hc
      cases hc
      exact .inr rfl
    | range first last =>
      rw [Member.tokens, hm.1.token, hm.2.token]
      split
      · intro c hc
        cases hc
        exact .inl hm.1.2
      · exact ih hmembers
    | single e =>
      rw [Member.tokens, Endpoint.IsPlain.token hm]
      intro c hc
      cases hc
      exact .inl hm.2

theorem head?_membersText_append {members : List Member} (h : ∀ m ∈ members, m.IsPlain) (r : Text) :
    ∀ c ∈ (membersText members ++ ']' :: r).head?,
      c.isAlphanum = true ∨ c = '[' ∨ c = ']' ∧ membersText members = [] := by
  have hhead := head?_membersText h
  intro c hc
  cases htext : membersText members with
  | nil =>
    rw [htext] at hc
    cases hc
    exact .inr (.inr ⟨rfl, rfl⟩)
  | cons d text =>
    rw [htext] at hc hhead
    exact (hhead c hc).imp id .inl

/-- Nothing in front of the members of a bracket expression can be taken for a sign of inversion or
for its end. -/
theorem head?_membersText_ne {members : List Member} (h : ∀ m ∈ members, m.IsPlain)
    (hne : membersText members ≠ []) (r : Text) :
    ∀ c ∈ (membersText members ++ ']' :: r).head?, c ≠ '^' ∧ c ≠ ']' := by
  intro c hc
  rcases head?_membersText_append h r c hc with halnum | rfl | ⟨-, hnil⟩
  · constructor
    · rintro rfl
      cases halnum
    · rintro rfl
      cases halnum
  · decide
  · exact absurd hnil hne

theorem setItems_membersText_iff {members : List Member} (h : ∀ m ∈ members, m.IsPlain)
    {s r : Text} {has : Char → Prop} :
    SetItems (membersText members ++ ']' :: s) has r ↔
      r = s ∧ has = fun c => ∃ m ∈ members, m.Has c := by
  induction members generalizing has with
  | nil =>
    rw [membersText, List.flatMap_nil, List.flatMap_nil, List.nil_append, setItems_close_iff]
    simp
  | cons m members ih =>
    obtain ⟨hm, hmembers⟩ := List.forall_mem_cons.1 h
    have hstep : SetItems (membersText (m :: members) ++ ']' :: s) has r ↔
        ∃ has', SetItems (membersText members ++ ']' :: s) has' r ∧
          has = fun c => m.Has c ∨ has' c := by
      rw [membersText_cons, List.append_assoc]
      cases m with
      | named cls =>
        rw [Member.tokens, List.flatMap_singleton]
        exact setItems_named_iff
      | range first last =>
        rw [Member.tokens, hm.1.token, hm.2.token]
        split
        · rename_i hle
          simp only [Member.Has]
          exact setItems_range_iff hm.1.2 hm.2.2 hle
        · rename_i hlt
          have hnone : ∀ has' : Char → Prop,
              (fun c => (Member.range first last).Has c ∨ has' c) = has' := by
            intro has'
            funext c
            have hc : ¬ (Member.range first last).Has c :=
              fun hc => hlt (Char.le_trans hc.1 hc.2)
            exact propext ⟨fun h => h.resolve_left hc, .inr⟩
          simp only [hnone, List.flatMap_nil, List.nil_append]
          constructor
          · intro h
            exact ⟨has, h, rfl⟩
          · rintro ⟨has', h, rfl⟩
            exact h
      | single e =>
        have hhyphen : (membersText members ++ ']' :: s).head? ≠ some '-' := by
          intro hhead
          rcases head?_membersText_append hmembers s '-' hhead with h | h | ⟨h, -⟩ <;> cases h
        rw [Member.tokens, Endpoint.IsPlain.token hm]
        exact setItems_single_iff hm.2 hhyphen
    rw [hstep]
    simp only [ih hmembers, List.mem_cons, exists_eq_or_imp]
    constructor
    · rintro ⟨has', ⟨rfl, rfl⟩, rfl⟩
      exact ⟨rfl, rfl⟩
    · rintro ⟨rfl, rfl⟩
      exact ⟨_, ⟨rfl, rfl⟩, rfl⟩

/-! ## Pieces -/

section

variable {r s : Text} {c : Char}

theorem isSpecial_of_mem_metacharacters (h : c ∈ metacharacters) : isSpecial c = true := by
  have hall : metacharacters.all isSpecial = true := by
    decide
  exact List.all_eq_true.1 hall c h

theorem punct_of_isSpecial (h : isSpecial c = true) : ClassName.punct.contains c = true := by
  have hall : "[](){}*?.+^$|\\-".toList.all ClassName.punct.contains = true := by
    decide
  exact List.all_eq_true.1 hall c (List.contains_iff_mem.1 h)

theorem accepts_char_iff (hc : isSpecial c = false) (hr : ¬ Repeats r) :
    Accepts (c :: r) s ↔ ∃ rest, s = c :: rest ∧ Accepts r rest := by
  constructor
  · intro h
    cases h with
    | char _ _ tail => exact ⟨_, rfl, tail⟩
    | _ => cases hc
  · rintro ⟨rest, rfl, tail⟩
    refine .char (fun hmem => ?_) hr tail
    rw [isSpecial_of_mem_metacharacters hmem] at hc
    cases hc

theorem accepts_escaped_iff (hc : isSpecial c = true) (hr : ¬ Repeats r) :
    Accepts ('\\' :: c :: r) s ↔ ∃ rest, s = c :: rest ∧ Accepts r rest := by
  constructor
  · intro h
    cases h with
    | char hmeta => exact absurd (by decide) hmeta
    | escaped _ _ tail => exact ⟨_, rfl, tail⟩
  · rintro ⟨rest, rfl, tail⟩
    exact .escaped (punct_of_isSpecial hc) hr tail

theorem accepts_any_iff (hr : ¬ Repeats r) :
    Accepts ('.' :: r) s ↔ ∃ c rest, s = c :: rest ∧ Accepts r rest := by
  constructor
  · intro h
    cases h with
    | char hmeta => exact absurd (by decide) hmeta
    | any _ tail => exact ⟨_, _, rfl, tail⟩
    | many => exact absurd ⟨'*', rfl, by decide⟩ hr
  · rintro ⟨c, rest, rfl, tail⟩
    exact .any hr tail

theorem accepts_many_iff (hr : ¬ Repeats r) :
    Accepts ('.' :: '*' :: r) s ↔ ∃ part rest, s = part ++ rest ∧ Accepts r rest := by
  constructor
  · intro h
    cases h with
    | char hmeta => exact absurd (by decide) hmeta
    | any hstar => exact absurd ⟨'*', rfl, by decide⟩ hstar
    | many _ tail => exact ⟨_, _, rfl, tail⟩
  · rintro ⟨part, rest, rfl, tail⟩
    exact .many hr tail

/-- An empty negative look-ahead matches nowhere. -/
theorem not_accepts_never : ¬ Accepts ("(?!)".toList ++ r) s := by
  intro h
  cases h with
  | char hmeta => exact absurd (by decide) hmeta

theorem accepts_set_iff {members : List Member} (h : ∀ m ∈ members, m.IsPlain)
    (hne : membersText members ≠ []) (hr : ¬ Repeats r) :
    Accepts ('[' :: (membersText members ++ ']' :: r)) s ↔
      ∃ c rest, s = c :: rest ∧ (∃ m ∈ members, m.Has c) ∧ Accepts r rest := by
  have hhead := head?_membersText_ne h hne r
  constructor
  · generalize htext : '[' :: (membersText members ++ ']' :: r) = text
    intro haccepts
    cases haccepts with
    | ending => cases htext
    | char hmeta => cases htext; exact absurd (by decide) hmeta
    | escaped => cases htext
    | any => cases htext
    | many => cases htext
    | set hfirst hitems _ hc tail =>
      rw [← (List.cons.inj htext).2] at hitems
      obtain ⟨rfl, rfl⟩ := (setItems_membersText_iff h).1 hitems
      exact ⟨_, _, rfl, hc, tail⟩
    | complement =>
      rw [(List.cons.inj htext).2] at hhead
      exact absurd rfl (hhead '^' rfl).1
  · rintro ⟨c, rest, rfl, hc, tail⟩
    exact .set hhead ((setItems_membersText_iff h).2 ⟨rfl, rfl⟩) hr hc tail

theorem accepts_complement_iff {members : List Member} (h : ∀ m ∈ members, m.IsPlain)
    (hne : membersText members ≠ []) (hr : ¬ Repeats r) :
    Accepts ('[' :: '^' :: (membersText members ++ ']' :: r)) s ↔
      ∃ c rest, s = c :: rest ∧ (¬ ∃ m ∈ members, m.Has c) ∧ Accepts r rest := by
  have hhead := head?_membersText_ne h hne r
  constructor
  · generalize htext : '[' :: '^' :: (membersText members ++ ']' :: r) = text
    intro haccepts
    cases haccepts with
    | ending => cases htext
    | char hmeta => cases htext; exact absurd (by decide) hmeta
    | escaped => cases htext
    | any => cases htext
    | many => cases htext
    | set hfirst =>
      rw [← (List.cons.inj htext).2] at hfirst
      exact absurd rfl (hfirst '^' rfl).1
    | complement hfirst hitems _ hc tail =>
      rw [← (List.cons.inj (List.cons.inj htext).2).2] at hitems
      obtain ⟨rfl, rfl⟩ := (setItems_membersText_iff h).1 hitems
      exact ⟨_, _, rfl, hc, tail⟩
  · rintro ⟨c, rest, rfl, hc, tail⟩
    have hfirst : ∀ d ∈ (membersText members ++ ']' :: r).head?, d ≠ ']' :=
      fun d hd => (hhead d hd).2
    exact .complement hfirst ((setItems_membersText_iff h).2 ⟨rfl, rfl⟩) hr hc tail

/-- The text of a plain piece takes what the piece takes. -/
theorem accepts_piece_iff {piece : Piece} (h : piece.IsPlain) (hr : ¬ Repeats r) :
    Accepts (piece.regex ++ r) s ↔
      ∃ part rest, s = part ++ rest ∧ piece.Takes part ∧ Accepts r rest := by
  cases piece with
  | literal c =>
    have hiff : Accepts ((Piece.literal c).regex ++ r) s ↔
        ∃ rest, s = c :: rest ∧ Accepts r rest := by
      by_cases hc : isSpecial c = true
      · rw [Piece.regex, if_pos hc]
        exact accepts_escaped_iff hc hr
      · rw [Piece.regex, if_neg hc]
        exact accepts_char_iff (Bool.eq_false_iff.2 hc) hr
    rw [hiff]
    simp [Piece.Takes]
  | any =>
    rw [Piece.regex, List.singleton_append, accepts_any_iff hr]
    constructor
    · rintro ⟨c, rest, rfl, tail⟩
      exact ⟨[c], rest, rfl, ⟨c, rfl⟩, tail⟩
    · rintro ⟨part, rest, rfl, ⟨c, rfl⟩, tail⟩
      exact ⟨c, rest, rfl, tail⟩
  | many =>
    rw [Piece.regex]
    simp only [Piece.Takes, true_and]
    exact accepts_many_iff hr
  | bracket inverted members =>
    have hiff : Accepts ((Piece.bracket inverted members).regex ++ r) s ↔
        ∃ c rest, s = c :: rest ∧ ((∃ m ∈ members, m.Has c) ↔ inverted = false) ∧
          Accepts r rest := by
      by_cases htokens : members.flatMap Member.tokens = []
      · have hnone := not_has_of_tokens_eq_nil htokens
        cases inverted with
        | false =>
          simp only [Piece.regex, htokens, Bool.false_eq_true, if_false, hnone, iff_true,
            false_and, and_false, exists_false, iff_false]
          exact not_accepts_never
        | true =>
          simp only [Piece.regex, htokens, if_true, hnone, Bool.true_eq_false, iff_self, true_and]
          exact accepts_any_iff hr
      · have hne := membersText_ne_nil htokens
        rw [regex_bracket htokens]
        cases inverted with
        | false =>
          have hset := accepts_set_iff (s := s) h hne hr
          simpa using hset
        | true =>
          have hcomplement := accepts_complement_iff (s := s) h hne hr
          simpa using hcomplement
    rw [hiff]
    constructor
    · rintro ⟨c, rest, rfl, hc, tail⟩
      exact ⟨[c], rest, rfl, ⟨c, rfl, hc⟩, tail⟩
    · rintro ⟨part, rest, rfl, ⟨c, rfl, hc⟩, tail⟩
      exact ⟨c, rest, rfl, hc, tail⟩

/-- No piece can be taken for a repetition of the one before it. -/
theorem not_repeats_regex (piece : Piece) : ¬ Repeats (piece.regex ++ r) := by
  rintro ⟨c, hc, hmem⟩
  cases piece with
  | literal d =>
    rw [Piece.regex] at hc
    split at hc
    · cases hc
      exact absurd hmem (by decide)
    · rename_i hspecial
      cases hc
      have hall : ['*', '+', '?', '{'].all isSpecial = true := by
        decide
      exact hspecial (List.all_eq_true.1 hall _ hmem)
  | any => cases hc; exact absurd hmem (by decide)
  | many => cases hc; exact absurd hmem (by decide)
  | bracket inverted members =>
    rw [Piece.regex] at hc
    split at hc
    · cases inverted <;> cases hc <;> exact absurd hmem (by decide)
    · cases hc
      exact absurd hmem (by decide)

end

/-- The regular expression of a pattern, anchored at both ends, matches what the pattern's pieces
take. -/
theorem accepts_regex_iff {pieces : List Piece} (h : ∀ piece ∈ pieces, piece.IsPlain) (s : Text) :
    Accepts (pieces.flatMap Piece.regex ++ ['$']) s ↔ Splits pieces s := by
  induction pieces generalizing s with
  | nil =>
    rw [List.flatMap_nil, List.nil_append, Splits, splitsBy_nil_iff]
    constructor
    · intro haccepts
      cases haccepts with
      | ending => rfl
      | char hmeta => exact absurd (by decide) hmeta
    · rintro rfl
      exact .ending
  | cons piece pieces ih =>
    obtain ⟨hpiece, hpieces⟩ := List.forall_mem_cons.1 h
    have hr : ¬ Repeats (pieces.flatMap Piece.regex ++ ['$']) := by
      cases pieces with
      | nil =>
        rintro ⟨c, hc, hmem⟩
        cases hc
        exact absurd hmem (by decide)
      | cons piece' pieces =>
        rw [List.flatMap_cons, List.append_assoc]
        exact not_repeats_regex piece'
    rw [List.flatMap_cons, List.append_assoc, accepts_piece_iff hpiece hr]
    simp only [ih hpieces, Splits, splitsBy_cons_iff]

end ShellExpansion.Glob
