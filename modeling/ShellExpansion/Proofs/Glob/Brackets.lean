import ShellExpansion.Proofs.Glob.Matching

/-!
# What the text of a bracket expression says

The members of a bracket expression are written one after the other, less the ranges that run
backwards, and the text is read again as a set expression, which has a syntax of its own.  A bracket
expression is unambiguous (`IsUnambiguous`) if the reader finds the members that were written: a
backslash stands before nothing that it gives another meaning, two neighbours make no operator and no
range, and no `^` has come to the front.

* `symbols_members` : the symbols of the text are those of the members.
* `setFrom_member` : a member that its neighbours leave alone enters the set as a whole.
* `bracketSet_members` : **the text of an unambiguous bracket expression means its members, or all
  other characters.**
-/

namespace ShellExpansion.Glob

/-! ## Members -/

/-- The characters of a member. -/
def Member.set : Member → CharSet
  | named cls => cls.contains
  | range first last => .range first.char last.char
  | single e => .singleton e.char

theorem Member.set_iff (m : Member) (c : Char) : m.set c = true ↔ m.Has c := by
  cases m with
  | named cls => exact Iff.rfl
  | range first last => simp [set, Has, CharSet.range]
  | single e => simp [set, Has, CharSet.singleton]

/-- The members that have a text. -/
def written (members : List Member) : List Member := members.filter fun m => m.tokens ≠ []

theorem flatMap_tokens_written (members : List Member) :
    (written members).flatMap Member.tokens = members.flatMap Member.tokens := by
  induction members with
  | nil => rfl
  | cons m members ih =>
    rw [written] at ih ⊢
    by_cases hm : m.tokens = []
    · rw [List.filter_cons_of_neg (by simp [hm]), List.flatMap_cons, ih, hm, List.nil_append]
    · rw [List.filter_cons_of_pos (by simp [hm]), List.flatMap_cons, List.flatMap_cons, ih]

/-- Only ranges that run backwards have no text, and they have no characters. -/
theorem Member.tokens_ne_nil {m : Member} {c : Char} (hc : m.Has c) : m.tokens ≠ [] := by
  cases m with
  | named cls => exact List.cons_ne_nil _ _
  | range first last =>
    rw [Member.tokens, if_pos (Char.le_trans hc.1 hc.2)]
    exact List.cons_ne_nil _ _
  | single e => exact List.cons_ne_nil _ _

theorem Member.le_of_tokens_ne_nil {first last : Endpoint}
    (h : (Member.range first last).tokens ≠ []) : first.char ≤ last.char := by
  by_contra hlt
  exact h (if_neg hlt)

theorem exists_has_written {members : List Member} {c : Char} :
    (∃ m ∈ written members, m.Has c) ↔ ∃ m ∈ members, m.Has c := by
  constructor
  · rintro ⟨m, hm, hc⟩
    exact ⟨m, (List.mem_filter.1 hm).1, hc⟩
  · rintro ⟨m, hm, hc⟩
    exact ⟨m, List.mem_filter.2 ⟨hm, decide_eq_true (Member.tokens_ne_nil hc)⟩, hc⟩

theorem not_has_of_tokens_eq_nil {members : List Member}
    (h : members.flatMap Member.tokens = []) (c : Char) : ¬ ∃ m ∈ members, m.Has c := by
  rintro ⟨m, hm, hc⟩
  exact Member.tokens_ne_nil hc (List.flatMap_eq_nil_iff.1 h m hm)

/-! ## Ambiguity -/

/-- The hyphen that may be an operator or make a range. -/
def hyphen : Endpoint := ⟨false, '-'⟩

/-- The characters that are an operator where two of them stand side by side. -/
def operatorSigns : List Endpoint := [⟨false, '&'⟩, hyphen, ⟨false, '~'⟩]

/-- The letters that stand for themselves after a backslash. -/
def plainLetters : List Char := ['A', 'B', 'G', 'K', 'k', 'z']

/-- A character stands for itself in the text, with its backslash if it has one. -/
def Endpoint.IsLiteral (e : Endpoint) : Prop :=
  e.escaped = true → e.char.isAlphanum = true → e.char ∈ plainLetters

/-- The characters of a member stand for themselves, and the hyphen of a range is the only one that it
has without a backslash. -/
def Member.IsLiteral : Member → Prop
  | named _ => True
  | range first last => (first.IsLiteral ∧ first ≠ hyphen) ∧ last.IsLiteral ∧ last ≠ hyphen
  | single e => e.IsLiteral

/-- The character that the text of a member begins with. -/
def Member.first? : Member → Option Endpoint
  | named _ => none
  | range first _ => some first
  | single e => some e

/-- A member and what is written after it are read as one: they make an operator, or a character with
the hyphen after it makes a range. -/
def Joins : Member → List Member → Prop
  | .single e, next :: more =>
    (e ∈ operatorSigns ∧ next.first? = some e) ∨ (next = .single hyphen ∧ more ≠ [])
  | _, _ => False

/-- No member is read together with what is written after it. -/
def ReadApart : List Member → Prop
  | [] => True
  | m :: members => ¬ Joins m members ∧ ReadApart members

/-- The text of a bracket expression is read as the members that it was written for.  Hyphens in front
are characters like others. -/
structure IsUnambiguous (inverted : Bool) (members : List Member) : Prop where
  literal : ∀ m ∈ written members, m.IsLiteral
  sign : inverted = false → ∀ m ∈ (written members).head?, m.first? ≠ some ⟨false, '^'⟩
  apart : ReadApart ((written members).dropWhile (· = .single hyphen))

instance (e : Endpoint) : Decidable e.IsLiteral := inferInstanceAs (Decidable (_ → _ → _))

instance : DecidablePred Member.IsLiteral
  | .named _ => isTrue trivial
  | .range _ _ => inferInstanceAs (Decidable ((_ ∧ _) ∧ _ ∧ _))
  | .single e => inferInstanceAs (Decidable e.IsLiteral)

instance : DecidableRel Joins
  | .single _, _ :: _ => inferInstanceAs (Decidable (_ ∧ _ ∨ _ ∧ _))
  | .single _, [] => isFalse id
  | .named _, _ => isFalse id
  | .range _ _, _ => isFalse id

/-- Whether members are read apart. -/
def decideReadApart : ∀ members, Decidable (ReadApart members)
  | [] => isTrue trivial
  | m :: members =>
    have := decideReadApart members
    inferInstanceAs (Decidable (¬ Joins m members ∧ ReadApart members))

instance : DecidablePred ReadApart := decideReadApart

instance (inverted : Bool) (members : List Member) : Decidable (IsUnambiguous inverted members) :=
  decidable_of_iff
    ((∀ m ∈ written members, m.IsLiteral) ∧
      (inverted = false → ∀ m ∈ (written members).head?, m.first? ≠ some ⟨false, '^'⟩) ∧
      ReadApart ((written members).dropWhile (· = .single hyphen)))
    ⟨fun h => ⟨h.1, h.2.1, h.2.2⟩, fun h => ⟨h.literal, h.sign, h.apart⟩⟩

/-! ## Symbols -/

/-- The symbol of a character that stands for itself. -/
def Endpoint.symbol (e : Endpoint) : SetSymbol :=
  if e.escaped || e.char == '[' then .literal e.char else .plain e.char

/-- The symbols of a member that has a text. -/
def Member.symbols : Member → List SetSymbol
  | named cls => [.group cls.contains]
  | range first last => [first.symbol, .plain '-', last.symbol]
  | single e => [e.symbol]

theorem escape_eq_literal {c : Char} (h : c.isAlphanum = true → c ∈ plainLetters) :
    escape c = .symbol (.literal c) := by
  by_cases halnum : c.isAlphanum = true
  · have hletter := h halnum
    simp only [plainLetters, List.mem_cons, List.not_mem_nil, or_false] at hletter
    rcases hletter with rfl | rfl | rfl | rfl | rfl | rfl <;> rfl
  · -- what has a meaning of its own after a backslash is a letter
    unfold escape
    split <;> simp_all

theorem symbols_cons [Engine] {e : Endpoint} (h : e.IsLiteral) (tokens : List SetToken) :
    symbols (e.token :: tokens) = (symbols tokens).map (e.symbol :: ·) := by
  obtain ⟨escaped, c⟩ := e
  by_cases hescaped : (escaped || c == '[') = true
  · have hescape : escape c = .symbol (.literal c) := by
      refine escape_eq_literal fun halnum => ?_
      rcases Bool.or_eq_true_iff.1 hescaped with htrue | hopen
      · exact h htrue halnum
      · rw [eq_of_beq hopen] at halnum
        cases halnum
    rw [Endpoint.token, if_pos hescaped, symbols, escapeSymbol, hescape]
    simp only [Endpoint.symbol, if_pos hescaped]
    rfl
  · rw [Endpoint.token, if_neg hescaped, symbols]
    simp only [Endpoint.symbol, if_neg hescaped]
    rfl

/-- The symbols of the text are those of the members. -/
theorem symbols_members [Engine] {members : List Member} (hwritten : ∀ m ∈ members, m.tokens ≠ [])
    (hliteral : ∀ m ∈ members, m.IsLiteral) :
    symbols (members.flatMap Member.tokens) = .ok (members.flatMap Member.symbols) := by
  induction members with
  | nil =>
    rw [List.flatMap_nil, symbols]
    rfl
  | cons m members ih =>
    obtain ⟨hm, hmembers⟩ := List.forall_mem_cons.1 hliteral
    obtain ⟨htokens, hwritten⟩ := List.forall_mem_cons.1 hwritten
    have htail := ih hwritten hmembers
    rw [List.flatMap_cons, List.flatMap_cons]
    cases m with
    | named cls =>
      simp only [Member.tokens, Member.symbols, List.cons_append, List.nil_append]
      rw [symbols, htail]
      rfl
    | range first last =>
      have hle : first.char ≤ last.char := Member.le_of_tokens_ne_nil htokens
      simp only [Member.tokens, if_pos hle, Member.symbols, List.cons_append, List.nil_append]
      rw [symbols_cons hm.1.1, symbols, symbols_cons hm.2.1, htail]
      rfl
    | single e =>
      simp only [Member.tokens, Member.symbols, List.cons_append, List.nil_append]
      rw [symbols_cons hm, htail]
      rfl

/-! ## One member -/

variable {e : Endpoint} {whole : CharSet → CharSet} {operand : CharSet} {rest : List SetSymbol}

theorem Endpoint.symbol_set (e : Endpoint) : e.symbol.set = .singleton e.char := by
  rw [symbol]
  split <;> rfl

theorem Endpoint.symbol_char? (e : Endpoint) : e.symbol.char? = some e.char := by
  rw [symbol]
  split <;> rfl

theorem Endpoint.symbol_ne_group (e : Endpoint) (members : CharSet) :
    e.symbol ≠ .group members := by
  intro h
  have hchar := e.symbol_char?
  rw [h] at hchar
  cases hchar

/-- A symbol that may be an operator is a character without a backslash. -/
theorem Endpoint.eq_of_symbol {c : Char} (h : e.symbol = .plain c) : e = ⟨false, c⟩ := by
  obtain ⟨escaped, d⟩ := e
  rw [symbol] at h
  split at h
  · cases h
  · rename_i hplain
    cases h
    rw [Bool.or_eq_true, not_or, Bool.not_eq_true] at hplain
    exact congrArg (fun escaped => Endpoint.mk escaped d) hplain.1

theorem Endpoint.isHyphen_symbol (h : e ≠ hyphen) : e.symbol.isHyphen = false := by
  rw [Bool.eq_false_iff]
  intro hhyphen
  unfold SetSymbol.isHyphen at hhyphen
  split at hhyphen
  · rename_i heq
    exact h (Endpoint.eq_of_symbol heq)
  · cases hhyphen

/-- Symbols that begin no operator are read item by item. -/
theorem setFrom_item {x : SetSymbol} {set : CharSet} {used : Nat}
    (hoperator : ∀ c ∈ ['&', '-', '~'], x = .plain c → rest.head? ≠ some (.plain c))
    (hitem : itemSet x rest = .ok (set, used)) :
    setFrom whole operand (x :: rest) = setFrom whole (operand.union set) (rest.drop used) := by
  rw [setFrom, hitem]
  · rintro t rfl rfl
    exact hoperator '&' (by decide) rfl rfl
  · rintro t rfl rfl
    exact hoperator '-' (by decide) rfl rfl
  · rintro t rfl rfl
    exact hoperator '~' (by decide) rfl rfl

theorem itemSet_character
    (hrange : ∀ next more, rest = .plain '-' :: next :: more → next = .plain '-') :
    itemSet e.symbol rest = .ok (.singleton e.char, 0) := by
  unfold itemSet
  split
  · rename_i hgroup
    exact absurd hgroup (e.symbol_ne_group _)
  · rename_i next more hgroup
    rw [hrange next more rfl, e.symbol_set]
    rfl
  · rw [e.symbol_set]

theorem rangeSet_symbol {first last : Endpoint} (hle : first.char ≤ last.char) :
    rangeSet first.symbol last.symbol = .ok (.range first.char last.char) := by
  unfold rangeSet
  split
  · rename_i hgroup
    exact absurd hgroup (last.symbol_ne_group _)
  · rename_i a hfirst _
    obtain rfl := Option.some.inj (first.symbol_char?.symm.trans hfirst)
    simp only [Endpoint.symbol_char?, if_pos hle]
  · rename_i hnone
    rw [first.symbol_char?] at hnone
    cases hnone

theorem itemSet_range {first last : Endpoint} (hlast : last ≠ hyphen)
    (hle : first.char ≤ last.char) :
    itemSet first.symbol (.plain '-' :: last.symbol :: rest)
      = .ok (.range first.char last.char, 2) := by
  unfold itemSet
  split
  · rename_i hgroup
    exact absurd hgroup (first.symbol_ne_group _)
  · rename_i heq _
    cases heq
    rw [Endpoint.isHyphen_symbol hlast, rangeSet_symbol hle]
    rfl
  · rename_i hhyphen
    exact (hhyphen _ _ rfl).elim

/-- A member that its neighbours leave alone enters the set as a whole.  A character is not followed by
the other sign of its operator, nor by a hyphen that something else follows. -/
theorem setFrom_member {m : Member} (htokens : m.tokens ≠ []) (hliteral : m.IsLiteral)
    (hoperator : ∀ e ∈ operatorSigns, m = .single e → rest.head? ≠ some (.plain e.char))
    (hrange : ∀ e, m = .single e →
      ∀ next more, rest = .plain '-' :: next :: more → next = .plain '-') :
    setFrom whole operand (m.symbols ++ rest) = setFrom whole (operand.union m.set) rest := by
  cases m with
  | named cls =>
    have hitem : itemSet (.group cls.contains) rest = .ok (cls.contains, 0) := rfl
    refine setFrom_item (fun c hc hgroup => ?_) hitem
    cases hgroup
  | range first last =>
    have hle := Member.le_of_tokens_ne_nil htokens
    refine setFrom_item (fun c hc hfirst => ?_) (itemSet_range hliteral.2.2 hle)
    -- the sign of the range stands after its first character
    rintro ⟨⟩
    exact hliteral.1.2 (Endpoint.eq_of_symbol hfirst)
  | single e =>
    refine setFrom_item (fun c hc hsign => ?_) (itemSet_character (hrange e rfl))
    obtain rfl := Endpoint.eq_of_symbol hsign
    refine hoperator _ ?_ rfl
    simp only [List.mem_cons, List.not_mem_nil, or_false] at hc
    rcases hc with rfl | rfl | rfl <;> decide

/-! ## All members -/

variable {members : List Member}

/-- The text of members begins with a bare character if that is the first character of the first. -/
theorem exists_first?_of_head? {c : Char}
    (h : (members.flatMap Member.symbols).head? = some (.plain c)) :
    ∃ m more, members = m :: more ∧ m.first? = some ⟨false, c⟩ := by
  cases members with
  | nil => cases h
  | cons m more =>
    refine ⟨m, more, rfl, ?_⟩
    cases m with
    | named cls => cases h
    | range first last => exact congrArg some (Endpoint.eq_of_symbol (Option.some.inj h))
    | single e => exact congrArg some (Endpoint.eq_of_symbol (Option.some.inj h))

theorem Member.eq_hyphen {m : Member} (hliteral : m.IsLiteral) (h : m.first? = some hyphen) :
    m = .single hyphen := by
  cases m with
  | named cls => cases h
  | range first last => exact absurd (Option.some.inj h) hliteral.1.2
  | single e => exact congrArg Member.single (Option.some.inj h)

theorem operator_of_head? (he : e ∈ operatorSigns)
    (h : (members.flatMap Member.symbols).head? = some (.plain e.char)) :
    Joins (.single e) members := by
  obtain ⟨next, more, rfl, hnext⟩ := exists_first?_of_head? h
  have hbare : e = ⟨false, e.char⟩ := by
    simp only [operatorSigns, List.mem_cons, List.not_mem_nil, or_false] at he
    rcases he with rfl | rfl | rfl <;> rfl
  exact .inl ⟨he, hbare ▸ hnext⟩

theorem range_of_hyphen (hliteral : ∀ m ∈ members, m.IsLiteral) {next : SetSymbol}
    {after : List SetSymbol}
    (h : members.flatMap Member.symbols = .plain '-' :: next :: after) :
    Joins (.single e) members := by
  obtain ⟨m, more, rfl, hm⟩ := exists_first?_of_head? (congrArg List.head? h)
  obtain rfl := Member.eq_hyphen (hliteral m List.mem_cons_self) hm
  refine .inr ⟨rfl, ?_⟩
  rintro rfl
  cases h

/-- Members that are read apart are read one after the other, and the set is their union. -/
theorem setFrom_members (whole : CharSet → CharSet) {members : List Member}
    (hwritten : ∀ m ∈ members, m.tokens ≠ []) (hliteral : ∀ m ∈ members, m.IsLiteral)
    (hapart : ReadApart members) (operand : CharSet) :
    ∃ set, setFrom whole operand (members.flatMap Member.symbols) = .ok (whole set) ∧
      ∀ c, set c = true ↔ operand c = true ∨ ∃ m ∈ members, m.Has c := by
  induction members generalizing operand with
  | nil =>
    rw [List.flatMap_nil, setFrom]
    exact ⟨operand, rfl, by simp⟩
  | cons m members ih =>
    obtain ⟨htokens, htokens'⟩ := List.forall_mem_cons.1 hwritten
    obtain ⟨hm, hmembers⟩ := List.forall_mem_cons.1 hliteral
    obtain ⟨hjoins, hapart⟩ := hapart
    -- the first member enters the operand, and the rest is read as before
    obtain ⟨set, hset, hmem⟩ := ih htokens' hmembers hapart (operand.union m.set)
    refine ⟨set, ?_, fun c => ?_⟩
    · rw [List.flatMap_cons, ← hset]
      refine setFrom_member htokens hm ?_ ?_
      · rintro e he rfl hhead
        exact hjoins (operator_of_head? he hhead)
      · rintro e rfl next more heq
        exact absurd (range_of_hyphen hmembers heq) hjoins
    · rw [hmem c, CharSet.union, Bool.or_eq_true, Member.set_iff, or_assoc]
      simp only [List.mem_cons, exists_eq_or_imp]

/-! ## Whole bracket expressions -/

/-- Only a member that is a hyphen is written with one in front. -/
theorem not_isHyphen_head (hliteral : ∀ m ∈ members, m.IsLiteral)
    (hhead : members.head? ≠ some (.single hyphen)) :
    ∀ x ∈ (members.flatMap Member.symbols).head?, x.isHyphen = false := by
  intro x hx
  rw [Bool.eq_false_iff]
  intro hhyphen
  unfold SetSymbol.isHyphen at hhyphen
  split at hhyphen
  · obtain ⟨m, more, rfl, hm⟩ := exists_first?_of_head? hx
    obtain rfl := Member.eq_hyphen (hliteral m List.mem_cons_self) hm
    exact hhead rfl
  · cases hhyphen

theorem dropWhile_isHyphen (hliteral : ∀ m ∈ members, m.IsLiteral) :
    (members.flatMap Member.symbols).dropWhile SetSymbol.isHyphen
      = (members.dropWhile (· = .single hyphen)).flatMap Member.symbols := by
  induction members with
  | nil => rfl
  | cons m members ih =>
    by_cases hhyphen : m = .single hyphen
    · subst hhyphen
      rw [List.dropWhile_cons_of_pos (by simp),
        ← ih fun m hm => hliteral m (List.mem_cons_of_mem _ hm)]
      rfl
    · have hnot := not_isHyphen_head hliteral (by simpa using hhyphen)
      rw [List.dropWhile_cons_of_neg (by simpa using hhyphen)]
      generalize (m :: members).flatMap Member.symbols = symbols at hnot ⊢
      cases symbols with
      | nil => rfl
      | cons x symbols => exact List.dropWhile_cons_of_neg (Bool.eq_false_iff.1 (hnot x rfl))

theorem setOf_of_not_hyphen {symbols : List SetSymbol}
    (h : ∀ x ∈ symbols.head?, x.isHyphen = false) : setOf symbols = setFrom id .empty symbols := by
  unfold setOf
  split
  · cases h (.plain '-') rfl
  · rfl

/-- What is dropped in front are hyphens. -/
theorem exists_has_hyphen {c : Char} :
    (∃ m ∈ .single hyphen :: members, m.Has c) ↔
      c = '-' ∨ ∃ m ∈ members.dropWhile (· = .single hyphen), m.Has c := by
  constructor
  · rintro ⟨m, hm, hc⟩
    rw [← List.takeWhile_append_dropWhile (p := (· = .single hyphen)) (l := members),
      ← List.cons_append, List.mem_append, List.mem_cons] at hm
    obtain (rfl | hhyphen) | hlater := hm
    · exact .inl hc
    · obtain rfl := of_decide_eq_true (List.all_eq_true.1 List.all_takeWhile m hhyphen)
      exact .inl hc
    · exact .inr ⟨m, hlater, hc⟩
  · rintro (rfl | ⟨m, hm, hc⟩)
    · exact ⟨_, List.mem_cons_self, rfl⟩
    · exact ⟨m, List.mem_cons_of_mem _ ((List.dropWhile_sublist _).subset hm), hc⟩

/-- Hyphens in front are characters of the set, and the rest is read member by member. -/
theorem setOf_members (hwritten : ∀ m ∈ members, m.tokens ≠ [])
    (hliteral : ∀ m ∈ members, m.IsLiteral)
    (hapart : ReadApart (members.dropWhile (· = .single hyphen))) :
    ∃ set, setOf (members.flatMap Member.symbols) = .ok set ∧
      ∀ c, set c = true ↔ ∃ m ∈ members, m.Has c := by
  have hsub : ∀ m ∈ members.dropWhile (· = .single hyphen), m ∈ members :=
    fun m hm => (List.dropWhile_sublist _).subset hm
  have hread : ∀ operand, ∃ set, setFrom id operand
      ((members.dropWhile (· = .single hyphen)).flatMap Member.symbols) = .ok set ∧
        ∀ c, set c = true ↔
          operand c = true ∨ ∃ m ∈ members.dropWhile (· = .single hyphen), m.Has c :=
    setFrom_members id (fun m hm => hwritten m (hsub m hm)) (fun m hm => hliteral m (hsub m hm)) hapart
  by_cases hhead : members.head? = some (.single hyphen)
  · obtain ⟨more, rfl⟩ := List.head?_eq_some_iff.1 hhead
    have hdrop : (Member.single hyphen :: more).dropWhile (· = .single hyphen)
        = more.dropWhile (· = .single hyphen) := List.dropWhile_cons_of_pos (by simp)
    obtain ⟨set, hset, hmem⟩ := hread (.singleton '-')
    rw [hdrop] at hset hmem
    refine ⟨set, ?_, fun c => ?_⟩
    · rw [← dropWhile_isHyphen fun m hm => hliteral m (List.mem_cons_of_mem _ hm)] at hset
      exact hset
    · rw [hmem c, exists_has_hyphen]
      simp [CharSet.singleton]
  · have hdrop : members.dropWhile (· = .single hyphen) = members := by
      cases members with
      | nil => rfl
      | cons m more => exact List.dropWhile_cons_of_neg (by simpa using hhead)
    obtain ⟨set, hset, hmem⟩ := hread .empty
    rw [hdrop] at hset hmem
    refine ⟨set, ?_, fun c => ?_⟩
    · rw [setOf_of_not_hyphen (not_isHyphen_head hliteral hhead), hset]
    · rw [hmem c]
      simp [CharSet.empty]

/-- **The text of an unambiguous bracket expression means its members, or all other characters.** -/
theorem bracketSet_members [Engine] {inverted : Bool} (h : IsUnambiguous inverted members) :
    ∃ set, bracketSet inverted (members.flatMap Member.tokens) = .ok set ∧
      ∀ c, set c = true ↔ ((∃ m ∈ members, m.Has c) ↔ inverted = false) := by
  have hwritten : ∀ m ∈ written members, m.tokens ≠ [] :=
    fun m hm => of_decide_eq_true (List.mem_filter.1 hm).2
  have hsymbols := symbols_members hwritten h.literal
  rw [flatMap_tokens_written] at hsymbols
  obtain ⟨set, hset, hmem⟩ := setOf_members hwritten h.literal h.apart
  simp only [exists_has_written] at hmem
  rw [bracketSet, hsymbols]
  cases inverted with
  | false =>
    have hsign : ((written members).flatMap Member.symbols).head? ≠ some (.plain '^') := by
      intro hhead
      obtain ⟨m, more, hwritten, hm⟩ := exists_first?_of_head? hhead
      exact h.sign rfl m (by rw [hwritten]; rfl) hm
    refine ⟨set, ?_, fun c => by simp [hmem]⟩
    simp only [bind, Except.bind]
    split
    · contradiction
    · rename_i heq
      exact absurd (congrArg List.head? heq) hsign
    · rename_i heq
      exact absurd (congrArg List.head? heq) hsign
    · exact hset
  | true =>
    refine ⟨set.compl, ?_, fun c => ?_⟩
    · simp only [bind, Except.bind, hset]
      rfl
    · rw [CharSet.compl, Bool.not_eq_true', ← Bool.not_eq_true, hmem]
      simp

end ShellExpansion.Glob
