import ShellExpansion.Proofs.Glob.Correctness
import ShellExpansion.Proofs.Text.Escaping
import Mathlib.Data.List.Infix

/-!
# Patterns with backslashes

A text with a backslash before each of its signs (`escaping signs w`) should match itself only.  But
a backslash of the text gets none, and as a pattern it takes the character after it for its own, be
that the backslash before the next sign.  `Kept` says which texts stay what they are.

* `exists_closing` : a bracket expression that opens in such a pattern is closed by a bracket that
  stands after a backslash of the text.
* `exists_isBracket` : in a text that stays what it is, any such bracket closes one.
* `reads_escaping` : **what is read is the text, character by character, if the text stays what it
  is; if not, it has a wildcard in it or too few pieces.**
* `compile_of_kept`, `exists_other` : what such a pattern matches.
-/

namespace ShellExpansion.Glob

/-- The characters that a pattern gives a meaning, but for the backslash. -/
def signs : List Char := ['*', '?', '[', ']']

/-- Every backslash that something follows stands before a closing bracket, or before an opening one
after which no closing bracket stands behind a backslash. -/
def Kept (w : Text) : Prop :=
  ∀ c after, '\\' :: c :: after <:+ w → c = ']' ∨ c = '[' ∧ ¬ ['\\', ']'] <:+: after

variable {c : Char} {w u s rest : Text}

theorem ne_backslash (hc : c ∈ signs) : c ≠ '\\' := by
  rintro rfl
  exact absurd hc (by decide)

/-! ## Texts that stay what they are -/

theorem kept_nil : Kept [] := fun c after h => by cases List.suffix_nil.1 h

theorem kept_backslash : Kept ['\\'] := fun c after h => by
  have hlength := h.length_le
  simp at hlength

theorem kept_cons (hc : c ≠ '\\') : Kept (c :: w) ↔ Kept w := by
  refine forall₂_congr fun d after => ?_
  rw [List.suffix_cons_iff]
  have hne : '\\' :: d :: after ≠ c :: w := fun h => hc (List.cons.inj h).1.symm
  rw [or_iff_right hne]

theorem kept_backslash_cons :
    Kept ('\\' :: c :: w) ↔ (c = ']' ∨ c = '[' ∧ ¬ ['\\', ']'] <:+: w) ∧ Kept w := by
  constructor
  · intro h
    refine ⟨h c w List.suffix_rfl, fun d after hsuffix => h d after ?_⟩
    exact (hsuffix.trans (List.suffix_cons c w)).trans (List.suffix_cons '\\' (c :: w))
  · rintro ⟨hc, hw⟩ d after hsuffix
    rcases List.suffix_cons_iff.1 hsuffix with heq | hsuffix
    · cases heq
      exact hc
    · rcases List.suffix_cons_iff.1 hsuffix with heq | hsuffix
      · cases heq
        rcases hc with h | ⟨h, -⟩ <;> exact absurd h (by decide)
      · exact hw d after hsuffix

theorem infix_of_cons {pair : Text} {d : Char} (hc : c ≠ d) (h : d :: pair <:+: c :: w) :
    d :: pair <:+: w := by
  rcases List.infix_cons_iff.1 h with hprefix | hinfix
  · exact absurd (List.cons_prefix_cons.1 hprefix).1.symm hc
  · exact hinfix

/-! ## Bracket expressions -/

theorem not_escaping_close (w : Text) {t : Text} : escaping signs w ≠ ']' :: t := by
  intro h
  rcases escaping_eq_cons h with ⟨w', -, hsign, -⟩ | ⟨d, w', hc, -⟩
  · exact hsign (by decide)
  · exact absurd hc (by decide)

/-- What holds of a text and is kept by characters and hyphens holds of what members leave. -/
theorem AreMembers.keeps {P : Text → Prop} {members : List Member}
    (hclass : ∀ s, P s → ¬ StartsClass s)
    (hchar : ∀ s e rest, IsEndpoint s e rest → P s → P rest)
    (hhyphen : ∀ t, P ('-' :: t) → P t) (h : AreMembers s members rest) (hs : P s) : P rest := by
  induction h with
  | nil => exact hs
  | cons head tail ih =>
    refine ih ?_
    cases head with
    | @named cls rest => exact absurd ⟨cls, List.prefix_append _ _⟩ (hclass _ hs)
    | range hnone hfirst hlast => exact hchar _ _ _ hlast (hhyphen _ (hchar _ _ _ hfirst hs))
    | single hnone hend hrange => exact hchar _ _ _ hend hs

/-- What may be left of the pattern while a bracket expression is read: the pattern of a rest of the
text, or that without a backslash that one of the text has taken away. -/
inductive IsLeft (w : Text) : Text → Prop
  | between {before after : Text} (h : w = before ++ after) : IsLeft w (escaping signs after)
  | taken {before after : Text} {c : Char} (hc : c ∈ signs) (h : w = before ++ '\\' :: c :: after) :
      IsLeft w (c :: escaping signs after)

/-- No named class starts: its closing bracket would have a backslash before it. -/
theorem IsLeft.not_startsClass (h : IsLeft w s) : ¬ StartsClass s := by
  have hname : ∀ cls : ClassName, '\\' ∉ ':' :: cls.name ++ [':'] := by
    intro cls
    cases cls <;> decide
  rintro ⟨cls, rest, hs⟩
  have hopen : s = '[' :: ((':' :: cls.name ++ [':']) ++ ']' :: rest) := by
    rw [← hs, ClassName.spelling]
    simp
  cases h with
  | between h =>
    rcases escaping_eq_cons hopen with ⟨w', -, hsign, -⟩ | ⟨d, w', hc, -⟩
    · exact hsign (by decide)
    · exact absurd hc (by decide)
  | taken hc h =>
    obtain ⟨w', -, hclose⟩ := escaping_eq_append (hname cls) (List.cons.inj hopen).2
    exact not_escaping_close w' hclose.symm

theorem IsLeft.hyphen {t : Text} (h : IsLeft w ('-' :: t)) : IsLeft w t := by
  generalize hs : '-' :: t = s at h
  cases h with
  | between h =>
    rcases escaping_eq_cons hs.symm with ⟨u, rfl, -, rfl⟩ | ⟨d, u, hc, -⟩
    · exact .between (h.trans (List.append_assoc _ ['-'] u).symm)
    · exact absurd hc (by decide)
  | taken hc h =>
    cases hs
    exact absurd hc (by decide)

/-- A backslash of the text takes away the one before the next sign. -/
theorem IsLeft.endpoint {e : Endpoint} (he : IsEndpoint s e rest) (h : IsLeft w s) :
    IsLeft w rest := by
  cases h with
  | @between before after h =>
    generalize hs : escaping signs after = s at he
    cases he with
    | @escaped c rest =>
      rcases escaping_eq_cons hs with ⟨u, rfl, -, hu⟩ | ⟨d, u, -, rfl, -, hu⟩
      · -- the backslash is one of the text
        rcases escaping_eq_cons hu.symm with ⟨v, rfl, -, rfl⟩ | ⟨d, v, rfl, rfl, hd, rfl⟩
        · exact .between (h.trans (List.append_assoc _ ['\\', c] v).symm)
        · exact .taken hd h
      · obtain ⟨rfl, rfl⟩ := List.cons.inj hu
        exact .between (h.trans (List.append_assoc _ [c] u).symm)
    | @plain c rest hclose hescape =>
      rcases escaping_eq_cons hs with ⟨u, rfl, -, rfl⟩ | ⟨d, u, rfl, rfl, -, rfl⟩
      · exact .between (h.trans (List.append_assoc _ [c] u).symm)
      · cases hescape rfl
  | @taken before after d hd h =>
    generalize hs : d :: escaping signs after = s at he
    cases he with
    | escaped =>
      obtain ⟨rfl, -⟩ := List.cons.inj hs
      exact absurd hd (by decide)
    | plain =>
      obtain ⟨rfl, rfl⟩ := List.cons.inj hs
      exact .between (h.trans (List.append_assoc _ ['\\', d] after).symm)

/-- **A bracket expression that opens in the pattern is closed by a bracket that stands after a
backslash of the text.** -/
theorem exists_closing {piece : Piece} (h : IsBracket ('[' :: escaping signs w) piece rest) :
    ∃ before after, w = before ++ '\\' :: ']' :: after ∧ rest = escaping signs after := by
  have hmembers : ∀ body members, IsLeft w body → AreMembers body members (']' :: rest) →
      ∃ before after, w = before ++ '\\' :: ']' :: after ∧ rest = escaping signs after := by
    intro body members hbody hread
    have hleft : IsLeft w (']' :: rest) :=
      hread.keeps (fun s hs => hs.not_startsClass) (fun s e rest he hs => hs.endpoint he)
        (fun t ht => ht.hyphen) hbody
    generalize hs : ']' :: rest = s at hleft
    cases hleft with
    | between h => exact absurd hs.symm (not_escaping_close _)
    | @taken before after c hc hw =>
      obtain ⟨rfl, rfl⟩ := List.cons.inj hs
      exact ⟨before, after, hw, rfl⟩
  generalize hs : '[' :: escaping signs w = s at h
  cases h with
  | plain hsign hne hbody =>
    obtain ⟨-, rfl⟩ := List.cons.inj hs
    exact hmembers _ _ (.between (List.nil_append w).symm) hbody
  | @inverted sign body rest members hsign hne hbody =>
    rcases escaping_eq_cons (List.cons.inj hs).2 with ⟨u, rfl, -, rfl⟩ | ⟨d, u, rfl, -⟩
    · have hw : sign :: u = [sign] ++ u := rfl
      exact hmembers _ _ (.between hw) hbody
    · rcases hsign with hsign | hsign <;> exact absurd hsign (by decide)

/-! ## Texts in which a bracket closes -/

/-- What may be left of the pattern of a text that stays what it is, up to a closing bracket behind a
backslash of the text. -/
inductive Awaits : Text → Prop
  | between {after : Text} (hkept : Kept after) (hclose : ['\\', ']'] <:+: after) :
      Awaits (escaping signs after)
  | closing {t : Text} : Awaits (']' :: t)

theorem Awaits.not_startsClass (h : Awaits s) : ¬ StartsClass s := by
  cases h with
  | @between after hkept hclose =>
    have hw : after = [] ++ after := rfl
    exact (IsLeft.between hw).not_startsClass
  | closing =>
    rintro ⟨cls, t, ht⟩
    cases ht

theorem Awaits.hyphen {t : Text} (h : Awaits ('-' :: t)) : Awaits t := by
  generalize hs : '-' :: t = s at h
  cases h with
  | between hkept hclose =>
    rcases escaping_eq_cons hs.symm with ⟨u, rfl, -, rfl⟩ | ⟨d, u, hc, -⟩
    · have hne : '-' ≠ '\\' := by decide
      exact .between ((kept_cons hne).1 hkept) (infix_of_cons hne hclose)
    · exact absurd hc (by decide)
  | closing => cases hs

theorem Awaits.endpoint {e : Endpoint} (he : IsEndpoint s e rest) (h : Awaits s) : Awaits rest := by
  cases h with
  | @between after hkept hclose =>
    generalize hs : escaping signs after = s at he
    cases he with
    | @escaped c rest =>
      rcases escaping_eq_cons hs with ⟨u, rfl, -, hu⟩ | ⟨d, u, -, rfl, hd, hu⟩
      · -- it stands before the bracket that is awaited
        rcases escaping_eq_cons hu.symm with ⟨v, rfl, hsign, -⟩ | ⟨d, v, rfl, rfl, -, rfl⟩
        · rcases (kept_backslash_cons.1 hkept).1 with rfl | ⟨rfl, -⟩ <;>
            exact absurd (by decide) hsign
        · rcases (kept_backslash_cons.1 hkept).1 with rfl | ⟨rfl, hnone⟩
          · exact .closing
          · rcases List.infix_cons_iff.1 hclose with hprefix | hinfix
            · have hheads := List.cons_prefix_cons.1 (List.cons_prefix_cons.1 hprefix).2
              exact absurd hheads.1 (by decide)
            · exact absurd (infix_of_cons (by decide) hinfix) hnone
      · obtain ⟨rfl, rfl⟩ := List.cons.inj hu
        have hc : c ≠ '\\' := ne_backslash hd
        exact .between ((kept_cons hc).1 hkept) (infix_of_cons hc hclose)
    | @plain c rest hplain hescape =>
      rcases escaping_eq_cons hs with ⟨u, rfl, -, rfl⟩ | ⟨d, u, rfl, rfl, -, rfl⟩
      · by_cases hc : c = '\\'
        · obtain rfl := escaping_eq_nil (hescape hc)
          have hlength := hclose.length_le
          simp at hlength
        · exact .between ((kept_cons hc).1 hkept) (infix_of_cons hc hclose)
      · cases hescape rfl
  | @closing t =>
    generalize hs : ']' :: t = s at he
    cases he with
    | escaped => cases hs
    | plain hplain =>
      obtain ⟨rfl, -⟩ := List.cons.inj hs
      exact absurd rfl hplain

/-- Reading members stops where none begins. -/
theorem readMember?_readMembers (s : Text) : readMember? (readMembers s).2 = none := by
  fun_induction readMembers s with
  | case1 s hnone => exact hnone
  | case2 s m t hsome hlt members rest heq ih =>
    rw [heq] at ih
    exact ih

theorem exists_endpoint (hc : c ≠ ']') (t : Text) : ∃ e rest, IsEndpoint (c :: t) e rest := by
  by_cases hescape : c = '\\' → t = []
  · exact ⟨⟨false, c⟩, t, .plain hc hescape⟩
  · obtain ⟨rfl, hne⟩ := Classical.not_imp.1 hescape
    obtain ⟨d, t, rfl⟩ := List.exists_cons_of_ne_nil hne
    exact ⟨⟨true, d⟩, t, .escaped⟩

/-- No member begins at the end of a text and in front of a closing bracket only. -/
theorem eq_nil_or_close (h : readMember? s = none) : s = [] ∨ ∃ t, s = ']' :: t := by
  have hend : readEndpoint? s = none := by
    unfold readMember? at h
    split at h
    · cases h
    · split at h
      · assumption
      · split at h <;> cases h
      · cases h
  cases s with
  | nil => exact .inl rfl
  | cons c t =>
    by_cases hc : c = ']'
    · exact .inr ⟨t, by rw [hc]⟩
    · obtain ⟨e, rest, he⟩ := exists_endpoint hc t
      exact absurd he (readEndpoint?_eq_none_iff.1 hend e rest)

/-- After the sign of an inversion the text is one of the same kind. -/
theorem exists_body (hkept : Kept w) (hclose : ['\\', ']'] <:+: w) :
    ∃ u, (readInversion (escaping signs w)).2 = escaping signs u ∧ Kept u ∧ ['\\', ']'] <:+: u := by
  have hsign : ∀ sign t, sign ≠ '\\' → escaping signs w = sign :: t →
      ∃ u, t = escaping signs u ∧ Kept u ∧ ['\\', ']'] <:+: u := by
    intro sign t hne h
    rcases escaping_eq_cons h with ⟨u, rfl, -, rfl⟩ | ⟨d, u, rfl, -⟩
    · exact ⟨u, rfl, (kept_cons hne).1 hkept, infix_of_cons hne hclose⟩
    · exact absurd rfl hne
  unfold readInversion
  split
  · rename_i t heq
    exact hsign '!' t (by decide) heq
  · rename_i t heq
    exact hsign '^' t (by decide) heq
  · exact ⟨w, rfl, hkept, hclose⟩

/-- **In a text that stays what it is a closing bracket behind a backslash closes the bracket
expression that was opened before.** -/
theorem exists_isBracket (hkept : Kept w) (hclose : ['\\', ']'] <:+: w) :
    ∃ piece rest, IsBracket ('[' :: escaping signs w) piece rest := by
  obtain ⟨u, hbody, hkept', hclose'⟩ := exists_body hkept hclose
  have hread : AreMembers (escaping signs u) _ _ := areMembers_readMembers _
  have hawaits : Awaits (readMembers (escaping signs u)).2 :=
    hread.keeps (fun s hs => hs.not_startsClass) (fun s e rest he hs => hs.endpoint he)
      (fun t ht => ht.hyphen) (.between hkept' hclose')
  rcases eq_nil_or_close (readMember?_readMembers (escaping signs u)) with hend | ⟨t, hend⟩
  · rw [hend] at hawaits
    generalize hs : ([] : Text) = s at hawaits
    cases hawaits with
    | between _ hinfix =>
      obtain rfl := escaping_eq_nil hs.symm
      cases List.infix_nil.1 hinfix
    | closing => cases hs
  · rw [hend] at hread
    have hne : (readMembers (escaping signs u)).1 ≠ [] := by
      intro hnil
      rw [hnil] at hread
      generalize hs : escaping signs u = s at hread
      cases hread
      exact not_escaping_close u hs
    rw [← hbody] at hne hread
    have hbracket := readBracket?_eq_some_iff_members.2 ⟨_, hne, rfl, hread⟩
    exact ⟨_, _, readBracket?_eq_some_iff.1 hbracket⟩

/-! ## What is read -/

/-- What can be read of the pattern of a text: the text, character by character, if it stays what it
is; if it does not, there is a wildcard among the pieces, or there are too few of them. -/
inductive Reads (w : Text) (pieces : List Piece) : Prop
  | literal (hkept : Kept w) (h : pieces = w.map .literal)
  | wild (hkept : ¬ Kept w) (hlength : pieces.length ≤ w.length) (h : .any ∈ pieces ∨ .many ∈ pieces)
  | short (hkept : ¬ Kept w) (h : pieces.length < w.length)

variable {pieces : List Piece}

theorem Reads.length_le (h : Reads w pieces) : pieces.length ≤ w.length := by
  cases h with
  | literal _ h => rw [h, List.length_map]
  | wild _ hlength _ => exact hlength
  | short _ h => exact Nat.le_of_lt h

/-- A character in front that is read as itself, and after which nothing else changes. -/
theorem Reads.cons (hkept : Kept (c :: w) ↔ Kept w) (h : Reads w pieces) :
    Reads (c :: w) (.literal c :: pieces) := by
  cases h with
  | literal hw h => exact .literal (hkept.2 hw) (by rw [h, List.map_cons])
  | wild hw hlength h =>
    refine .wild (mt hkept.1 hw) (Nat.succ_le_succ hlength) ?_
    exact h.imp (List.mem_cons_of_mem _) (List.mem_cons_of_mem _)
  | short hw h => exact .short (mt hkept.1 hw) (Nat.succ_lt_succ h)

/-- A backslash of the text that takes away the one before a bracket. -/
theorem Reads.taken (hc : c ≠ '\\') (hbracket : Kept w → c = ']' ∨ c = '[' ∧ ¬ ['\\', ']'] <:+: w)
    (h : Reads w pieces) :
    Reads ('\\' :: c :: w) (.literal '\\' :: .literal c :: pieces) := by
  refine (h.cons (kept_cons hc)).cons ?_
  rw [kept_backslash_cons, kept_cons hc]
  exact and_iff_right_of_imp hbracket

theorem read_escaped (c : Char) (s : Text) : read ('\\' :: c :: s) = .literal c :: read s := by
  rw [read]

/-- A character other than a backslash is read as itself. -/
theorem read_escaping_cons (hc : c ≠ '\\') :
    read (escaping signs (c :: w)) = .literal c :: read (escaping signs w) := by
  by_cases hsign : c ∈ signs
  · rw [escaping_cons_of_mem hsign, read_escaped]
  · have hne : c ≠ '*' ∧ c ≠ '?' ∧ c ≠ '[' := by
      refine ⟨?_, ?_, ?_⟩ <;> rintro rfl <;> exact hsign (by decide)
    rw [escaping_cons_of_not_mem hsign]
    exact read_of_literal ⟨hne.1, hne.2.1⟩ (fun h => absurd h hc) fun _ _ => not_isBracket hne.2.2

/-- A sign without its backslash. -/
theorem reads_sign (hc : c ∈ signs)
    (ih : ∀ u, u.length ≤ w.length → Reads u (read (escaping signs u))) :
    Reads ('\\' :: c :: w) (.literal '\\' :: read (c :: escaping signs w)) := by
  have hw := ih w le_rfl
  have hlength := hw.length_le
  simp only [signs, List.mem_cons, List.not_mem_nil, or_false] at hc
  rcases hc with rfl | rfl | rfl | rfl
  · have hkept : ¬ Kept ('\\' :: '*' :: w) := fun h => by simpa using (kept_backslash_cons.1 h).1
    rw [read]
    exact .wild hkept (by simpa) (.inr (by simp))
  · have hkept : ¬ Kept ('\\' :: '?' :: w) := fun h => by simpa using (kept_backslash_cons.1 h).1
    rw [read]
    exact .wild hkept (by simpa) (.inl (by simp))
  · by_cases hbracket : ∃ piece rest, IsBracket ('[' :: escaping signs w) piece rest
    · obtain ⟨piece, rest, hpiece⟩ := hbracket
      obtain ⟨before, after, rfl, rfl⟩ := exists_closing hpiece
      have hafter := (ih after (by simp; omega)).length_le
      have hclose : ['\\', ']'] <:+: before ++ '\\' :: ']' :: after :=
        ⟨before, after, by simp⟩
      rw [read_of_isBracket hpiece]
      refine .short (fun hkept => ?_) (by simp; omega)
      rcases (kept_backslash_cons.1 hkept).1 with h | ⟨-, hnone⟩
      · exact absurd h (by decide)
      · exact hnone hclose
    · have hopen : read ('[' :: escaping signs w) = .literal '[' :: read (escaping signs w) :=
        read_of_literal (by decide) (fun h => absurd h (by decide)) fun piece rest h =>
          hbracket ⟨piece, rest, h⟩
      rw [hopen]
      exact hw.taken (by decide) fun hkept =>
        .inr ⟨rfl, fun hclose => hbracket (exists_isBracket hkept hclose)⟩
  · have hclose : read (']' :: escaping signs w) = .literal ']' :: read (escaping signs w) :=
      read_of_literal (by decide) (fun h => absurd h (by decide)) fun _ _ =>
        not_isBracket (by decide)
    rw [hclose]
    exact hw.taken (by decide) fun _ => .inl rfl

/-- A backslash takes away the next one, or is taken away. -/
theorem reads_backslash (ih : ∀ u, u.length ≤ w.length → Reads u (read (escaping signs u))) :
    Reads ('\\' :: w) (read (escaping signs ('\\' :: w))) := by
  have hsign : '\\' ∉ signs := by decide
  rw [escaping_cons_of_not_mem hsign]
  cases w with
  | nil =>
    have hread : read ['\\'] = [.literal '\\'] := by decide +kernel
    exact .literal kept_backslash hread
  | cons c w =>
    have ih' : ∀ u, u.length ≤ w.length → Reads u (read (escaping signs u)) :=
      fun u hu => ih u (Nat.le_succ_of_le hu)
    by_cases hc : c ∈ signs
    · rw [escaping_cons_of_mem hc, read_escaped]
      exact reads_sign hc ih'
    · rw [escaping_cons_of_not_mem hc, read_escaped]
      have hlength := (ih' w le_rfl).length_le
      refine .short (fun hkept => ?_) (by simp; omega)
      rcases (kept_backslash_cons.1 hkept).1 with rfl | ⟨rfl, -⟩ <;> exact hc (by decide)

/-- **What is read is the text, character by character, exactly if it stays what it is.**  By
induction on the length, because a bracket expression may take many characters at once. -/
theorem reads_escaping (w : Text) : Reads w (read (escaping signs w)) := by
  induction hn : w.length using Nat.strong_induction_on generalizing w with
  | h n ih =>
    subst hn
    cases w with
    | nil => exact .literal kept_nil (by rw [escaping, List.flatMap_nil, read, List.map_nil])
    | cons c w =>
      have ih' : ∀ u, u.length ≤ w.length → Reads u (read (escaping signs u)) :=
        fun u hu => ih u.length (Nat.lt_succ_of_le hu) u rfl
      by_cases hc : c = '\\'
      · subst hc
        exact reads_backslash ih'
      · rw [read_escaping_cons hc]
        exact (ih' w le_rfl).cons (kept_cons hc)

/-! ## What is matched -/

variable {value : Text}

/-- Literals take their characters. -/
theorem splits_map_literal (w : Text) : Splits (w.map .literal) value ↔ value = w := by
  induction w generalizing value with
  | nil => exact splitsBy_nil_iff
  | cons c w ih =>
    rw [List.map_cons, Splits, splitsBy_cons_iff]
    constructor
    · rintro ⟨part, rest, rfl, rfl, hrest⟩
      rw [ih.1 hrest]
      rfl
    · rintro rfl
      exact ⟨[c], w, rfl, rfl, ih.2 rfl⟩

variable [Engine] {steps : List Step}

/-- A text that stays what it is is the only one that its pattern matches. -/
theorem compile_of_kept (hkept : Kept w) :
    ∃ steps, compile (escaping signs w) = .ok steps ∧
      ∀ value, SplitsBy Step.Takes steps value ↔ value = w := by
  cases reads_escaping w with
  | wild hnot _ _ => exact absurd hkept hnot
  | short hnot _ => exact absurd hkept hnot
  | literal _ hread =>
    have hpieces : ∀ piece ∈ read (escaping signs w), piece.IsUnambiguous := by
      rw [hread]
      intro piece hmem
      obtain ⟨c, -, rfl⟩ := List.mem_map.1 hmem
      trivial
    obtain ⟨steps, hsteps, hsplits⟩ := mapM_step_of_isUnambiguous hpieces
    exact ⟨steps, hsteps, fun value => by rw [hsplits, hread, splits_map_literal]⟩

/-- Every piece but `*` takes one character. -/
theorem exists_one_of_step {piece : Piece} {step : Step} (h : piece.step = .ok step)
    (hmany : piece ≠ .many) : ∃ set, step = .one set := by
  cases piece with
  | literal c => exact ⟨_, (Except.ok.inj h).symm⟩
  | any => exact ⟨_, (Except.ok.inj h).symm⟩
  | many => exact absurd rfl hmany
  | bracket inverted members =>
    by_cases htokens : members.flatMap Member.tokens = []
    · simp only [Piece.step, htokens] at h
      exact ⟨_, (Except.ok.inj h).symm⟩
    · rw [step_bracket htokens] at h
      cases hset : bracketSet inverted (members.flatMap Member.tokens) with
      | error fault =>
        rw [hset] at h
        cases h
      | ok set =>
        rw [hset] at h
        exact ⟨set, (Except.ok.inj h).symm⟩

/-- Without `*` a pattern matches texts of one length only. -/
theorem length_eq_of_splitsBy
    (hsteps : List.Forall₂ (fun piece step => Piece.step piece = .ok step) pieces steps)
    (hmany : .many ∉ pieces) (h : SplitsBy Step.Takes steps value) :
    value.length = pieces.length := by
  induction hsteps generalizing value with
  | nil =>
    rw [splitsBy_nil_iff.1 h]
    rfl
  | @cons piece step pieces steps hstep hsteps ih =>
    obtain ⟨hpiece, htail⟩ := not_or.1 (mt List.mem_cons.2 hmany)
    obtain ⟨set, rfl⟩ := exists_one_of_step hstep fun heq => hpiece heq.symm
    obtain ⟨part, rest, rfl, ⟨c, rfl, -⟩, hrest⟩ := splitsBy_cons_iff.1 h
    rw [List.singleton_append, List.length_cons, ih htail hrest, List.length_cons]

/-- A wildcard takes another part just as well. -/
theorem exists_other_part {piece : Piece} {step : Step} {part : Text} (hstep : piece.step = .ok step)
    (hwild : piece = .any ∨ piece = .many) (hpart : step.Takes part) :
    ∃ other, other ≠ part ∧ other ≠ [] ∧ step.Takes other := by
  rcases hwild with rfl | rfl
  · obtain rfl := Except.ok.inj hstep
    obtain ⟨c, rfl, -⟩ := hpart
    obtain ⟨d, hd⟩ : ∃ d, d ≠ c := by
      by_cases hc : c = 'a'
      · exact ⟨'b', by rw [hc]; decide⟩
      · exact ⟨'a', fun heq => hc heq.symm⟩
    exact ⟨[d], fun heq => hd (List.cons.inj heq).1, List.cons_ne_nil _ _, d, rfl, rfl⟩
  · obtain rfl := Except.ok.inj hstep
    exact ⟨'a' :: part, List.cons_ne_self _ _, List.cons_ne_nil _ _, trivial⟩

/-- Where a pattern has a wildcard it matches another text, too. -/
theorem exists_other_of_wild
    (hsteps : List.Forall₂ (fun piece step => Piece.step piece = .ok step) pieces steps)
    (hwild : .any ∈ pieces ∨ .many ∈ pieces) (h : SplitsBy Step.Takes steps value) :
    ∃ other, other ≠ value ∧ other ≠ [] ∧ SplitsBy Step.Takes steps other := by
  induction hsteps generalizing value with
  | nil => rcases hwild with hmem | hmem <;> cases hmem
  | @cons piece step pieces steps hstep hsteps ih =>
    obtain ⟨part, rest, rfl, hpart, hrest⟩ := splitsBy_cons_iff.1 h
    by_cases htail : .any ∈ pieces ∨ .many ∈ pieces
    · obtain ⟨other, hne, hnil, hother⟩ := ih htail hrest
      refine ⟨part ++ other, fun heq => hne (List.append_cancel_left heq), ?_,
        splitsBy_cons_iff.2 ⟨part, other, rfl, hpart, hother⟩⟩
      exact fun heq => hnil (List.append_eq_nil_iff.1 heq).2
    · have hhead : piece = .any ∨ piece = .many := by
        refine hwild.imp (fun hmem => ?_) fun hmem => ?_
        · exact ((List.mem_cons.1 hmem).resolve_right fun h => htail (.inl h)).symm
        · exact ((List.mem_cons.1 hmem).resolve_right fun h => htail (.inr h)).symm
      obtain ⟨part', hne, hnil, hpart'⟩ := exists_other_part hstep hhead hpart
      refine ⟨part' ++ rest, fun heq => hne (List.append_cancel_right heq), ?_,
        splitsBy_cons_iff.2 ⟨part', rest, rfl, hpart', hrest⟩⟩
      exact fun heq => hnil (List.append_eq_nil_iff.1 heq).1

/-- The pattern of a text that does not stay what it is matches another text, or does not match this
one. -/
theorem exists_other (hkept : ¬ Kept w) (hsteps : compile (escaping signs w) = .ok steps)
    (h : SplitsBy Step.Takes steps w) :
    ∃ other, other ≠ w ∧ other ≠ [] ∧ SplitsBy Step.Takes steps other := by
  have hforall := forall₂_step hsteps
  by_cases hwild : .any ∈ read (escaping signs w) ∨ .many ∈ read (escaping signs w)
  · exact exists_other_of_wild hforall hwild h
  · have hlength := length_eq_of_splitsBy hforall (not_or.1 hwild).2 h
    cases reads_escaping w with
    | literal hw _ => exact absurd hw hkept
    | wild _ _ hread => exact absurd hread hwild
    | short _ hread => omega

end ShellExpansion.Glob
