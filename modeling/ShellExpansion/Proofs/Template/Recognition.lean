import ShellExpansion.Proofs.Template.Completeness
import Mathlib.Data.List.TakeWhile

/-!
# The reader recognises the grammar

Main results:

* `expansion_sound`, `isDerived` : what is read has a derivation, by induction on the length of the
  text.
* `parse_eq_ok_iff` : the tree of a text is the one that a derivation gives it.
* `parse_succeeds_iff` : **a text is read if and only if it is a template.**
-/

namespace ShellExpansion

namespace Grammar

/-! ## Cutting a text -/

theorem isName_takeWhile {s : Text} (h : s.takeWhile isNameChar ≠ []) :
    IsName (s.takeWhile isNameChar) :=
  ⟨h, fun _ hc => List.mem_takeWhile_imp hc⟩

theorem not_nameFollows_dropWhile (s : Text) : ¬ NameFollows (s.dropWhile isNameChar) := by
  rintro ⟨c, hc, hname⟩
  have hnot := List.head?_dropWhile_not isNameChar s
  rw [hc] at hnot
  simp [hname] at hnot

/-- Every text is at the end of its region, or starts with an item or with a brace. -/
theorem exists_item (region : Region) (depth : Nat) (s : Text) :
    Ends region s ∨ (∃ item next node, Plain region depth item next node ∧ s = item ++ next)
      ∨ ∃ t, s = '$' :: '{' :: t := by
  cases s with
  | nil => exact .inl fun c hc => by cases hc
  | cons c t =>
    by_cases hends : c ∈ ends region
    · refine .inl fun d hd => ?_
      cases hd
      exact hends
    · by_cases hc : c = '$'
      · subst hc
        by_cases hbrace : t.head? = some '{'
        · obtain ⟨u, rfl⟩ := head?_eq_some.1 hbrace
          exact .inr (.inr ⟨u, rfl⟩)
        · refine .inr (.inl ?_)
          by_cases hdollar : t.head? = some '$'
          · obtain ⟨u, rfl⟩ := head?_eq_some.1 hdollar
            by_cases hexpands : DollarExpands u
            · exact ⟨['$'], '$' :: u, _, .dollar hexpands, rfl⟩
            · exact ⟨['$', '$'], u, _, .dollars hexpands, rfl⟩
          · by_cases hname : NameFollows t
            · have hne : t.takeWhile isNameChar ≠ [] := by
                obtain ⟨d, hd, hname⟩ := hname
                obtain ⟨u, rfl⟩ := head?_eq_some.1 hd
                simp [hname]
              refine ⟨_, _, _, .reference (isName_takeWhile hne) (not_nameFollows_dropWhile t), ?_⟩
              rw [List.cons_append, List.takeWhile_append_dropWhile]
            · refine ⟨['$'], t, _, .char hends (fun _ => ⟨hdollar, ?_⟩) (by simp), rfl⟩
              exact fun h => h.elim hbrace hname
      · refine .inr (.inl ?_)
        by_cases hescape : c = '\\' ∧ region ≠ .outside ∧ ∃ d ∈ t.head?, d ∈ escapable
        · obtain ⟨rfl, hregion, d, hd, hmem⟩ := hescape
          obtain ⟨u, rfl⟩ := head?_eq_some.1 hd
          exact ⟨['\\', d], u, _, .escaped hregion hmem, rfl⟩
        · refine ⟨[c], t, _, .char hends (fun h => (hc h).elim) ?_, rfl⟩
          exact fun hbackslash hregion d hd hmem => hescape ⟨hbackslash, hregion, d, hd, hmem⟩

end Grammar

open Grammar

namespace Parser

variable {limit : Nat}

theorem except_bind_eq_ok {ε α β : Type} {x : Except ε α} {f : α → Except ε β} {b : β}
    (h : x.bind f = .ok b) : ∃ a, x = .ok a ∧ f a = .ok b := by
  cases x with
  | error e => cases h
  | ok a => exact ⟨a, rfl, h⟩

theorem except_map_eq_ok {ε α β : Type} {x : Except ε α} {f : α → β} {b : β}
    (h : x.map f = .ok b) : ∃ a, x = .ok a ∧ f a = b := by
  cases x with
  | error e => cases h
  | ok a => exact ⟨a, rfl, Except.ok.inj h⟩

theorem except_map_eq_error {ε α β : Type} {x : Except ε α} {f : α → β} {e : ε}
    (h : x.map f = .error e) : x = .error e := by
  cases x with
  | error e' => exact congrArg Except.error (Except.error.inj h)
  | ok a => cases h

/-! ## Soundness -/

/-- What is read of a text in any region, at any depth, is derived. -/
def IsDerived (limit : Nat) (s : Text) : Prop :=
  ∀ region depth nodes rest, merged limit region depth s = .ok (nodes, rest) →
    ∃ text nodes', s = text ++ rest ∧ Items limit region depth text rest nodes' ∧
      Ends region rest ∧ nodes = Node.mergeText nodes'

section

variable {depth : Nat} {region : Region} {s rest : Text} {nodes args : List Node} {c : Char}

theorem IsDerived.slot (hs : IsDerived limit s)
    (h : merged limit region depth s = .ok (nodes, c :: rest)) :
    ∃ text nodes', s = text ++ c :: rest ∧ Items limit region depth text [c] nodes' ∧
      Node.ofPieces nodes = .ofPieces nodes' := by
  obtain ⟨text, nodes', rfl, hitems, hends, rfl⟩ := hs _ _ _ _ h
  have hc : c ≠ '$' := ne_dollar_of_mem_ends (hends c rfl)
  exact ⟨text, nodes', rfl, hitems.congr (agree_cons hc _ _), Node.ofPieces_mergeText nodes'⟩

theorem words_word_sound (hs : IsDerived limit s)
    (h : outcome (words limit .word depth s) = .ok (args, '}' :: rest)) :
    ∃ word nodes, s = word ++ '}' :: rest ∧ Items limit .word (depth + 1) word ['}'] nodes ∧
      args = [.ofPieces nodes] := by
  rw [words_eq] at h
  obtain ⟨⟨nodes, rest'⟩, hread, heq⟩ := except_map_eq_ok h
  cases heq
  obtain ⟨word, nodes', rfl, hitems, hnodes⟩ := hs.slot hread
  exact ⟨word, nodes', rfl, hitems, by rw [hnodes]⟩

theorem words_fields_sound (hs : ∀ t, t.length ≤ s.length → IsDerived limit t)
    (h : outcome (words limit .fields depth s) = .ok (args, '}' :: rest)) :
    ∃ offset nodes, offset ≠ [] ∧
      (s = offset ++ '}' :: rest ∧ Items limit .field (depth + 1) offset ['}'] nodes ∧
          args = [.ofPieces nodes]
        ∨ ∃ length nodes', s = offset ++ ':' :: (length ++ '}' :: rest) ∧
          Items limit .field (depth + 1) offset [':'] nodes ∧
          Items limit .field (depth + 1) length ['}'] nodes' ∧
          args = [.ofPieces nodes, .ofPieces nodes']) := by
  rw [words_eq] at h
  obtain ⟨⟨nodes, rest'⟩, hread, heq⟩ := except_bind_eq_ok h
  simp only at heq
  split at heq
  · cases heq
  · rename_i hempty
    split at heq
    · rename_i t
      obtain ⟨⟨nodes', rest''⟩, hread', heq⟩ := except_map_eq_ok heq
      cases heq
      obtain ⟨offset, pieces, rfl, hoffset, hnodes⟩ := (hs s le_rfl).slot hread
      obtain ⟨length, pieces', rfl, hlength, hnodes'⟩ := (hs t (by simp; omega)).slot hread'
      rw [hnodes, hoffset.isEmptyText_iff] at hempty
      exact ⟨offset, pieces, hempty,
        .inr ⟨length, pieces', rfl, hoffset, hlength, by rw [hnodes, hnodes']⟩⟩
    · cases heq
      obtain ⟨offset, pieces, rfl, hoffset, hnodes⟩ := (hs s le_rfl).slot hread
      rw [hnodes, hoffset.isEmptyText_iff] at hempty
      exact ⟨offset, pieces, hempty, .inl ⟨rfl, hoffset, by rw [hnodes]⟩⟩
    · cases heq
    · cases heq

theorem words_replacement_sound (hs : ∀ t, t.length ≤ s.length → IsDerived limit t)
    (h : outcome (words limit .replacement depth s) = .ok (args, '}' :: rest)) :
    ∃ pattern nodes,
      (s = pattern ++ '}' :: rest ∧ Items limit .pattern (depth + 1) pattern ['}'] nodes ∧
          args = [.ofPieces nodes, .text []])
        ∨ ∃ word nodes', s = pattern ++ '/' :: (word ++ '}' :: rest) ∧
          Items limit .pattern (depth + 1) pattern ['/'] nodes ∧
          Items limit .word (depth + 1) word ['}'] nodes' ∧
          args = [.ofPieces nodes, .ofPieces nodes'] := by
  rw [words_eq] at h
  obtain ⟨⟨nodes, rest'⟩, hread, heq⟩ := except_bind_eq_ok h
  simp only at heq
  split at heq
  · rename_i t
    obtain ⟨⟨nodes', rest''⟩, hread', heq⟩ := except_map_eq_ok heq
    cases heq
    obtain ⟨pattern, pieces, rfl, hpattern, hnodes⟩ := (hs s le_rfl).slot hread
    obtain ⟨word, pieces', rfl, hword, hnodes'⟩ := (hs t (by simp; omega)).slot hread'
    exact ⟨pattern, pieces,
      .inr ⟨word, pieces', rfl, hpattern, hword, by rw [hnodes, hnodes']⟩⟩
  · cases heq
    obtain ⟨pattern, pieces, rfl, hpattern, hnodes⟩ := (hs s le_rfl).slot hread
    exact ⟨pattern, pieces, .inl ⟨rfl, hpattern, by rw [hnodes]⟩⟩
  · cases heq
  · cases heq

theorem closeBrace_sound (h : outcome (closeBrace s) = .ok ((), rest)) : s = '}' :: rest := by
  rw [closeBrace_eq] at h
  split at h <;> cases h
  rfl

/-- What an expansion that is read can be: a length, a bare name, or an operator with its words. -/
theorem expansion_cases {node : Node} (h : outcome (expansion limit depth s) = .ok (node, rest)) :
    depth ≤ limit ∧
      ((∃ name, IsName name ∧ s = '#' :: (name ++ '}' :: rest) ∧
          node = braced depth s rest name (some .length) []) ∨
        (∃ name, IsName name ∧ s = name ++ '}' :: rest ∧ node = braced depth s rest name none []) ∨
        ∃ name op t args, IsName name ∧ s = name ++ op.spelling ++ t ∧
          Operator.find (op.spelling ++ t) = .operator op t ∧
          outcome (words limit op.layout depth t) = .ok (args, '}' :: rest) ∧
          node = braced depth s rest name (some op) args) := by
  have hlimit : depth ≤ limit := by
    refine Nat.le_of_not_lt fun hlt => ?_
    rw [expansion_of_lt hlt] at h
    cases h
  refine ⟨hlimit, ?_⟩
  by_cases hhash : ∃ t, s = '#' :: t
  · obtain ⟨t, rfl⟩ := hhash
    rw [expansion_hash hlimit] at h
    split at h
    · cases h
    · rename_i hname
      obtain ⟨⟨⟨⟩, rest'⟩, hclose, heq⟩ := except_map_eq_ok h
      cases heq
      refine .inl ⟨t.takeWhile isNameChar, isName_takeWhile hname, ?_, rfl⟩
      rw [← closeBrace_sound hclose, List.takeWhile_append_dropWhile]
  · have hhead : s.head? ≠ some '#' := by
      intro hhead
      obtain ⟨t, rfl⟩ := head?_eq_some.1 hhead
      exact hhash ⟨t, rfl⟩
    have hsplit : s.takeWhile isNameChar ++ s.dropWhile isNameChar = s :=
      List.takeWhile_append_dropWhile
    rw [expansion_named hlimit hhead] at h
    split at h
    · cases h
    · rename_i hname
      split at h
      · rename_i op t hfind
        obtain ⟨⟨args, rest'⟩, hwords, heq⟩ := except_bind_eq_ok h
        obtain ⟨⟨⟨⟩, rest''⟩, hclose, heq⟩ := except_map_eq_ok heq
        cases heq
        have hafter : s.dropWhile isNameChar = op.spelling ++ t := Operator.eq_append_of_find hfind
        refine .inr (.inr ⟨_, op, t, args, isName_takeWhile hname, ?_, hafter ▸ hfind, ?_, rfl⟩)
        · rw [List.append_assoc, ← hafter, hsplit]
        · rw [hwords, ← closeBrace_sound hclose]
      · cases h
      · split at h
        · rename_i t hafter
          cases h
          exact .inr (.inl ⟨_, isName_takeWhile hname, by rw [← hafter, hsplit], rfl⟩)
        · cases h

theorem exists_body {name : Text} {op : Option Operator} (body : Text) (hs : s = body ++ rest)
    (h : Braced limit depth ('$' :: '{' :: body)
      (.expansion name op args depth ('$' :: '{' :: body))) :
    ∃ body, s = body ++ rest ∧
      Braced limit depth ('$' :: '{' :: body) (braced depth s rest name op args) := by
  subst hs
  refine ⟨body, rfl, ?_⟩
  rwa [braced, Text.read_append]

/-- What is read after `${` is the rest of a derived expansion. -/
theorem expansion_sound {node : Node} (hs : ∀ t, t.length < s.length → IsDerived limit t)
    (h : outcome (expansion limit depth s) = .ok (node, rest)) :
    depth ≤ limit ∧ ∃ body, s = body ++ rest ∧ Braced limit depth ('$' :: '{' :: body) node := by
  obtain ⟨hlimit, ⟨name, hname, rfl, rfl⟩ | ⟨name, hname, rfl, rfl⟩ |
    ⟨name, op, t, args, hname, rfl, hfind, hwords, rfl⟩⟩ := expansion_cases h
  · exact ⟨hlimit, exists_body ('#' :: name ++ ['}']) (by simp) (.length hname)⟩
  · exact ⟨hlimit, exists_body (name ++ ['}']) (by simp) (.name hname)⟩
  · refine ⟨hlimit, ?_⟩
    have ht : ∀ u, u.length ≤ t.length → IsDerived limit u := by
      intro u hu
      have hpos : 0 < name.length := List.length_pos_iff.2 hname.1
      exact hs u (by simp only [List.length_append]; omega)
    have hop := find_eq_operator hfind
    cases hlayout : op.layout with
    | bare =>
      simp only [hlayout] at hop hwords
      rw [words_eq] at hwords
      cases hwords
      exact exists_body (name ++ op.spelling ++ ['}']) (by simp) (.casing hname hop)
    | word =>
      simp only [hlayout] at hop hwords
      obtain ⟨word, nodes, rfl, hword, rfl⟩ := words_word_sound (ht t le_rfl) hwords
      have hop' := (isLongest_word_congr (head?_append_cons word '}' rest [])).1 hop
      exact exists_body (name ++ op.spelling ++ word ++ ['}']) (by simp) (.word hname hop' hword)
    | fields =>
      simp only [hlayout] at hop hwords
      obtain ⟨rfl, hfirst⟩ := hop
      obtain ⟨offset, nodes, hne, ⟨rfl, hoffset, rfl⟩ |
        ⟨length, nodes', rfl, hoffset, hlength, rfl⟩⟩ := words_fields_sound ht hwords
      · rw [List.head?_append_of_ne_nil offset hne] at hfirst
        exact exists_body (name ++ ':' :: offset ++ ['}']) (by simp [Operator.spelling])
          (.offset hname hfirst hne hoffset)
      · rw [List.head?_append_of_ne_nil offset hne] at hfirst
        exact exists_body (name ++ ':' :: offset ++ ':' :: length ++ ['}'])
          (by simp [Operator.spelling]) (.slice hname hfirst hne hoffset hlength)
    | replacement =>
      simp only [hlayout] at hop hwords
      obtain ⟨pattern, nodes, ⟨rfl, hpattern, rfl⟩ |
        ⟨word, nodes', rfl, hpattern, hword, rfl⟩⟩ := words_replacement_sound ht hwords
      · have hop' := (isLongest_replace_congr (head?_append_cons pattern '}' rest [])).1 hop
        exact exists_body (name ++ op.spelling ++ pattern ++ ['}']) (by simp)
          (.pattern hname hop' hpattern)
      · have hop' : IsLongest replaceOperators op (pattern ++ '/' :: word ++ ['}']) := by
          rw [List.append_assoc, List.cons_append]
          exact (isLongest_replace_congr (head?_append_cons pattern '/' _ _)).1 hop
        exact exists_body (name ++ op.spelling ++ pattern ++ '/' :: word ++ ['}']) (by simp)
          (.replacement hname hop' hpattern hword)

end

/-- Every text is derived as it is read. -/
theorem isDerived (limit : Nat) (s : Text) : IsDerived limit s := by
  induction hn : s.length using Nat.strong_induction_on generalizing s with
  | h n ih =>
    subst hn
    have ih' : ∀ t, t.length < s.length → IsDerived limit t := fun t ht => ih t.length ht t rfl
    intro region depth nodes rest h
    rcases exists_item region depth s with hends | ⟨item, next, node, hitem, rfl⟩ | ⟨t, rfl⟩
    · rw [merged_of_ends hends] at h
      cases h
      exact ⟨[], [], rfl, .nil, hends, rfl⟩
    · rw [merged_plain hitem] at h
      obtain ⟨⟨nodes', rest'⟩, hread, heq⟩ := except_map_eq_ok h
      cases heq
      have hlt : next.length < (item ++ next).length := by
        have hpos := List.length_pos_iff.2 hitem.ne_nil
        rw [List.length_append]
        omega
      obtain ⟨text, pieces, rfl, htail, hends, rfl⟩ := ih' next hlt _ _ _ _ hread
      exact ⟨item ++ text, node :: pieces, by simp, .plain hitem htail, hends, rfl⟩
    · rw [merged_opening] at h
      obtain ⟨⟨node, rest'⟩, hread, h⟩ := except_bind_eq_ok h
      obtain ⟨⟨nodes', rest''⟩, hread', heq⟩ := except_map_eq_ok h
      cases heq
      have hshort : ∀ u, u.length < t.length → IsDerived limit u :=
        fun u hu => ih' u (by simp; omega)
      obtain ⟨hlimit, body, rfl, hbraced⟩ := expansion_sound hshort hread
      obtain ⟨text, pieces, rfl, htail, hends, rfl⟩ := ih' rest' (by simp; omega) _ _ _ _ hread'
      exact ⟨'$' :: '{' :: body ++ text, node :: pieces, by simp, .braced hlimit hbraced htail,
        hends, rfl⟩

/-- Outside every expansion a text is read to its end. -/
theorem merged_outside {input rest : Text} {nodes : List Node}
    (h : merged limit .outside 0 input = .ok (nodes, rest)) :
    rest = [] ∧ ∃ nodes', Items limit .outside 0 input [] nodes' ∧ nodes = Node.mergeText nodes' := by
  obtain ⟨text, nodes', rfl, hitems, hends, rfl⟩ := isDerived limit input _ _ _ _ h
  cases rest with
  | nil =>
    rw [List.append_nil]
    exact ⟨rfl, nodes', hitems, rfl⟩
  | cons c rest => exact absurd (hends c rfl) List.not_mem_nil

end Parser

/-! ## Recognition -/

namespace Template

theorem parse_eq_map (limit : Nat) (input : Text) :
    parse limit input
      = (Parser.merged limit .outside 0 input).map fun result => .ofPieces result.1 := by
  unfold parse Parser.merged Parser.outcome
  cases Parser.pieces limit .outside 0 input with
  | error fault => rfl
  | ok pieces => exact congrArg Except.ok (Node.ofPieces_mergeText pieces.value).symm

/-- **The tree of a text is the one that its derivation gives it.** -/
theorem parse_eq_ok_iff {limit : Nat} {input : Text} {root : Node} :
    parse limit input = .ok root ↔
      ∃ nodes, Items limit .outside 0 input [] nodes ∧ root = .ofPieces nodes := by
  rw [parse_eq_map]
  constructor
  · intro h
    obtain ⟨⟨nodes, rest⟩, hread, rfl⟩ := Parser.except_map_eq_ok h
    obtain ⟨-, nodes', hitems, rfl⟩ := Parser.merged_outside hread
    exact ⟨nodes', hitems, Node.ofPieces_mergeText nodes'⟩
  · rintro ⟨nodes, hitems, rfl⟩
    have hread := hitems.reads [] (Agree.refl [])
    rw [List.append_nil, Parser.merged_of_ends (s := []) (by intro c hc; cases hc)] at hread
    rw [hread]
    exact congrArg Except.ok (Node.ofPieces_mergeText nodes)

/-- **A text is read if and only if it is a template.** -/
theorem parse_succeeds_iff (limit : Nat) (input : Text) :
    (∃ root, parse limit input = .ok root) ↔ IsTemplate limit input := by
  constructor
  · rintro ⟨root, h⟩
    obtain ⟨nodes, hitems, -⟩ := parse_eq_ok_iff.1 h
    exact ⟨nodes, hitems⟩
  · rintro ⟨nodes, hitems⟩
    exact ⟨.ofPieces nodes, parse_eq_ok_iff.2 ⟨nodes, hitems, rfl⟩⟩

end Template

end ShellExpansion
