import ShellExpansion.Expansion.Template
import ShellExpansion.Glob.StandardEngine
import ShellExpansion.Proofs.Template.Places

/-!
# Runs of dollars

Of two dollars one is dropped, unless the second starts an expansion.  So of a run of dollars about
half are left, and whether its last one starts an expansion depends on what follows the run alone,
wherever the run stands.

* `Items.two_dollars`, `Items.one_dollar` : what is read at a dollar.
* `Items.run_plain`, `Items.run_expanding` : a run of dollars, by induction on its length.
* `LeadsTo.run` : a run stays in the region where it starts.
* `parse_doubling` : a text in which every dollar is doubled.
* `dollar_runs` : **what a run of dollars contributes, wherever it stands.**
-/

namespace ShellExpansion

namespace Grammar

variable {limit depth : Nat} {region : Region} {s inside next : Text} {nodes : List Node}

/-- What a dollar and the text after it stand for, if the dollar starts an expansion: the source of
the first node begins with the dollar, and what follows it stands for the other nodes. -/
def StartsExpansion (limit : Nat) (region : Region) (depth : Nat) (inside next : Text)
    (nodes : List Node) : Prop :=
  ∃ name op words body rest more, inside = body ++ rest ∧
    nodes = .expansion name op words depth ('$' :: body) :: more ∧
    Items limit region depth rest next more

/-! ## One dollar -/

theorem not_dollarExpands_dollar (s : Text) : ¬ DollarExpands ('$' :: s) := by
  rintro (h | ⟨c, hc, hname⟩)
  · cases h
  · cases hc
    exact absurd hname (by decide)

theorem dollarExpands_name {name : Text} (hname : IsName name) (s : Text) :
    DollarExpands (name ++ s) := by
  obtain ⟨c, t, rfl⟩ := List.exists_cons_of_ne_nil hname.1
  exact .inr ⟨c, rfl, hname.2 c List.mem_cons_self⟩

theorem Braced.text_eq {text : Text} {node : Node} (h : Braced limit depth text node) :
    ∃ body, text = '$' :: '{' :: body := by
  cases h <;> exact ⟨_, rfl⟩

/-- A dollar is read together with the next one, or alone as a plain dollar, or with the expansion
that it starts. -/
theorem Items.dollar_cases (h : Items limit region depth ('$' :: s) next nodes) :
    (∃ t more, s = '$' :: t ∧ ¬ DollarExpands (t ++ next) ∧ nodes = .text ['$'] :: more ∧
        Items limit region depth t next more) ∨
      (∃ more, ((∃ t, s ++ next = '$' :: t ∧ DollarExpands t) ∨
          (s ++ next).head? ≠ some '$' ∧ ¬ DollarExpands (s ++ next)) ∧
        nodes = .text ['$'] :: more ∧ Items limit region depth s next more) ∨
      DollarExpands (s ++ next) ∧ StartsExpansion limit region depth s next nodes := by
  generalize htext : '$' :: s = text at h
  cases h with
  | nil => cases htext
  | @plain _ _ item text _ node more head tail =>
    generalize hnext : text ++ next = after at head
    cases head with
    | dollars h =>
      cases htext
      subst hnext
      exact .inl ⟨text, more, rfl, h, rfl, tail⟩
    | dollar h =>
      cases htext
      exact .inr (.inl ⟨more, .inl ⟨_, hnext, h⟩, rfl, tail⟩)
    | @reference name _ hname hend =>
      obtain ⟨-, rfl⟩ : '$' = '$' ∧ s = name ++ text := List.cons.inj htext
      refine .inr (.inr ⟨?_, name, none, [], name, text, more, rfl, rfl, tail⟩)
      rw [List.append_assoc]
      exact dollarExpands_name hname _
    | escaped hregion hc => cases htext
    | char hends hdollar hescape =>
      cases htext
      subst hnext
      exact .inr (.inl ⟨more, .inr (hdollar rfl), rfl, tail⟩)
  | @braced _ _ item text _ node more hdepth head tail =>
    obtain ⟨body, rfl⟩ := head.text_eq
    obtain ⟨name, op, words, rfl⟩ := head.eq_expansion
    cases htext
    exact .inr (.inr ⟨.inl rfl, name, op, words, '{' :: body, text, more, rfl, rfl, tail⟩)

/-- Of two dollars one is left.  The second is read with it, unless it starts an expansion. -/
theorem Items.two_dollars (h : Items limit region depth ('$' :: '$' :: s) next nodes) :
    ∃ more, nodes = .text ['$'] :: more ∧
      (¬ DollarExpands (s ++ next) → Items limit region depth s next more) ∧
      (DollarExpands (s ++ next) → Items limit region depth ('$' :: s) next more) := by
  rcases h.dollar_cases with ⟨t, more, hs, hexpands, hnodes, ht⟩ | ⟨more, hdollar, hnodes, hs⟩ |
    ⟨hexpands, -⟩
  · cases hs
    exact ⟨more, hnodes, fun _ => ht, fun h => absurd h hexpands⟩
  · refine ⟨more, hnodes, fun h => ?_, fun _ => hs⟩
    rcases hdollar with ⟨t, ht, hexpands⟩ | ⟨hne, -⟩
    · cases ht
      exact absurd hexpands h
    · exact absurd rfl hne
  · exact absurd hexpands (not_dollarExpands_dollar _)

/-- A dollar that no other one follows stands for itself or starts an expansion. -/
theorem Items.one_dollar (h : Items limit region depth ('$' :: s) next nodes)
    (hs : (s ++ next).head? ≠ some '$') :
    (¬ DollarExpands (s ++ next) →
        ∃ more, nodes = .text ['$'] :: more ∧ Items limit region depth s next more) ∧
      (DollarExpands (s ++ next) → StartsExpansion limit region depth s next nodes) := by
  rcases h.dollar_cases with ⟨t, more, rfl, -⟩ | ⟨more, hdollar, hnodes, hitems⟩ |
    ⟨hexpands, hstarts⟩
  · exact absurd rfl hs
  · rcases hdollar with ⟨t, ht, -⟩ | ⟨-, hexpands⟩
    · exact absurd (by rw [ht]; rfl) hs
    · exact ⟨fun _ => ⟨more, hnodes, hitems⟩, fun h => absurd h hexpands⟩
  · exact ⟨fun h => absurd hexpands h, fun _ => hstarts⟩

/-! ## A run of dollars -/

/-- If no expansion starts after a run, half of it is left, and an odd dollar.  The induction takes
two dollars at a time, as they are read. -/
theorem Items.run_plain (hs : (inside ++ next).head? ≠ some '$')
    (hexpands : ¬ DollarExpands (inside ++ next)) {k : Nat}
    (h : Items limit region depth (List.replicate k '$' ++ inside) next nodes) :
    ∃ more, nodes = List.replicate ((k + 1) / 2) (.text ['$']) ++ more ∧
      Items limit region depth inside next more := by
  induction k using Nat.twoStepInduction generalizing nodes with
  | zero => exact ⟨nodes, rfl, h⟩
  | one => exact (h.one_dollar hs).1 hexpands
  | more k ih _ =>
    obtain ⟨more, rfl, hplain, -⟩ := h.two_dollars
    have hk : ¬ DollarExpands (List.replicate k '$' ++ inside ++ next) := by
      cases k with
      | zero => exact hexpands
      | succ k => exact not_dollarExpands_dollar _
    obtain ⟨more, rfl, hinside⟩ := ih (hplain hk)
    refine ⟨more, ?_, hinside⟩
    rw [show (k + 2 + 1) / 2 = (k + 1) / 2 + 1 by omega, List.replicate_succ, List.cons_append]

/-- If the last dollar of a run starts an expansion, half of the others are left, and an odd one. -/
theorem Items.run_expanding (hs : (inside ++ next).head? ≠ some '$')
    (hexpands : DollarExpands (inside ++ next)) {k : Nat} (hk : 1 ≤ k)
    (h : Items limit region depth (List.replicate k '$' ++ inside) next nodes) :
    ∃ more, nodes = List.replicate (k / 2) (.text ['$']) ++ more ∧
      StartsExpansion limit region depth inside next more := by
  induction k using Nat.twoStepInduction generalizing nodes with
  | zero => exact absurd hk (by decide)
  | one => exact ⟨nodes, rfl, (h.one_dollar hs).2 hexpands⟩
  | more k ih _ =>
    obtain ⟨more, rfl, hplain, hstart⟩ := h.two_dollars
    cases k with
    | zero => exact ⟨more, rfl, ((hstart hexpands).one_dollar hs).2 hexpands⟩
    | succ k =>
      obtain ⟨more, rfl, hinside⟩ := ih (by omega) (hplain (not_dollarExpands_dollar _))
      refine ⟨more, ?_, hinside⟩
      rw [show (k + 1 + 2) / 2 = (k + 1) / 2 + 1 by omega, List.replicate_succ, List.cons_append]

/-! ## A run at a place -/

/-- A run of a character in front of a text that does not begin with it is not cut. -/
theorem exists_inside {c : Char} {tail after : Text} (htail : tail.head? ≠ some c) {k : Nat}
    {text : Text} (h : text ++ tail = List.replicate k c ++ after) :
    ∃ inside, text = List.replicate k c ++ inside ∧ after = inside ++ tail := by
  induction k generalizing text with
  | zero => exact ⟨text, rfl, h.symm⟩
  | succ k ih =>
    cases text with
    | nil =>
      have hhead : tail.head? = some c := by
        rw [← List.nil_append tail, h]
        rfl
      exact absurd hhead htail
    | cons d text =>
      obtain ⟨rfl, htext⟩ := List.cons.inj h
      obtain ⟨inside, rfl, rfl⟩ := ih htext
      exact ⟨inside, rfl, rfl⟩

/-- A run of dollars at a place does not go past the region, and what the reader sees after it is what
the text has there. -/
theorem LeadsTo.run {whole place : Place limit} {before after : Text} {k : Nat}
    (h : LeadsTo whole before place) (hwhole : whole.next = [])
    (htext : whole.text = before ++ List.replicate k '$' ++ after) :
    ∃ inside, place.text = List.replicate k '$' ++ inside ∧
      after.head? = (inside ++ place.next).head? := by
  have hends : Ends whole.region whole.next := by
    rw [hwhole]
    nofun
  obtain ⟨rest, hsplit, hrest⟩ := h.split
  have htail : (place.next ++ rest).head? ≠ some '$' := by
    cases hnext : place.next with
    | nil =>
      rw [(hrest hnext).2]
      nofun
    | cons c t =>
      have hc : c ∈ Grammar.ends place.region := h.ends hends c (by rw [hnext]; rfl)
      rintro ⟨⟩
      exact ne_dollar_of_mem_ends hc rfl
  have hrun : place.text ++ (place.next ++ rest) = List.replicate k '$' ++ after := by
    apply List.append_cancel_left
    calc
      before ++ (place.text ++ (place.next ++ rest)) = whole.text ++ whole.next := by
        rw [hsplit]
        simp only [List.append_assoc]
      _ = before ++ (List.replicate k '$' ++ after) := by
        rw [hwhole, htext, List.append_nil, List.append_assoc]
  obtain ⟨inside, hinside, rfl⟩ := exists_inside htail hrun
  refine ⟨inside, hinside, ?_⟩
  cases hnext : place.next with
  | nil => rw [(hrest hnext).2, List.append_nil]
  | cons c t => rw [List.cons_append, head?_append_cons inside c (t ++ rest) t]

end Grammar

namespace Template

open Grammar

/-! ## Doubled dollars -/

/-- Every dollar of the text twice. -/
def doubling (text : Text) : Text := text.flatMap fun c => if c = '$' then ['$', '$'] else [c]

theorem doubling_cons_dollar (text : Text) : doubling ('$' :: text) = '$' :: '$' :: doubling text :=
  rfl

theorem doubling_cons {c : Char} (hc : c ≠ '$') (text : Text) :
    doubling (c :: text) = c :: doubling text := by
  rw [doubling, List.flatMap_cons, if_neg hc, List.singleton_append, doubling]

theorem head?_doubling (text : Text) : (doubling text).head? = text.head? := by
  cases text with
  | nil => rfl
  | cons c text =>
    by_cases hc : c = '$'
    · rw [hc, doubling_cons_dollar]
      rfl
    · rw [doubling_cons hc]
      rfl

/-- No dollar of the text starts an expansion. -/
def NoneExpands (text : Text) : Prop :=
  ∀ before after, text = before ++ '$' :: after → ¬ DollarExpands after

theorem noneExpands_nil : NoneExpands [] := by
  intro before after h
  simp at h

theorem noneExpands_cons {c : Char} {text : Text} :
    NoneExpands (c :: text) ↔ (c = '$' → ¬ DollarExpands text) ∧ NoneExpands text := by
  constructor
  · intro h
    refine ⟨?_, fun before after htext => h (c :: before) after (by rw [htext, List.cons_append])⟩
    rintro rfl
    exact h [] text rfl
  · rintro ⟨hc, h⟩ before after htext
    cases before with
    | nil =>
      cases htext
      exact hc rfl
    | cons d before =>
      cases htext
      exact h before after rfl

theorem items_doubling (limit : Nat) {text : Text} (h : NoneExpands text) :
    Items limit .outside 0 (doubling text) [] (text.map fun c => .text [c]) := by
  induction text with
  | nil => exact .nil
  | cons c text ih =>
    obtain ⟨hdollar, htext⟩ := noneExpands_cons.1 h
    by_cases hc : c = '$'
    · subst hc
      have hnext : ¬ DollarExpands (doubling text ++ []) := by
        rw [List.append_nil, dollarExpands_congr (head?_doubling text)]
        exact hdollar rfl
      rw [doubling_cons_dollar]
      exact .plain (.dollars hnext) (ih htext)
    · rw [doubling_cons hc]
      exact .plain (.outside_char hc) (ih htext)

/-- Doubling the dollars of a text undoes what reading does to them. -/
theorem parse_doubling (limit : Nat) {text : Text} (h : NoneExpands text) :
    parse limit (doubling text) = .ok (.text text) :=
  parse_eq_ok_iff.2 ⟨_, items_doubling limit h, (Node.ofPieces_map_text text).symm⟩

/-! ## Runs in a template -/

/-- **What a run of dollars contributes, wherever it stands.**  Let `k` dollars of a template stand
between a text that does not end with a dollar and one that does not begin with one.  Unless the first
is escaped, they are at a place, outside of every expansion or in a slot.  If an expansion can start
after them, they stand for `k / 2` dollars in front of an expansion that starts with the last of
them; otherwise for `(k + 1) / 2` dollars, and what follows them stands for the other nodes.  So a
text where no dollar can start an expansion is the value of the text with every dollar doubled,
whoever the caller is, who is not asked. -/
theorem dollar_runs [Engine] (limit : Nat) (input : Text) :
    (∀ root, parse limit input = .ok root →
      ∃ nodes, ∃ items : Items limit .outside 0 input [] nodes, root = .ofPieces nodes ∧
        ∀ before k after, input = before ++ List.replicate k '$' ++ after → 1 ≤ k →
          before.getLast? ≠ some '$' → after.head? ≠ some '$' →
          ¬ IsEscaped ⟨.outside, 0, input, [], nodes, items⟩ before →
          ∃ place inside, LeadsTo ⟨.outside, 0, input, [], nodes, items⟩ before place ∧
            place.text = List.replicate k '$' ++ inside ∧
            (DollarExpands after →
              ∃ more, place.nodes = List.replicate (k / 2) (.text ['$']) ++ more ∧
                StartsExpansion limit place.region place.depth inside place.next more) ∧
            (¬ DollarExpands after →
              ∃ more, place.nodes = List.replicate ((k + 1) / 2) (.text ['$']) ++ more ∧
                Items limit place.region place.depth inside place.next more)) ∧
      (NoneExpands input → ∀ (σ : Type) (mapping : Mapping σ) (caller : σ),
        evaluateWith limit mapping (doubling input) caller = (.ok input, { caller })) := by
  constructor
  · intro root hparse
    obtain ⟨nodes, items, rfl⟩ := parse_eq_ok_iff.1 hparse
    refine ⟨nodes, items, rfl, fun before k after hinput hk hbefore hafter hescaped => ?_⟩
    have hdollar : input = before ++ '$' :: (List.replicate (k - 1) '$' ++ after) := by
      rw [hinput, ← Nat.sub_add_cancel hk, List.replicate_succ]
      simp
    obtain ⟨place, hplace⟩ := (items.comesTo before _ hdollar hbefore).resolve_right hescaped
    obtain ⟨inside, htext, hhead⟩ := hplace.run rfl hinput
    have hrun : Items limit place.region place.depth (List.replicate k '$' ++ inside) place.next
        place.nodes := htext ▸ place.items
    have hinside : (inside ++ place.next).head? ≠ some '$' := hhead ▸ hafter
    refine ⟨place, inside, hplace, htext, fun hexpands => ?_, fun hexpands => ?_⟩
    · exact hrun.run_expanding hinside ((dollarExpands_congr hhead).1 hexpands) hk
    · exact hrun.run_plain hinside (mt (dollarExpands_congr hhead).2 hexpands)
  · intro h σ mapping caller
    rw [evaluateWith, read, parse_doubling limit h]
    rfl

attribute [local instance] Engine.standard

theorem dollar_runs_three :
    parse 64 ['$', '$', '$', 'a']
        = .ok (.sequence [.text ['$'], .expansion ['a'] none [] 0 ['$', 'a']]) ∧
      (∃ nodes, ∃ items : Items 64 .outside 0 ['$', '$', '$', 'a'] [] nodes,
        ∃ place inside more, LeadsTo ⟨.outside, 0, ['$', '$', '$', 'a'], [], nodes, items⟩ [] place ∧
          place.nodes = .text ['$'] :: more ∧
          StartsExpansion 64 place.region place.depth inside place.next more) ∧
      (evaluateWith 64 (pureMapping fun _ => none) ['$', '$', '$', '$'] ()).1
        = .ok ['$', '$'] := by
  have hparse : parse 64 ['$', '$', '$', 'a']
      = .ok (.sequence [.text ['$'], .expansion ['a'] none [] 0 ['$', 'a']]) := by cbv
  obtain ⟨nodes, items, -, hruns⟩ := (dollar_runs 64 ['$', '$', '$', 'a']).1 _ hparse
  have hescaped : ¬ IsEscaped ⟨.outside, 0, ['$', '$', '$', 'a'], [], nodes, items⟩ [] := by
    rintro ⟨left, place, after, hleft, -⟩
    simp at hleft
  obtain ⟨place, inside, hplace, -, hexpanding, -⟩ :=
    hruns [] 3 ['a'] rfl (by decide) (by decide) (by decide) hescaped
  obtain ⟨more, hnodes, hstarts⟩ := hexpanding (.inr ⟨'a', rfl, by cbv⟩)
  have hnone : NoneExpands ['$', '$'] := by
    refine noneExpands_cons.2 ⟨fun _ => not_dollarExpands_dollar [], noneExpands_cons.2 ⟨fun _ => ?_,
      noneExpands_nil⟩⟩
    rintro (h | ⟨c, h, -⟩) <;> cases h
  have heval := (dollar_runs 64 ['$', '$']).2 hnone Unit (pureMapping fun _ => none) ()
  exact ⟨hparse, ⟨nodes, items, place, inside, more, hplace, hnodes, hstarts⟩,
    congrArg Prod.fst heval⟩

end Template

end ShellExpansion
