import ShellExpansion.Expansion.Template
import ShellExpansion.Glob.StandardEngine
import ShellExpansion.Proofs.Template.Source

/-!
# Writing a tree out again

A tree is written out as the text that it was read from, but for doubled dollars outside of every
expansion, of which one is left.  The tokens of a text, each with what was read for it
(`Tokens limit input tokens`), make this precise: they tile the text, and a tree is written out token
by token.

* `renderAll_joinPiece`, `render_ofPieces` : merging pieces does not change what is written.
* `scan_outside` : a token outside of every expansion, and the text that it takes.
* `Tokens.flatMap_snd`, `Tokens.unique` : the tokens tile the text, in one way only.
* `render_merged` : what is read is written token by token, by induction on the length of the text.
* `parse_of_no_dollar` : a text without a dollar stands for itself.
* `render_parse` : **only a doubled dollar is not written as it was read.**
-/

namespace ShellExpansion

namespace Node

/-! ## Merged pieces -/

theorem renderAll_joinPiece (piece : Node) (nodes : List Node) :
    renderAll (joinPiece piece nodes) = piece.render ++ renderAll nodes := by
  cases piece with
  | text a =>
    cases a with
    | nil => rfl
    | cons c a =>
      rw [joinPiece_text_cons]
      rcases nodes with _ | ⟨b | _ | _, rest⟩ <;> simp [renderAll, render]
  | expansion name op words nesting source => rfl
  | sequence nodes' => rfl

theorem renderAll_mergeText (pieces : List Node) :
    renderAll (mergeText pieces) = renderAll pieces := by
  induction pieces with
  | nil => rfl
  | cons piece pieces ih => rw [mergeText_cons, renderAll_joinPiece, ih, renderAll]

/-- A run of pieces is written out piece by piece. -/
theorem render_ofPieces (pieces : List Node) : (ofPieces pieces).render = renderAll pieces := by
  rw [← renderAll_mergeText, ofPieces]
  rcases mergeText pieces with _ | ⟨node, _ | ⟨node', nodes⟩⟩
  · rfl
  · simp [renderAll]
  · rfl

end Node

open Grammar

namespace Token

/-! ## Tokens outside of every expansion -/

/-- Without escapes a run is the text that was read for it. -/
theorem scanRun_append {kinds : TokenKinds} (hkinds : kinds.escapes = false) (accept : Acceptance)
    (index : Nat) (s : Text) :
    (scanRun kinds accept index s).1 ++ (scanRun kinds accept index s).2 = s := by
  fun_induction scanRun kinds accept index s <;> simp_all

/-- The first token outside of every expansion, and the text that was read for it. -/
inductive Reads : Token → Text → Text → Prop
  /-- A run is read as it stands. -/
  | run {text rest : Text} (hne : text ≠ []) : Reads (.run text) text rest
  /-- Of two dollars both are read unless the second starts an expansion. -/
  | dollars {rest : Text} (h : ¬ DollarExpands rest) : Reads .dollars ['$', '$'] rest
  /-- A dollar in front of one that starts an expansion. -/
  | dollar {rest : Text} (h : DollarExpands rest) : Reads .dollars ['$'] ('$' :: rest)
  /-- A dollar and a name. -/
  | reference {name rest : Text} (hname : IsName name) : Reads (.reference name) ('$' :: name) rest
  /-- A dollar and a brace. -/
  | opening {rest : Text} : Reads .opening ['$', '{'] rest

theorem Reads.ne_nil {token : Token} {consumed rest : Text} (h : Reads token consumed rest) :
    consumed ≠ [] := by
  cases h with
  | run hne => exact hne
  | _ => simp

/-- Outside of every expansion a text that is not at its end has a first token. -/
theorem scan_outside {s : Text} (hs : s ≠ []) :
    ∃ token consumed rest, s = consumed ++ rest ∧ Reads token consumed rest ∧
      scan Region.outside.kinds Region.outside.accepts s = (token, rest) := by
  rcases exists_item .outside 0 s with hends | ⟨item, next, node, hitem, rfl⟩ | ⟨t, rfl⟩
  · obtain ⟨c, t, rfl⟩ := List.exists_cons_of_ne_nil hs
    exact absurd (hends c rfl) List.not_mem_nil
  · cases hitem with
    | dollars h =>
      refine ⟨.dollars, ['$', '$'], next, rfl, .dollars h, ?_⟩
      rw [List.cons_append, List.singleton_append, Parser.scan_dollars,
        if_neg (mt Parser.dollarExpands_iff.2 h)]
    | @dollar rest h =>
      refine ⟨.dollars, ['$'], '$' :: rest, rfl, .dollar h, ?_⟩
      rw [List.singleton_append, Parser.scan_dollars, if_pos (Parser.dollarExpands_iff.1 h)]
    | reference hname hnext =>
      exact ⟨_, _, next, rfl, .reference hname, Parser.scan_reference hname hnext⟩
    | escaped hregion hc => exact absurd rfl hregion
    | @char c _ hends hdollar hescape =>
      have hnone : c = '$' → afterDollar? Region.outside.kinds next = none :=
        fun hc => Parser.afterDollar?_eq_none (hdollar hc).1 (hdollar hc).2
      have hstop : ¬ stopsRun Region.outside.kinds Region.outside.accepts 0 c next = true := by
        simp [Parser.stopsRun_iff, ends]
      have hrun := Parser.scanRun_char hstop hescape
      have hescapes : Region.outside.kinds.escapes = false := rfl
      have happend := scanRun_append hescapes Region.outside.accepts 0 (c :: next)
      rw [hrun] at happend
      exact ⟨_, _, _, happend.symm, .run (by simp), Parser.scan_of_scanRun_zero hnone hrun⟩
  · exact ⟨.opening, ['$', '{'], t, rfl, .opening, rfl⟩

/-- What a token was read from. -/
theorem Reads.of_scan {token : Token} {consumed rest : Text} (hne : consumed ≠ [])
    (h : scan Region.outside.kinds Region.outside.accepts (consumed ++ rest) = (token, rest)) :
    Reads token consumed rest := by
  obtain ⟨token', consumed', rest', hsplit, hreads, hscan⟩ :=
    scan_outside (s := consumed ++ rest) (by simp [hne])
  rw [h] at hscan
  cases hscan
  rwa [List.append_cancel_right hsplit]

end Token

namespace Template

/-- The tokens of a text outside of every expansion, each with what was read for it.  A braced
expansion is one of them, with all that stands in it. -/
inductive Tokens (limit : Nat) : Text → List (Token × Text) → Prop
  | nil : Tokens limit [] []
  /-- Any token but a brace. -/
  | token {consumed rest : Text} {token : Token} {tokens : List (Token × Text)}
      (hscan : Token.scan Region.outside.kinds Region.outside.accepts (consumed ++ rest)
        = (token, rest))
      (hne : consumed ≠ []) (hopening : token ≠ .opening) (tail : Tokens limit rest tokens) :
      Tokens limit (consumed ++ rest) ((token, consumed) :: tokens)
  /-- A brace, up to where the expansion that it opens ends. -/
  | braced {consumed inside rest : Text} {node : Node} {tokens : List (Token × Text)}
      (hscan : Token.scan Region.outside.kinds Region.outside.accepts (consumed ++ rest)
        = (.opening, inside))
      (hread : Parser.outcome (Parser.expansion limit 0 inside) = .ok (node, rest))
      (tail : Tokens limit rest tokens) :
      Tokens limit (consumed ++ rest) ((.opening, consumed) :: tokens)

/-- A token as it is written: of two dollars one is dropped. -/
def written (token : Token × Text) : Text :=
  if token = (.dollars, ['$', '$']) then ['$'] else token.2

variable {limit : Nat}

/-- The tokens tile the text. -/
theorem Tokens.flatMap_snd {input : Text} {tokens : List (Token × Text)}
    (h : Tokens limit input tokens) : tokens.flatMap Prod.snd = input := by
  induction h with
  | nil => rfl
  | token hscan hne hopening tail ih => rw [List.flatMap_cons, ih]
  | braced hscan hread tail ih => rw [List.flatMap_cons, ih]

/-- A text has only one list of tokens. -/
theorem Tokens.unique {input : Text} {tokens tokens' : List (Token × Text)}
    (h : Tokens limit input tokens) (h' : Tokens limit input tokens') : tokens = tokens' := by
  -- both derivations start with the token that is scanned; what is left fixes what it was read from
  induction h generalizing tokens' with
  | nil =>
    generalize hinput : ([] : Text) = input at h'
    cases h' with
    | nil => rfl
    | token hscan hne hopening tail =>
      exact absurd (List.append_eq_nil_iff.1 hinput.symm).1 hne
    | braced hscan hread tail =>
      rw [← hinput] at hscan
      cases hscan
  | @token consumed rest token tokens hscan hne hopening tail ih =>
    generalize hinput : consumed ++ rest = input at h'
    cases h' with
    | nil => exact absurd (List.append_eq_nil_iff.1 hinput).1 hne
    | token hscan' hne' hopening' tail' =>
      rw [← hinput, hscan] at hscan'
      cases hscan'
      rw [List.append_cancel_right hinput, ih tail']
    | braced hscan' hread' tail' =>
      rw [← hinput, hscan] at hscan'
      cases hscan'
      exact absurd rfl hopening
  | @braced consumed inside rest node tokens hscan hread tail ih =>
    generalize hinput : consumed ++ rest = input at h'
    cases h' with
    | nil =>
      rw [hinput] at hscan
      cases hscan
    | token hscan' hne' hopening' tail' =>
      rw [← hinput, hscan] at hscan'
      cases hscan'
      exact absurd rfl hopening'
    | braced hscan' hread' tail' =>
      rw [← hinput, hscan] at hscan'
      cases hscan'
      rw [hread] at hread'
      cases hread'
      rw [List.append_cancel_right hinput, ih tail']

theorem Tokens.of_append {input : Text} {before after : List (Token × Text)}
    (h : Tokens limit input (before ++ after)) : Tokens limit (after.flatMap Prod.snd) after := by
  induction before generalizing input with
  | nil =>
    have hinput : after.flatMap Prod.snd = input := h.flatMap_snd
    rwa [hinput]
  | cons token before ih =>
    cases h with
    | token hscan hne hopening tail => exact ih tail
    | braced hscan hread tail => exact ih tail

/-- The first token, unless it is a brace, and what it was read from. -/
theorem Tokens.reads {token : Token} {input consumed : Text} {tokens : List (Token × Text)}
    (h : Tokens limit input ((token, consumed) :: tokens)) (hopening : token ≠ .opening) :
    Token.Reads token consumed (tokens.flatMap Prod.snd) := by
  cases h with
  | token hscan hne _ tail =>
    rw [tail.flatMap_snd]
    exact .of_scan hne hscan
  | braced hscan hread tail => exact absurd rfl hopening

/-- Of the two dollars of a token both are read, unless the second starts an expansion. -/
theorem Tokens.dollars {input consumed : Text} {before after : List (Token × Text)}
    (h : Tokens limit input (before ++ (.dollars, consumed) :: after)) :
    consumed = ['$', '$'] ∧ ¬ DollarExpands (after.flatMap Prod.snd) ∨
      ∃ next, consumed = ['$'] ∧ after.flatMap Prod.snd = '$' :: next ∧ DollarExpands next := by
  have hreads : Token.Reads .dollars consumed (after.flatMap Prod.snd) := h.of_append.reads nofun
  generalize after.flatMap Prod.snd = rest at hreads ⊢
  cases hreads with
  | dollars hexpands => exact .inl ⟨rfl, hexpands⟩
  | dollar hexpands => exact .inr ⟨_, rfl, rfl, hexpands⟩

/-! ## Writing token by token -/

/-- What is read of a text is written out token by token. -/
def IsWritten (limit : Nat) (s : Text) : Prop :=
  ∀ nodes rest, Parser.merged limit .outside 0 s = .ok (nodes, rest) →
    ∃ tokens, Tokens limit s tokens ∧ Node.renderAll nodes = tokens.flatMap written

theorem IsWritten.token {token : Token} {consumed rest rest' : Text} {piece : Node}
    {nodes : List Node} (hrest : IsWritten limit rest)
    (hscan : Token.scan Region.outside.kinds Region.outside.accepts (consumed ++ rest)
      = (token, rest))
    (hne : consumed ≠ []) (hopening : token ≠ .opening)
    (hpiece : piece.render = written (token, consumed))
    (h : (Parser.merged limit .outside 0 rest).map (Parser.push piece) = .ok (nodes, rest')) :
    ∃ tokens, Tokens limit (consumed ++ rest) tokens ∧
      Node.renderAll nodes = tokens.flatMap written := by
  obtain ⟨⟨nodes', rest''⟩, hread, heq⟩ := Parser.except_map_eq_ok h
  cases heq
  obtain ⟨tokens, htokens, hrender⟩ := hrest _ _ hread
  refine ⟨(token, consumed) :: tokens, .token hscan hne hopening htokens, ?_⟩
  rw [Node.renderAll_joinPiece, hpiece, hrender, List.flatMap_cons]

theorem render_merged (limit : Nat) (s : Text) : IsWritten limit s := by
  induction hn : s.length using Nat.strong_induction_on generalizing s with
  | h n ih =>
    subst hn
    intro nodes rest h
    by_cases hs : s = []
    · subst hs
      rw [Parser.merged_of_ends fun c hc => by cases hc] at h
      cases h
      exact ⟨[], .nil, rfl⟩
    · obtain ⟨token, consumed, next, rfl, hreads, hscan⟩ := Token.scan_outside hs
      have hlt : ∀ t, t.length ≤ next.length → IsWritten limit t := by
        intro t ht
        have hpos := List.length_pos_iff.2 hreads.ne_nil
        exact ih t.length (by rw [List.length_append]; omega) t rfl
      have hnext : IsWritten limit next := hlt next le_rfl
      rw [Parser.merged_eq, hscan] at h
      cases hreads with
      | run hne => exact hnext.token hscan hne nofun rfl h
      | dollars hexpands => exact hnext.token hscan (by simp) nofun rfl h
      | dollar hexpands => exact hnext.token hscan (by simp) nofun rfl h
      | reference hname => exact hnext.token hscan (by simp) nofun rfl h
      | opening =>
        obtain ⟨⟨node, after⟩, hread, h⟩ := Parser.except_bind_eq_ok h
        obtain ⟨⟨nodes', rest'⟩, hread', heq⟩ := Parser.except_map_eq_ok h
        cases heq
        obtain ⟨-, body, rfl, hbraced⟩ :=
          Parser.expansion_sound (fun t _ => Parser.isDerived limit t) hread
        obtain ⟨name, op, words, rfl⟩ := hbraced.eq_expansion
        have hafter : IsWritten limit after := hlt after (by rw [List.length_append]; omega)
        obtain ⟨tokens, htokens, hrender⟩ := hafter _ _ hread'
        refine ⟨(.opening, '$' :: '{' :: body) :: tokens, ?_, ?_⟩
        · have hbraced : Tokens limit ('$' :: '{' :: body ++ after) _ := .braced hscan hread htokens
          simpa using hbraced
        · rw [Node.renderAll_joinPiece, hrender, List.flatMap_cons]
          rfl

/-- Where every token is written as it was read, the text is. -/
theorem flatMap_written {tokens : List (Token × Text)} (h : (.dollars, ['$', '$']) ∉ tokens) :
    tokens.flatMap written = tokens.flatMap Prod.snd := by
  refine List.flatMap_congr fun token htoken => ?_
  rw [written, if_neg]
  rintro rfl
  exact h htoken

/-! ## Texts without dollars -/

theorem items_of_no_dollar {input : Text} (h : '$' ∉ input) :
    Items limit .outside 0 input [] (input.map fun c => .text [c]) := by
  induction input with
  | nil => exact .nil
  | cons c input ih =>
    obtain ⟨hc, hinput⟩ := not_or.1 (mt List.mem_cons.2 h)
    exact .plain (.outside_char (Ne.symm hc)) (ih hinput)

/-- A text without a dollar is read as itself. -/
theorem parse_of_no_dollar {input : Text} (h : '$' ∉ input) :
    parse limit input = .ok (.text input) := by
  exact parse_eq_ok_iff.2 ⟨_, items_of_no_dollar h, (Node.ofPieces_map_text input).symm⟩

/-! ## Only doubled dollars are not written as they were read -/

/-- **A tree is written out as its text was read, but for doubled dollars.**  A text that is read has
one list of tokens outside of every braced expansion; they tile it, and its tree is written out token
by token, with one dollar left of every two that were read as one token: those that no `{` and no
name follows.  So a text without such a token is written out as it is, and a text without a dollar
stands for itself, whoever the caller is, who is not asked. -/
theorem render_parse [Engine] (limit : Nat) (input : Text) :
    (∀ root, parse limit input = .ok root →
      ∃ tokens, Tokens limit input tokens ∧
        (∀ tokens', Tokens limit input tokens' → tokens' = tokens) ∧
        tokens.flatMap Prod.snd = input ∧
        root.render = tokens.flatMap written ∧
        (∀ before consumed after, tokens = before ++ (.dollars, consumed) :: after →
          consumed = ['$', '$'] ∧ ¬ DollarExpands (after.flatMap Prod.snd) ∨
            ∃ next, consumed = ['$'] ∧ after.flatMap Prod.snd = '$' :: next ∧
              DollarExpands next) ∧
        ((.dollars, ['$', '$']) ∉ tokens → root.render = input)) ∧
      ('$' ∉ input → parse limit input = .ok (.text input) ∧
        ∀ (σ : Type) (mapping : Mapping σ) (caller : σ),
          evaluateWith limit mapping input caller = (.ok input, { caller })) := by
  constructor
  · intro root h
    rw [parse_eq_map] at h
    obtain ⟨⟨nodes, rest⟩, hread, rfl⟩ := Parser.except_map_eq_ok h
    obtain ⟨tokens, htokens, hrender⟩ := render_merged limit input _ _ hread
    have hroot : (Node.ofPieces nodes).render = tokens.flatMap written := by
      rw [Node.render_ofPieces, hrender]
    refine ⟨tokens, htokens, fun _ h => h.unique htokens, htokens.flatMap_snd, hroot, ?_, ?_⟩
    · rintro before consumed after rfl
      exact htokens.dollars
    · intro hnone
      rw [hroot, flatMap_written hnone, htokens.flatMap_snd]
  · intro h
    refine ⟨parse_of_no_dollar h, fun σ mapping caller => ?_⟩
    rw [evaluateWith, read, parse_of_no_dollar h]
    rfl

attribute [local instance] Engine.standard

theorem render_parse_dollars :
    parse 64 ['$', '$', '$', '{', 'a', '}', '$', '$', 'b']
        = .ok (.sequence [.text ['$'], .expansion ['a'] none [] 0 ['$', '{', 'a', '}'],
            .text ['$'], .expansion ['b'] none [] 0 ['$', 'b']]) ∧
      (∃ tokens, Tokens 64 ['$', '$', '$', '{', 'a', '}', '$', '$', 'b'] tokens ∧
        tokens.flatMap written = ['$', '$', '{', 'a', '}', '$', '$', 'b']) ∧
      '$' ∉ ['a'] ∧ parse 64 ['a'] = .ok (.text ['a']) := by
  have hparse : parse 64 ['$', '$', '$', '{', 'a', '}', '$', '$', 'b']
      = .ok (.sequence [.text ['$'], .expansion ['a'] none [] 0 ['$', '{', 'a', '}'],
          .text ['$'], .expansion ['b'] none [] 0 ['$', 'b']]) := by
    cbv
  obtain ⟨tokens, htokens, -, -, hrender, -⟩ := (render_parse 64 _).1 _ hparse
  have hplain := (render_parse 64 ['a']).2 (by decide)
  exact ⟨hparse, ⟨tokens, htokens, hrender.symm⟩, by decide, hplain.1⟩

end Template

end ShellExpansion
