import ShellExpansion.Proofs.Template.Grammar
import ShellExpansion.Proofs.Template.Pieces
import Mathlib.Data.List.Induction

/-!
# Reading item by item

The reader takes text in runs; its result does not depend on that.  This file describes it by one
equation for each item of the grammar: where a region ends (`merged_of_ends`), for an item without
braces (`merged_plain`), and for a brace (`merged_opening`).  The equations hold for successful and
for failing readings alike.
-/

namespace ShellExpansion

open Grammar

namespace Parser

/-! ## Results without their bounds -/

/-- What a reader gives, without the fact that nothing was added to the text. -/
def outcome {α : Type} {s : Text} (result : Except Fault (Reading α s)) :
    Except Fault (α × Text) :=
  result.map fun reading => (reading.value, reading.rest)

/-- The pieces of a region with their texts merged, and what is left. -/
def merged (limit : Nat) (region : Region) (depth : Nat) (s : Text) :
    Except Fault (List Node × Text) :=
  (outcome (pieces limit region depth s)).map fun result => (Node.mergeText result.1, result.2)

/-- A piece in front of what was read after it. -/
def push (piece : Node) (result : List Node × Text) : List Node × Text :=
  (Node.joinPiece piece result.1, result.2)

theorem push_text_push_text (a b : Text) :
    push (.text a) ∘ push (.text b) = push (.text (a ++ b)) := by
  funext result
  exact Prod.ext (Node.joinPiece_text_append a b result.1) rfl

theorem except_map_map {ε α β γ : Type} (f : α → β) (g : β → γ) (x : Except ε α) :
    (x.map f).map g = x.map (g ∘ f) := by
  cases x <;> rfl

/-! ## One token at a time -/

/-- What is read after the first token decides, with the token, what is read. -/
theorem merged_eq (limit : Nat) (region : Region) (depth : Nat) (s : Text) :
    merged limit region depth s =
      match Token.scan region.kinds region.accepts s with
      | (.run text, rest) => (merged limit region depth rest).map (push (.text text))
      | (.dollars, rest) => (merged limit region depth rest).map (push (.text ['$']))
      | (.reference name, rest) =>
        (merged limit region depth rest).map (push (reference depth name))
      | (.opening, rest) =>
        (outcome (expansion limit depth rest)).bind fun found =>
          (merged limit region depth found.2).map (push found.1)
      | _ => .ok ([], s) := by
  unfold merged
  rw [pieces]
  split
  · rename_i rest h
    simp only [h]
    cases pieces limit region depth rest <;> rfl
  · rename_i rest h
    simp only [h]
    cases pieces limit region depth rest <;> rfl
  · rename_i rest h
    simp only [h]
    cases pieces limit region depth rest <;> rfl
  · rename_i rest h
    simp only [h]
    cases expansion limit depth rest with
    | error fault => rfl
    | ok node =>
      simp only [outcome, bind, Except.bind, Except.map]
      cases pieces limit region depth node.rest <;> rfl
  · rename_i hrun hdollars href hopen
    split
    · rename_i h; exact (hrun _ _ h).elim
    · rename_i h; exact (hdollars _ h).elim
    · rename_i h; exact (href _ _ h).elim
    · rename_i h; exact (hopen _ h).elim
    · rfl

section

variable {limit depth : Nat} {region : Region} {s t : Text} {c d : Char}

/-! ## Runs -/

theorem isTerminator_iff : region.isTerminator c = true ↔ c ∈ ends region := by
  cases region <;> simp [Region.isTerminator, ends]

theorem isEscapable_iff : isEscapable c = true ↔ c ∈ escapable := by
  simp [isEscapable, escapable, or_assoc]

theorem escapes_iff : region.kinds.escapes = true ↔ region ≠ .outside := by
  simp [Region.kinds]

/-- A run stops before a character that ends the region, and before a dollar that starts a token
unless the run has just begun. -/
theorem stopsRun_iff {index : Nat} :
    Token.stopsRun region.kinds region.accepts index c t = true ↔
      c ∈ ends region ∨ c = '$' ∧ 0 < index ∧ Token.afterDollar? region.kinds t ≠ none := by
  simp only [Token.stopsRun, Region.accepts, Bool.or_eq_true, Bool.not_not, isTerminator_iff,
    Bool.and_eq_true, beq_iff_eq, decide_eq_true_eq, Option.isSome_iff_ne_none]
  constructor <;> (rintro (h | h) <;> simp_all)

theorem scanRun_escaped {index : Nat} (hregion : region ≠ .outside) (hd : d ∈ escapable) :
    Token.scanRun region.kinds region.accepts index ('\\' :: d :: t)
      = (d :: (Token.scanRun region.kinds region.accepts (index + 1) t).1,
          (Token.scanRun region.kinds region.accepts (index + 1) t).2) := by
  simp [Token.scanRun, escapes_iff.2 hregion, isEscapable_iff.2 hd]

theorem scanRun_char {index : Nat}
    (hstop : ¬ Token.stopsRun region.kinds region.accepts index c t = true)
    (hescape : c = '\\' → region ≠ .outside → ∀ d ∈ t.head?, d ∉ escapable) :
    Token.scanRun region.kinds region.accepts index (c :: t)
      = (c :: (Token.scanRun region.kinds region.accepts (index + 1) t).1,
          (Token.scanRun region.kinds region.accepts (index + 1) t).2) := by
  cases t with
  | nil => simp [Token.scanRun, hstop]
  | cons d t =>
    have hesc : ¬ (region.kinds.escapes && c == '\\' && isEscapable d) = true := by
      simp only [Bool.and_eq_true, beq_iff_eq, escapes_iff, isEscapable_iff]
      rintro ⟨⟨hregion, hc⟩, hd⟩
      exact hescape hc hregion d rfl hd
    rw [Token.scanRun, if_neg hesc, if_neg hstop]

/-- Past its first character a run goes on in the same way wherever it has begun. -/
theorem scanRun_succ (region : Region) : ∀ (index : Nat) (s : Text),
    Token.scanRun region.kinds region.accepts (index + 1) s
      = Token.scanRun region.kinds region.accepts 1 s := by
  have hstops : ∀ (index : Nat) (c : Char) (t : Text),
      Token.stopsRun region.kinds region.accepts (index + 1) c t
        = Token.stopsRun region.kinds region.accepts 1 c t := by
    intro index c t
    simp [Token.stopsRun, Region.accepts]
  intro index s
  induction s using List.twoStepInduction generalizing index with
  | nil => rfl
  | singleton c => rw [Token.scanRun, Token.scanRun, hstops]
  | cons_cons c d s ih ih' =>
    rw [Token.scanRun, Token.scanRun, hstops, ih (index + 1), ih 1, ih' d (index + 1), ih' d 1]

/-- Where no dollar starts a token, a run that is not empty is the first token. -/
theorem scan_of_scanRun_zero {x : Char} {text rest : Text}
    (hdollar : c = '$' → Token.afterDollar? region.kinds t = none)
    (h : Token.scanRun region.kinds region.accepts 0 (c :: t) = (x :: text, rest)) :
    Token.scan region.kinds region.accepts (c :: t) = (.run (x :: text), rest) := by
  have htext : Token.scanText region.kinds region.accepts (c :: t) = (.run (x :: text), rest) := by
    rw [Token.scanText, if_pos (show region.kinds.run = true from rfl), h]
  unfold Token.scan
  split
  · simp_all
  · rename_i heq
    cases heq
    rw [hdollar rfl, Option.getD_none, htext]
  · rename_i heq
    cases heq
    rwa [if_neg (by simp [Region.kinds])]
  · exact htext

/-- A run that goes on with a text could also begin with it. -/
theorem scanRun_zero_of_one {x : Char} {text rest : Text}
    (h : Token.scanRun region.kinds region.accepts 1 (c :: t) = (x :: text, rest)) :
    Token.scanRun region.kinds region.accepts 0 (c :: t) = (x :: text, rest)
      ∧ (c = '$' → Token.afterDollar? region.kinds t = none) := by
  have hstop : ¬ Token.stopsRun region.kinds region.accepts 1 c t = true →
      ¬ Token.stopsRun region.kinds region.accepts 0 c t = true
        ∧ (c = '$' → Token.afterDollar? region.kinds t = none) := by
    simp only [stopsRun_iff, not_or, not_and, not_not]
    intro hstop
    exact ⟨⟨hstop.1, fun _ hlt => absurd hlt (Nat.lt_irrefl 0)⟩, fun hc => hstop.2 hc Nat.one_pos⟩
  cases t with
  | nil =>
    rw [Token.scanRun] at h
    split at h
    · simp at h
    · rename_i hgo
      rw [Token.scanRun, if_neg (hstop hgo).1]
      exact ⟨h, (hstop hgo).2⟩
  | cons d t =>
    rw [Token.scanRun] at h
    split at h
    · rename_i hesc
      rw [Token.scanRun, if_pos hesc]
      rw [scanRun_succ] at h ⊢
      refine ⟨h, ?_⟩
      simp only [Bool.and_eq_true, beq_iff_eq] at hesc
      rw [hesc.1.2]
      simp
    · rename_i hesc
      split at h
      · simp at h
      · rename_i hgo
        rw [Token.scanRun, if_neg hesc, if_neg (hstop hgo).1]
        rw [scanRun_succ] at h ⊢
        exact ⟨h, (hstop hgo).2⟩

/-- A text that a run goes on with is a run of its own. -/
theorem scan_of_scanRun {text rest : Text}
    (h : Token.scanRun region.kinds region.accepts 1 s = (text, rest)) (hne : text ≠ []) :
    Token.scan region.kinds region.accepts s = (.run text, rest) := by
  obtain ⟨x, text, rfl⟩ := List.exists_cons_of_ne_nil hne
  cases s with
  | nil => simp [Token.scanRun] at h
  | cons c t =>
    obtain ⟨hzero, hdollar⟩ := scanRun_zero_of_one h
    exact scan_of_scanRun_zero hdollar hzero

theorem scanRun_eq_nil {index : Nat} {rest : Text}
    (h : Token.scanRun region.kinds region.accepts index s = ([], rest)) : rest = s := by
  unfold Token.scanRun at h
  split at h
  · simp_all
  · split at h <;> simp_all
  · split at h
    · simp at h
    · split at h <;> simp_all

/-! ## Item by item -/

theorem merged_cons_of_scan {x : Char}
    (h : Token.scan region.kinds region.accepts s
      = (.run (x :: (Token.scanRun region.kinds region.accepts 1 t).1),
          (Token.scanRun region.kinds region.accepts 1 t).2)) :
    merged limit region depth s = (merged limit region depth t).map (push (.text [x])) := by
  rw [merged_eq, h]
  cases hrun : Token.scanRun region.kinds region.accepts 1 t with
  | mk text rest =>
    by_cases hne : text = []
    · subst hne
      rw [scanRun_eq_nil hrun]
    · rw [merged_eq limit region depth t, scan_of_scanRun hrun hne]
      simp only [except_map_map, push_text_push_text, List.cons_append, List.nil_append]

theorem merged_escaped (hregion : region ≠ .outside) (hc : c ∈ escapable) :
    merged limit region depth ('\\' :: c :: s)
      = (merged limit region depth s).map (push (.text [c])) := by
  refine merged_cons_of_scan (scan_of_scanRun_zero (by simp) ?_)
  rw [scanRun_escaped hregion hc]

theorem afterDollar?_eq_none (hdollar : s.head? ≠ some '$') (hexpands : ¬ DollarExpands s) :
    Token.afterDollar? region.kinds s = none := by
  cases s with
  | nil => rfl
  | cons c s =>
    simp only [DollarExpands, NameFollows, List.head?_cons, Option.some.injEq, not_or,
      Option.mem_def, exists_eq_left', ne_eq] at hdollar hexpands
    unfold Token.afterDollar?
    split <;> simp_all

theorem merged_char (hends : c ∉ ends region)
    (hdollar : c = '$' → s.head? ≠ some '$' ∧ ¬ DollarExpands s)
    (hescape : c = '\\' → region ≠ .outside → ∀ d ∈ s.head?, d ∉ escapable) :
    merged limit region depth (c :: s)
      = (merged limit region depth s).map (push (.text [c])) := by
  have hnone : c = '$' → Token.afterDollar? region.kinds s = none :=
    fun hc => afterDollar?_eq_none (hdollar hc).1 (hdollar hc).2
  have hstop : ¬ Token.stopsRun region.kinds region.accepts 0 c s = true := by
    rw [stopsRun_iff]
    rintro (h | ⟨-, h, -⟩)
    · exact hends h
    · exact absurd h (Nat.lt_irrefl 0)
  refine merged_cons_of_scan (scan_of_scanRun_zero hnone ?_)
  rw [scanRun_char hstop hescape]

theorem scan_dollars (region : Region) (s : Text) :
    Token.scan region.kinds region.accepts ('$' :: '$' :: s)
      = (.dollars, if s.head?.any (fun c => c = '{' || isNameChar c) then '$' :: s else s) := by
  cases s <;> simp [Token.scan, Token.afterDollar?, Region.kinds]

theorem dollarExpands_iff :
    DollarExpands s ↔ s.head?.any (fun c => c = '{' || isNameChar c) = true := by
  cases s <;> simp [DollarExpands, NameFollows]

theorem merged_dollars (h : ¬ DollarExpands s) :
    merged limit region depth ('$' :: '$' :: s)
      = (merged limit region depth s).map (push (.text ['$'])) := by
  rw [merged_eq, scan_dollars, if_neg (mt dollarExpands_iff.2 h)]

theorem merged_dollar (h : DollarExpands s) :
    merged limit region depth ('$' :: '$' :: s)
      = (merged limit region depth ('$' :: s)).map (push (.text ['$'])) := by
  rw [merged_eq, scan_dollars, if_pos (dollarExpands_iff.1 h)]

theorem takeWhile_name {name next : Text} (hname : ∀ c ∈ name, isNameChar c = true)
    (hnext : ¬ NameFollows next) : (name ++ next).takeWhile isNameChar = name := by
  rw [List.takeWhile_append_of_pos hname]
  cases next with
  | nil => rw [List.takeWhile_nil, List.append_nil]
  | cons c next =>
    rw [List.takeWhile_cons_of_neg fun hc => hnext ⟨c, rfl, hc⟩, List.append_nil]

theorem dropWhile_name {name next : Text} (hname : ∀ c ∈ name, isNameChar c = true)
    (hnext : ¬ NameFollows next) : (name ++ next).dropWhile isNameChar = next := by
  rw [List.dropWhile_append_of_pos hname]
  cases next with
  | nil => rfl
  | cons c next => rw [List.dropWhile_cons_of_neg fun hc => hnext ⟨c, rfl, hc⟩]

theorem isNameChar_ne {c d : Char} (hc : isNameChar c = true) (hd : isNameChar d = false) :
    c ≠ d := by
  rintro rfl
  rw [hc] at hd
  cases hd

theorem not_nameFollows_cons (h : isNameChar c = false) : ¬ NameFollows (c :: s) := by
  rintro ⟨d, hd, hname⟩
  cases hd
  rw [h] at hname
  cases hname

theorem head?_name_append {name : Text} (hname : IsName name) (h : isNameChar c = false) :
    (name ++ s).head? ≠ some c := by
  obtain ⟨d, name', rfl⟩ := List.exists_cons_of_ne_nil hname.1
  exact fun heq => isNameChar_ne (hname.2 d List.mem_cons_self) h (Option.some.inj heq)

theorem scan_reference {name next : Text} (hname : IsName name) (hnext : ¬ NameFollows next) :
    Token.scan region.kinds region.accepts ('$' :: (name ++ next)) = (.reference name, next) := by
  obtain ⟨hne, hall⟩ := hname
  obtain ⟨c, name, rfl⟩ := List.exists_cons_of_ne_nil hne
  have hc : isNameChar c = true := hall c List.mem_cons_self
  have hall' : ∀ d ∈ name, isNameChar d = true := fun d hd => hall d (List.mem_cons_of_mem c hd)
  have hbrace : c ≠ '{' := isNameChar_ne hc (by decide)
  have hdollar : c ≠ '$' := isNameChar_ne hc (by decide)
  have hfound : Token.afterDollar? region.kinds (c :: name ++ next)
      = some (.reference (c :: name), next) := by
    rw [List.cons_append]
    unfold Token.afterDollar?
    split
    · simp_all
    · simp_all
    · simp_all
    · rename_i heq
      cases heq
      rw [if_pos (by simp [Region.kinds, hc]), takeWhile_name hall' hnext,
        dropWhile_name hall' hnext]
  rw [Token.scan, hfound, Option.getD_some]

theorem merged_reference {name next : Text} (hname : IsName name) (hnext : ¬ NameFollows next) :
    merged limit region depth ('$' :: (name ++ next))
      = (merged limit region depth next).map (push (reference depth name)) := by
  rw [merged_eq, scan_reference hname hnext]

/-- An item without braces is read as the node that the grammar gives it. -/
theorem merged_plain {item next : Text} {node : Node} (h : Plain region depth item next node) :
    merged limit region depth (item ++ next)
      = (merged limit region depth next).map (push node) := by
  cases h with
  | dollars h => exact merged_dollars h
  | dollar h => exact merged_dollar h
  | reference hname hnext => exact merged_reference hname hnext
  | escaped hregion hc => exact merged_escaped hregion hc
  | char hends hdollar hescape => exact merged_char hends hdollar hescape

theorem mem_ends (h : c ∈ ends region) : c = '}' ∨ c = ':' ∨ c = '/' := by
  cases region <;> simp only [ends, List.mem_cons, List.not_mem_nil, or_false] at h
  · exact .inl h
  · exact h.elim (fun h => .inr (.inl h)) .inl
  · exact h.elim (fun h => .inr (.inr h)) .inl

theorem scanRun_of_mem_ends {index : Nat} (h : c ∈ ends region) :
    Token.scanRun region.kinds region.accepts index (c :: s) = ([], c :: s) := by
  have hstop : Token.stopsRun region.kinds region.accepts index c s = true :=
    stopsRun_iff.2 (.inl h)
  have hc : c ≠ '\\' := by
    rcases mem_ends h with rfl | rfl | rfl <;> decide
  cases s with
  | nil => rw [Token.scanRun, if_pos hstop]
  | cons d s => rw [Token.scanRun, if_neg (by simp [hc]), if_pos hstop]

/-- Nothing is read where the region ends. -/
theorem merged_of_ends (h : Ends region s) : merged limit region depth s = .ok ([], s) := by
  rw [merged_eq]
  cases s with
  | nil => rfl
  | cons c s =>
    have hc : c ∈ ends region := h c rfl
    have hscan : Token.scan region.kinds region.accepts (c :: s) = (.illegal, c :: s) := by
      have htext : Token.scanText region.kinds region.accepts (c :: s) = (.illegal, c :: s) := by
        rw [Token.scanText, if_pos (show region.kinds.run = true from rfl), scanRun_of_mem_ends hc]
      rcases mem_ends hc with rfl | rfl | rfl <;> exact htext
    rw [hscan]

/-- A brace opens an expansion. -/
theorem merged_opening (s : Text) :
    merged limit region depth ('$' :: '{' :: s)
      = (outcome (expansion limit depth s)).bind fun found =>
          (merged limit region depth found.2).map (push found.1) := by
  rw [merged_eq]
  rfl

end

end Parser

end ShellExpansion
