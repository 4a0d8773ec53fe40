import ShellExpansion.Proofs.Template.Braces
import ShellExpansion.Proofs.Template.Operators
import Mathlib.Data.List.Basic

/-!
# What the grammar derives is read

A derivation determines what the reader makes of its text (`Items.reads`, `Braced.reads`).  The
induction is over derivations, and carries the claim for every continuation that an item cannot tell
from the one in the derivation (`Agree`): a slot is derived in front of one character only, but is
read in front of everything that comes after it.
-/

namespace ShellExpansion

namespace Grammar

/-! ## How far an item looks -/

/-- Two texts that no item tells apart: they start with the same character, and if this is a dollar
the same character follows. -/
def Agree (a b : Text) : Prop :=
  a.head? = b.head? ∧ (a.head? = some '$' → a.tail.head? = b.tail.head?)

theorem Agree.refl (a : Text) : Agree a a := ⟨rfl, fun _ => rfl⟩

theorem agree_cons {c : Char} (hc : c ≠ '$') (a b : Text) : Agree (c :: a) (c :: b) :=
  ⟨rfl, fun h => absurd (Option.some.inj h) hc⟩

theorem Agree.append {a b : Text} (h : Agree a b) (text : Text) :
    Agree (text ++ a) (text ++ b) := by
  rcases text with _ | ⟨c, _ | ⟨d, text⟩⟩
  · exact h
  · exact ⟨rfl, fun _ => h.1⟩
  · exact ⟨rfl, fun _ => rfl⟩

theorem nameFollows_congr {a b : Text} (h : a.head? = b.head?) : NameFollows a ↔ NameFollows b := by
  rw [NameFollows, NameFollows, h]

theorem dollarExpands_congr {a b : Text} (h : a.head? = b.head?) :
    DollarExpands a ↔ DollarExpands b := by
  rw [DollarExpands, DollarExpands, h, nameFollows_congr h]

theorem Plain.congr {region : Region} {depth : Nat} {item a b : Text} {node : Node}
    (h : Plain region depth item a node) (hab : Agree a b) : Plain region depth item b node := by
  cases h with
  | dollars h => exact .dollars (mt (dollarExpands_congr hab.1).2 h)
  | dollar h =>
    obtain ⟨t, rfl⟩ : ∃ t, b = '$' :: t := by
      cases b with
      | nil => simp [Agree] at hab
      | cons c b => exact ⟨b, by rw [Option.some.inj hab.1]⟩
    exact .dollar ((dollarExpands_congr (hab.2 rfl)).1 h)
  | reference hname hnext => exact .reference hname (mt (nameFollows_congr hab.1).2 hnext)
  | escaped hregion hc => exact .escaped hregion hc
  | char hends hdollar hescape =>
    refine .char hends ?_ (hab.1 ▸ hescape)
    rw [← dollarExpands_congr hab.1, ← hab.1]
    exact hdollar

/-- What follows a sequence of items matters no further than an item looks. -/
theorem Items.congr {limit depth : Nat} {region : Region} {text a b : Text} {nodes : List Node} :
    Items limit region depth text a nodes → Agree a b → Items limit region depth text b nodes
  | .nil, _ => .nil
  | .plain head tail, hab => .plain (head.congr (hab.append _)) (tail.congr hab)
  | .braced hdepth head tail, hab => .braced hdepth head (tail.congr hab)

theorem head?_append_cons (text : Text) (c : Char) (a b : Text) :
    (text ++ c :: a).head? = (text ++ c :: b).head? := by
  cases text <;> rfl

theorem ne_dollar_of_mem_ends {region : Region} {c : Char} (h : c ∈ ends region) : c ≠ '$' := by
  rcases Parser.mem_ends h with rfl | rfl | rfl <;> decide

/-- Outside of every expansion any character but a dollar stands for itself. -/
theorem Plain.outside_char {depth : Nat} {c : Char} {next : Text} (hc : c ≠ '$') :
    Plain .outside depth [c] next (.text [c]) :=
  .char List.not_mem_nil (fun h => absurd h hc) fun _ hregion => absurd rfl hregion

/-! ## Empty slots -/

theorem Plain.isEmptyText {region : Region} {depth : Nat} {item next : Text} {node : Node}
    (h : Plain region depth item next node) : node.isEmptyText = false := by
  cases h <;> rfl

theorem Plain.ne_nil {region : Region} {depth : Nat} {item next : Text} {node : Node}
    (h : Plain region depth item next node) : item ≠ [] := by
  cases h <;> simp

theorem Braced.isEmptyText {limit depth : Nat} {text : Text} {node : Node}
    (h : Braced limit depth text node) : node.isEmptyText = false := by
  cases h <;> rfl

theorem Braced.ne_nil {limit depth : Nat} {text : Text} {node : Node}
    (h : Braced limit depth text node) : text ≠ [] := by
  cases h <;> simp

/-- The node of a slot is empty text only if the slot has no item. -/
theorem Items.isEmptyText_iff {limit depth : Nat} {region : Region} {text next : Text}
    {nodes : List Node} (h : Items limit region depth text next nodes) :
    (Node.ofPieces nodes).isEmptyText = true ↔ text = [] := by
  cases h with
  | nil => exact iff_of_true rfl rfl
  | plain head tail =>
    simp [Node.isEmptyText_ofPieces_cons head.isEmptyText, head.ne_nil]
  | braced hdepth head tail =>
    simp [Node.isEmptyText_ofPieces_cons head.isEmptyText, head.ne_nil]

theorem Items.isEmptyText_eq_false {limit depth : Nat} {region : Region} {text next : Text}
    {nodes : List Node} (h : Items limit region depth text next nodes) (hne : text ≠ []) :
    (Node.ofPieces nodes).isEmptyText = false :=
  Bool.eq_false_iff.2 (mt h.isEmptyText_iff.1 hne)

end Grammar

namespace Parser

open Grammar

variable {limit depth : Nat} {region : Region}

/-! ## Slots and braces -/

/-- What the reader makes of items, whatever comes after them. -/
def ReadsItems (limit : Nat) (region : Region) (depth : Nat) (text next : Text)
    (nodes : List Node) : Prop :=
  ∀ next', Agree next next' →
    merged limit region depth (text ++ next')
      = (merged limit region depth next').map fun result =>
          (nodes.foldr Node.joinPiece result.1, result.2)

/-- What the reader makes of a braced expansion, whatever comes after it. -/
def ReadsBraced (limit depth : Nat) (text : Text) (node : Node) : Prop :=
  ∃ body, text = '$' :: '{' :: body ∧
    ∀ rest, outcome (expansion limit depth (body ++ rest)) = .ok (node, rest)

/-- A slot is read up to the character that ends it. -/
theorem ReadsItems.slot {text : Text} {c : Char} {nodes : List Node}
    (h : ReadsItems limit region depth text [c] nodes) (hc : c ∈ ends region) (rest : Text) :
    merged limit region depth (text ++ c :: rest) = .ok (Node.mergeText nodes, c :: rest) := by
  have hends : Ends region (c :: rest) := by
    intro d hd
    cases hd
    exact hc
  rw [h (c :: rest) (agree_cons (ne_dollar_of_mem_ends hc) [] rest), merged_of_ends hends]
  rfl

/-! ## Words -/

section

variable {word offset length pattern : Text} {nodes nodes' : List Node}

theorem words_of_word (h : ReadsItems limit .word (depth + 1) word ['}'] nodes) (rest : Text) :
    outcome (words limit .word depth (word ++ '}' :: rest))
      = .ok ([.ofPieces nodes], '}' :: rest) := by
  rw [words_eq]
  simp only [h.slot (by decide), Except.map, Node.ofPieces_mergeText]

theorem words_of_offset (h : ReadsItems limit .field (depth + 1) offset ['}'] nodes)
    (hne : (Node.ofPieces nodes).isEmptyText = false) (rest : Text) :
    outcome (words limit .fields depth (offset ++ '}' :: rest))
      = .ok ([.ofPieces nodes], '}' :: rest) := by
  rw [words_eq]
  simp only [h.slot (show '}' ∈ ends .field by decide), Except.bind, Node.ofPieces_mergeText, hne,
    Bool.false_eq_true, if_false]

theorem words_of_slice (h : ReadsItems limit .field (depth + 1) offset [':'] nodes)
    (h' : ReadsItems limit .field (depth + 1) length ['}'] nodes')
    (hne : (Node.ofPieces nodes).isEmptyText = false) (rest : Text) :
    outcome (words limit .fields depth (offset ++ ':' :: (length ++ '}' :: rest)))
      = .ok ([.ofPieces nodes, .ofPieces nodes'], '}' :: rest) := by
  rw [words_eq]
  simp only [h.slot (show ':' ∈ ends .field by decide), h'.slot (show '}' ∈ ends .field by decide),
    Except.bind, Except.map, Node.ofPieces_mergeText, hne, Bool.false_eq_true, if_false]

theorem words_of_pattern (h : ReadsItems limit .pattern (depth + 1) pattern ['}'] nodes)
    (rest : Text) :
    outcome (words limit .replacement depth (pattern ++ '}' :: rest))
      = .ok ([.ofPieces nodes, .text []], '}' :: rest) := by
  rw [words_eq]
  simp only [h.slot (show '}' ∈ ends .pattern by decide), Except.bind, Node.ofPieces_mergeText]

theorem words_of_replacement (h : ReadsItems limit .pattern (depth + 1) pattern ['/'] nodes)
    (h' : ReadsItems limit .word (depth + 1) word ['}'] nodes') (rest : Text) :
    outcome (words limit .replacement depth (pattern ++ '/' :: (word ++ '}' :: rest)))
      = .ok ([.ofPieces nodes, .ofPieces nodes'], '}' :: rest) := by
  rw [words_eq]
  simp only [h.slot (show '/' ∈ ends .pattern by decide), h'.slot (show '}' ∈ ends .word by decide),
    Except.bind, Except.map, Node.ofPieces_mergeText]

end

/-! ## Expansions -/

/-- After a name and an operator, words and a brace are an expansion. -/
theorem expansion_of_words {name after body rest t : Text} {op : Operator} {args : List Node}
    (hlimit : depth ≤ limit) (hname : IsName name) (hfind : Operator.find after = .operator op t)
    (hwords : outcome (words limit op.layout depth t) = .ok (args, '}' :: rest))
    (hbody : name ++ after = body ++ rest) :
    outcome (expansion limit depth (body ++ rest))
      = .ok (.expansion name (some op) args depth ('$' :: '{' :: body), rest) := by
  have hafter : ¬ NameFollows after := not_nameFollows_of_find hfind
  rw [← hbody, expansion_named hlimit (head?_name_append hname (by decide)),
    takeWhile_name hname.2 hafter, dropWhile_name hname.2 hafter, if_neg hname.1]
  simp only [hfind, hwords, closeBrace_eq, Except.bind, Except.map, braced]
  rw [hbody, Text.read_append]

theorem expansion_of_name {name rest : Text} (hlimit : depth ≤ limit) (hname : IsName name) :
    outcome (expansion limit depth (name ++ '}' :: rest))
      = .ok (.expansion name none [] depth ('$' :: '{' :: name ++ ['}']), rest) := by
  have hread : Text.read (name ++ '}' :: rest) rest = name ++ ['}'] := by
    rw [List.append_cons, Text.read_append]
  have hafter : ¬ NameFollows ('}' :: rest) := not_nameFollows_cons (by decide)
  rw [expansion_named hlimit (head?_name_append hname (by decide)),
    takeWhile_name hname.2 hafter, dropWhile_name hname.2 hafter, if_neg hname.1]
  have hfind : Operator.find ('}' :: rest) = .nothing := rfl
  simp only [hfind, braced, hread, List.cons_append]

theorem expansion_of_length {name rest : Text} (hlimit : depth ≤ limit) (hname : IsName name) :
    outcome (expansion limit depth ('#' :: name ++ '}' :: rest))
      = .ok
          (.expansion name (some .length) [] depth ('$' :: '{' :: '#' :: name ++ ['}']), rest) := by
  have hread : Text.read ('#' :: (name ++ '}' :: rest)) rest = '#' :: name ++ ['}'] := by
    rw [List.append_cons, ← List.cons_append, Text.read_append, List.cons_append]
  have hafter : ¬ NameFollows ('}' :: rest) := not_nameFollows_cons (by decide)
  rw [List.cons_append, expansion_hash hlimit, takeWhile_name hname.2 hafter,
    dropWhile_name hname.2 hafter, if_neg hname.1, closeBrace_eq]
  simp only [Except.map, braced, hread, List.cons_append]

end Parser

namespace Grammar

open ShellExpansion.Parser

variable {limit : Nat}

/-! ## Completeness -/

mutual

/-- A derived sequence of items is read, in front of whatever an item cannot tell from what follows
it in the derivation. -/
theorem Items.reads {region : Region} {depth : Nat} {text next : Text} {nodes : List Node} :
    Items limit region depth text next nodes → ReadsItems limit region depth text next nodes
  | .nil => by
    rintro next' -
    rw [List.nil_append]
    cases merged limit region depth next' <;> rfl
  | .plain head tail => by
    intro next' hagree
    rw [List.append_assoc, merged_plain (head.congr (hagree.append _)), tail.reads next' hagree,
      except_map_map]
    rfl
  | .braced hdepth head tail => by
    intro next' hagree
    obtain ⟨body, rfl, hread⟩ := head.reads hdepth
    rw [List.append_assoc, List.cons_append, List.cons_append, merged_opening, hread]
    simp only [Except.bind]
    rw [tail.reads next' hagree, except_map_map]
    rfl

/-- A derived expansion is read, whatever follows it. -/
theorem Braced.reads {depth : Nat} {text : Text} {node : Node} :
    Braced limit depth text node → depth ≤ limit → ReadsBraced limit depth text node
  | @Braced.length _ _ name hname, hlimit => by
    refine ⟨'#' :: name ++ ['}'], rfl, fun rest => ?_⟩
    rw [← List.append_cons]
    exact expansion_of_length hlimit hname
  | @Braced.name _ _ name hname, hlimit => by
    refine ⟨name ++ ['}'], rfl, fun rest => ?_⟩
    rw [← List.append_cons]
    exact expansion_of_name hlimit hname
  | @Braced.casing _ _ name op hname hop, hlimit => by
    refine ⟨name ++ op.spelling ++ ['}'], rfl, fun rest => ?_⟩
    refine expansion_of_words hlimit hname (find_of_mem_caseOperators hop rest) ?_ (by simp)
    rw [layout_of_mem_caseOperators op hop, words_eq]
  | @Braced.word _ _ name word op _ hname hop hword, hlimit => by
    refine ⟨name ++ op.spelling ++ word ++ ['}'], rfl, fun rest => ?_⟩
    have hop' : IsLongest wordOperators op (word ++ '}' :: rest) :=
      (isLongest_word_congr (head?_append_cons word '}' [] rest)).1 hop
    refine expansion_of_words hlimit hname (find_of_isLongest_word hop') ?_ (by simp)
    rw [layout_of_mem_wordOperators op hop.1]
    exact words_of_word hword.reads rest
  | @Braced.offset _ _ name offset _ hname hfirst hne hoffset, hlimit => by
    refine ⟨name ++ ':' :: offset ++ ['}'], rfl, fun rest => ?_⟩
    have hfirst' : ∀ c ∈ (offset ++ '}' :: rest).head?, c ∉ ['=', '-', '?', '+'] := by
      rwa [List.head?_append_of_ne_nil offset hne]
    refine expansion_of_words hlimit hname (find_colon hfirst') ?_ (by simp)
    exact words_of_offset hoffset.reads (hoffset.isEmptyText_eq_false hne) rest
  | @Braced.slice _ _ name offset length _ _ hname hfirst hne hoffset hlength, hlimit => by
    refine ⟨name ++ ':' :: offset ++ ':' :: length ++ ['}'], rfl, fun rest => ?_⟩
    have hfirst' : ∀ c ∈ (offset ++ ':' :: (length ++ '}' :: rest)).head?,
        c ∉ ['=', '-', '?', '+'] := by
      rwa [List.head?_append_of_ne_nil offset hne]
    refine expansion_of_words hlimit hname (find_colon hfirst') ?_ (by simp)
    exact words_of_slice hoffset.reads hlength.reads (hoffset.isEmptyText_eq_false hne) rest
  | @Braced.pattern _ _ name pattern op _ hname hop hpattern, hlimit => by
    refine ⟨name ++ op.spelling ++ pattern ++ ['}'], rfl, fun rest => ?_⟩
    have hop' : IsLongest replaceOperators op (pattern ++ '}' :: rest) :=
      (isLongest_replace_congr (head?_append_cons pattern '}' [] rest)).1 hop
    refine expansion_of_words hlimit hname (find_of_isLongest_replace hop') ?_ (by simp)
    rw [layout_of_mem_replaceOperators op hop.1]
    exact words_of_pattern hpattern.reads rest
  | @Braced.replacement _ _ name pattern word op _ _ hname hop hpattern hword, hlimit => by
    refine ⟨name ++ op.spelling ++ pattern ++ '/' :: word ++ ['}'], rfl, fun rest => ?_⟩
    have hop' : IsLongest replaceOperators op (pattern ++ '/' :: (word ++ '}' :: rest)) := by
      rw [List.append_assoc, List.cons_append] at hop
      exact (isLongest_replace_congr (head?_append_cons pattern '/' _ _)).1 hop
    refine expansion_of_words hlimit hname (find_of_isLongest_replace hop') ?_ (by simp)
    rw [layout_of_mem_replaceOperators op hop.1]
    exact words_of_replacement hpattern.reads hword.reads rest

end

end Grammar

end ShellExpansion
