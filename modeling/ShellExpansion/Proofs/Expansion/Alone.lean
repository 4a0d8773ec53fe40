import ShellExpansion.Proofs.Expansion.Concatenation
import ShellExpansion.Proofs.Template.Source

/-!
# An expansion alone

What becomes of a template that is one expansion with an operator: its words are expanded, then the
operator is applied to the value that the caller gives.

* `execute_alone` : the result, for a caller who is asked for values.
* `evaluate_alone` : the result where the words are texts.
* `parse_trimming` : how `${name##slot}` and `${name%%slot}` are read.
-/

namespace ShellExpansion

open Grammar

variable {σ : Type}

/-- A use of a pattern gives the operator its value. -/
theorem Applied.result_ofPatternUse {pattern result : Text} {use : PatternUse} :
    (Applied.ofPatternUse pattern use).result = .ok result ↔ use.result = .ok result := by
  rw [ofPatternUse]
  cases use.result <;> simp [Except.mapError]

theorem Node.expandAll_map_text [Engine] (mapping : Mapping σ) (texts : List Text) (run : Run σ) :
    expandAll mapping (texts.map text) run = (.ok texts, run) := by
  induction texts with
  | nil => rfl
  | cons t texts ih =>
    rw [List.map_cons, expandAll, expand]
    simp only [ih]

namespace Template

variable {name source : Text} {op : Operator} {words : List Node} {nesting : Nat}

/-- The words come first, then the value. -/
theorem execute_alone [Engine] (resolve : Text → σ → Option Text × σ) (caller : σ) :
    (execute (.standard resolve) (.expansion name (some op) words nesting source) caller).1 =
      match Node.expandAll (.standard resolve) words { caller } with
      | (.error e, _) => .error e
      | (.ok texts, run) =>
        (op.apply name (run.valueOf (.standard resolve) name none).1 texts).result := by
  rw [execute, Node.expand]
  simp only [Run.consult]
  rcases Node.expandAll (.standard resolve) words { caller } with ⟨e | texts, run⟩
  · rfl
  · simp only [Run.finish]
    generalize run.valueOf (.standard resolve) name none = answer
    cases hresult : (op.apply name answer.1 texts).result with
    | error e => rfl
    | ok text => rfl

/-- Words that are texts are given to the operator as they are. -/
theorem evaluate_alone [Engine] {limit : Nat} {input : Text} {texts : List Text}
    (h : parse limit input = .ok (.expansion name (some op) (texts.map .text) nesting source))
    (values : Text → Option Text) :
    (evaluateWith limit (pureMapping values) input ()).1
      = (op.apply name (values name) texts).result := by
  rw [evaluateWith_of_parse h, pureMapping, execute_alone, Node.expandAll_map_text]
  rfl

/-! ## Trims -/

theorem isName_singleton {c : Char} (h : isNameChar c = true) : IsName [c] :=
  ⟨List.cons_ne_nil _ _, List.forall_mem_singleton.2 h⟩

/-- `${name##slot}` and `${name%%slot}` -/
def trimming (side : Side) (name slot : Text) : Text :=
  '$' :: '{' :: name ++ (Operator.trim side .longest).spelling ++ slot ++ ['}']

variable {limit : Nat} {side : Side} {slot : Text} {nodes : List Node}

theorem parse_trimming (hname : IsName name)
    (hslot : Items limit .word 1 slot ['}'] nodes) :
    parse limit (trimming side name slot) = .ok (.expansion name (some (.trim side .longest))
      [.ofPieces nodes] 0 (trimming side name slot)) := by
  have hop : IsLongest wordOperators (.trim side .longest) (slot ++ ['}']) := by
    refine isLongest_word_iff.2 ⟨?_, fun _ hshort => ?_⟩
    · cases side <;> decide
    · cases hshort
  exact (Braced.word hname hop hslot).parse_eq

end Template

end ShellExpansion
