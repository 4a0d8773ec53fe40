import ShellExpansion.Proofs.Expansion.Alone
import ShellExpansion.Proofs.Value.Slicing

/-!
# Slices without a number

`${name:offset:length}` where the offset or the length is not a number.  Such a slice is the value
as it is, with one exception: an offset that is a number, and lies before the value, empties it
before anything is made of the length.

* `Slice.slice_of_notANumber` : without the exception a slice is the value.
* `Template.evaluate_slice` : the words are expanded, then the value is sliced.
* `Template.slice_without_number` : **a slice without a number is the value, unless it starts before
  the value.**
* `Template.slice_without_number_before` : the exception.
-/

namespace ShellExpansion

namespace Slice

variable {value offset : Text} {length : Option Text}

/-- The offset is an index, and lies before the value. -/
def StartsBefore (value offset : Text) : Prop :=
  ∃ o, IsIndex offset o ∧ exactStart value.length o.toInt < 0

theorem slice_of_startsBefore (hsize : value.length < 2 ^ 63) (h : StartsBefore value offset)
    (length : Option Text) : slice value offset length = [] := by
  obtain ⟨o, ho, hstart⟩ := h
  exact slice_of_start_neg hsize ho hstart length

theorem slice_of_notANumber (hsize : value.length < 2 ^ 63)
    (h : NotANumber offset ∨ ∃ l ∈ length, NotANumber l) (hstart : ¬ StartsBefore value offset) :
    slice value offset length = value := by
  cases hindex : index? offset with
  | none => exact slice_of_unreadable_offset hindex length
  | some o =>
    have ho := index?_eq_some_iff.1 hindex
    have hnonneg : 0 ≤ exactStart value.length o.toInt := by
      by_contra hneg
      exact hstart ⟨o, ho, by omega⟩
    rcases h with hoffset | ⟨l, hl, hlength⟩
    · rw [index?_of_notANumber hoffset] at hindex
      cases hindex
    · obtain rfl := Option.mem_def.1 hl
      exact slice_of_unreadable_length hsize ho hnonneg (index?_of_notANumber hlength)

theorem not_writes_singleton {c : Char} (hc : c.isDigit = false) (n : Int) :
    ¬ Integer.Writes [c] n := by
  intro h
  cases h with
  | unsigned h =>
    have hdigit := h.2 c (List.mem_singleton_self c)
    rw [hc] at hdigit
    cases hdigit
  | plus h => exact h.1 rfl
  | minus h => exact h.1 rfl

/-- A character that is neither a digit nor white space is not a number. -/
theorem notANumber_singleton {c : Char} (hspace : Unicode.isWhiteSpace c = false)
    (hc : c.isDigit = false) : NotANumber [c] :=
  ⟨[c], ⟨[], [], by simp [hspace]⟩, List.cons_ne_nil _ _, not_writes_singleton hc⟩

end Slice

namespace Template

open Slice

variable {σ : Type} {limit : Nat} {resolve : Text → σ → Option Text × σ} {caller : σ}
variable {input value offset : Text} {length : Option Text}

/-- For this caller the input is `${name:offset:length}`: its words come to the offset and the length,
and the name then has the value. -/
def IsSliceOf [Engine] (limit : Nat) (resolve : Text → σ → Option Text × σ) (caller : σ)
    (input value offset : Text) (length : Option Text) : Prop :=
  ∃ name words nesting source run,
    parse limit input = .ok (.expansion name (some .slice) words nesting source) ∧
      Node.expandAll (.standard resolve) words { caller } = (.ok (offset :: length.toList), run) ∧
      (run.valueOf (.standard resolve) name none).1.getD [] = value

theorem evaluate_slice [Engine] (h : IsSliceOf limit resolve caller input value offset length) :
    (evaluateWith limit (.standard resolve) input caller).1 = .ok (slice value offset length) := by
  obtain ⟨name, words, nesting, source, run, hparse, hwords, hvalue⟩ := h
  rw [evaluateWith_of_parse hparse, execute_alone, hwords]
  cases length <;> simp [Operator.apply, wordAt, hvalue]

/-- **A slice without a number is the value, unless it starts before the value.**  Let the offset,
or the length that is given, not be a number.  If the offset lies before the value, the slice is empty;
if it does not, the slice is the value.  This is what `${name:offset:length}` becomes, whatever
its words are before they are expanded and wherever its value comes from. -/
theorem slice_without_number [Engine] (hsize : value.length < 2 ^ 63)
    (h : NotANumber offset ∨ ∃ l ∈ length, NotANumber l) :
    (¬ StartsBefore value offset → slice value offset length = value) ∧
      (StartsBefore value offset → slice value offset length = []) ∧
      ∀ {σ : Type} {limit : Nat} {resolve : Text → σ → Option Text × σ} {caller : σ} {input : Text},
        IsSliceOf limit resolve caller input value offset length →
        (evaluateWith limit (.standard resolve) input caller).1
          = .ok (slice value offset length) := by
  refine ⟨slice_of_notANumber hsize h, ?_, ?_⟩
  · intro hstart
    exact slice_of_startsBefore hsize hstart length
  · intro σ limit resolve caller input hinput
    exact evaluate_slice hinput

attribute [local instance] Engine.standard

theorem slice_without_number_inside :
    NotANumber ['x'] ∧ ¬ StartsBefore ['a', 'b', 'c'] ['1'] ∧
      slice ['a', 'b', 'c'] ['1'] (some ['x']) = ['a', 'b', 'c'] ∧
      evaluate (fun _ => some ['a', 'b', 'c']) ['$', '{', 'v', ':', '1', ':', 'x', '}']
        = .ok ['a', 'b', 'c'] := by
  have hx : NotANumber ['x'] := notANumber_singleton (by cbv) (by cbv)
  have hstart : ¬ StartsBefore ['a', 'b', 'c'] ['1'] := by
    rintro ⟨o, ho, hneg⟩
    rw [← index?_eq_some_iff, show index? ['1'] = some 1 by cbv] at ho
    obtain rfl := Option.some.inj ho
    exact absurd hneg (by decide)
  have hsize : ['a', 'b', 'c'].length < 2 ^ 63 := by decide
  have hlength : NotANumber ['1'] ∨ ∃ l ∈ some ['x'], NotANumber l := .inr ⟨['x'], rfl, hx⟩
  obtain ⟨hkept, -, heval⟩ := slice_without_number hsize hlength
  have hparse : parse defaultLimit ['$', '{', 'v', ':', '1', ':', 'x', '}']
      = .ok (.expansion ['v'] (some .slice) ([['1'], ['x']].map .text) 0
          ['$', '{', 'v', ':', '1', ':', 'x', '}']) := by
    cbv
  have hinput : IsSliceOf defaultLimit (fun _ (_ : Unit) => (some ['a', 'b', 'c'], ())) ()
      ['$', '{', 'v', ':', '1', ':', 'x', '}'] ['a', 'b', 'c'] ['1'] (some ['x']) :=
    ⟨_, _, _, _, _, hparse, Node.expandAll_map_text _ _ _, rfl⟩
  have hresult := heval hinput
  rw [hkept hstart] at hresult
  exact ⟨hx, hstart, hkept hstart, hresult⟩

/-- An offset before the value empties it, although the length is not a number. -/
theorem slice_without_number_before :
    NotANumber ['x'] ∧ slice ['a', 'b', 'c'] [' ', '-', '4'] (some ['x']) = [] ∧
      evaluate (fun _ => some ['a', 'b', 'c']) ['$', '{', 'v', ':', ' ', '-', '4', ':', 'x', '}']
        = .ok [] := by
  refine ⟨notANumber_singleton (by cbv) (by cbv), ?_, ?_⟩
  · cbv
  · cbv

end Template

end ShellExpansion
