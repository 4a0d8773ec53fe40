import ShellExpansion.Text
import Mathlib.Data.List.Basic

/-!
# Texts with backslashes

`escaping marked w` is a text with a backslash before each of its marked characters.

* `escaping_cons_of_mem`, `escaping_cons_of_not_mem` : how it begins.
* `escaping_eq_cons` : what can stand at its start.
* `escaping_eq_append` : what stands in it without a backslash stands in the text.
-/

namespace ShellExpansion

/-- A text with a backslash before each of its marked characters. -/
def escaping (marked : List Char) (w : Text) : Text :=
  w.flatMap fun c => if c ∈ marked then ['\\', c] else [c]

variable {marked : List Char} {c : Char} {w s : Text}

theorem escaping_cons_of_mem (hc : c ∈ marked) :
    escaping marked (c :: w) = '\\' :: c :: escaping marked w := by
  rw [escaping, List.flatMap_cons, if_pos hc]
  rfl

theorem escaping_cons_of_not_mem (hc : c ∉ marked) :
    escaping marked (c :: w) = c :: escaping marked w := by
  rw [escaping, List.flatMap_cons, if_neg hc]
  rfl

/-- Without marked characters nothing is put before any. -/
theorem escaping_nil_marked (w : Text) : escaping [] w = w := by
  induction w with
  | nil => rfl
  | cons c w ih => rw [escaping_cons_of_not_mem List.not_mem_nil, ih]

/-- The first character is one that is not marked, or a backslash that was put there. -/
theorem escaping_eq_cons (h : escaping marked w = c :: s) :
    (∃ w', w = c :: w' ∧ c ∉ marked ∧ s = escaping marked w') ∨
      ∃ d w', c = '\\' ∧ w = d :: w' ∧ d ∈ marked ∧ s = d :: escaping marked w' := by
  cases w with
  | nil => cases h
  | cons d w =>
    by_cases hd : d ∈ marked
    · rw [escaping_cons_of_mem hd] at h
      obtain ⟨rfl, rfl⟩ := List.cons.inj h
      exact .inr ⟨d, w, rfl, rfl, hd, rfl⟩
    · rw [escaping_cons_of_not_mem hd] at h
      obtain ⟨rfl, rfl⟩ := List.cons.inj h
      exact .inl ⟨w, rfl, hd, rfl⟩

theorem escaping_eq_nil (h : escaping marked w = []) : w = [] := by
  cases w with
  | nil => rfl
  | cons c w =>
    by_cases hc : c ∈ marked
    · rw [escaping_cons_of_mem hc] at h
      cases h
    · rw [escaping_cons_of_not_mem hc] at h
      cases h

/-- What stands at the start without a backslash stands at the start of the text. -/
theorem escaping_eq_append {plain rest : Text} (hplain : '\\' ∉ plain)
    (h : escaping marked w = plain ++ rest) :
    ∃ w', w = plain ++ w' ∧ rest = escaping marked w' := by
  induction plain generalizing w with
  | nil => exact ⟨w, rfl, h.symm⟩
  | cons c plain ih =>
    rcases escaping_eq_cons h with ⟨w, rfl, -, hw⟩ | ⟨d, w, rfl, -⟩
    · obtain ⟨w', rfl, hrest⟩ := ih (List.not_mem_of_not_mem_cons hplain) hw.symm
      exact ⟨w', rfl, hrest⟩
    · exact absurd List.mem_cons_self hplain

end ShellExpansion
