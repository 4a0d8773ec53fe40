import ShellExpansion.Glob.StandardEngine
import ShellExpansion.Proofs.Glob.Matching
import ShellExpansion.Value.PatternUse

/-!
# Searches that are given up

The engine can only give up the search for a pattern that has a bracket expression without members,
and such a pattern matches nothing.  So giving up never hides a match.

* `not_givesUp_of_fits`, `not_givesUp_of_short` : the searches that are never given up.
* `not_givesUp_of_splitsBy` : **the search for a pattern that matches anything is never given up.**
-/

namespace ShellExpansion.Glob

variable [Engine] {atStart atEnd : Bool} {pattern regex value s : Text} {pieces : List Piece}
  {steps : List Step}

/-! ## What is never given up -/

/-- A pattern in which every piece fits something. -/
theorem not_givesUp_of_fits (h : ∀ piece ∈ read pattern, piece.fitsNothing = false) :
    givesUp pattern regex value = false := by
  have hany : (read pattern).any Piece.fitsNothing = false :=
    List.any_eq_false.2 fun piece hpiece => Bool.eq_false_iff.1 (h piece hpiece)
  rw [givesUp, hany, Bool.false_and, Bool.false_and]

/-- A short value, and a pattern with few `*`s. -/
theorem not_givesUp_of_short
    (h : (value.length + 2).pow ((read pattern).count .many + 1) ≤ backtrackLimit) :
    givesUp pattern regex value = false := by
  rw [givesUp, decide_eq_false (Nat.not_lt.2 h), Bool.and_false, Bool.false_and]

omit [Engine] in
/-- The standard engine never gives up. -/
theorem givesUp_standard (pattern regex value : Text) :
    @givesUp Engine.standard pattern regex value = false :=
  Bool.and_false _

section

variable {α : Type} {a outcome : α} {e : PatternFault}

theorem attempt_eq_ok_iff :
    attempt atStart atEnd pattern value outcome = .ok a ↔
      givesUp pattern (Glob.regex atStart atEnd pattern) value = false ∧ a = outcome := by
  rw [attempt]
  split
  · rename_i hgives
    simp [hgives]
  · rename_i hgives
    simp [hgives, eq_comm]

theorem attempt_eq_error_iff :
    attempt atStart atEnd pattern value outcome = .error e ↔
      givesUp pattern (Glob.regex atStart atEnd pattern) value = true ∧ e = .gaveUp := by
  rw [attempt]
  split
  · rename_i hgives
    simp [hgives, eq_comm]
  · rename_i hgives
    simp [hgives]

end

/-! ## What is given up matches nothing -/

theorem forall₂_step (h : pieces.mapM Piece.step = .ok steps) :
    List.Forall₂ (fun piece step => piece.step = .ok step) pieces steps := by
  induction pieces generalizing steps with
  | nil =>
    cases h
    exact .nil
  | cons piece pieces ih =>
    rw [List.mapM_cons] at h
    cases hstep : piece.step with
    | error fault =>
      rw [hstep] at h
      cases h
    | ok step =>
      cases hsteps : pieces.mapM Piece.step with
      | error fault =>
        rw [hstep, hsteps] at h
        cases h
      | ok steps' =>
        rw [hstep, hsteps] at h
        cases h
        exact .cons hstep (ih hsteps)

/-- A bracket expression without members takes nothing. -/
theorem step_of_fitsNothing {piece : Piece} (h : piece.fitsNothing = true) :
    piece.step = .ok (.one fun _ => false) := by
  cases piece with
  | bracket inverted members =>
    cases inverted with
    | true => cases h
    | false => simp only [Piece.step, List.isEmpty_iff.1 h]
  | _ => cases h

/-- A pattern with such a piece matches nothing. -/
theorem not_splitsBy_of_fitsNothing
    (hsteps : List.Forall₂ (fun piece step => Piece.step piece = .ok step) pieces steps)
    (h : ∃ piece ∈ pieces, piece.fitsNothing = true) : ¬ SplitsBy Step.Takes steps s := by
  induction hsteps generalizing s with
  | nil =>
    obtain ⟨piece, hmem, -⟩ := h
    cases hmem
  | @cons piece step pieces steps hstep hsteps ih =>
    intro hsplits
    obtain ⟨part, rest, -, htakes, hrest⟩ := splitsBy_cons_iff.1 hsplits
    obtain ⟨piece', hmem, hfits⟩ := h
    rcases List.mem_cons.1 hmem with rfl | hmem
    · obtain rfl := Except.ok.inj (hstep.symm.trans (step_of_fitsNothing hfits))
      obtain ⟨c, -, hc⟩ := htakes
      cases hc
    · exact ih ⟨piece', hmem, hfits⟩ hrest

/-- **The search for a pattern that matches anything is never given up**, in whatever value. -/
theorem not_givesUp_of_splitsBy (hsteps : compile pattern = .ok steps)
    (h : SplitsBy Step.Takes steps s) : givesUp pattern regex value = false := by
  rw [Bool.eq_false_iff]
  intro hgives
  rw [givesUp, Bool.and_eq_true, Bool.and_eq_true] at hgives
  exact not_splitsBy_of_fitsNothing (forall₂_step hsteps) (List.any_eq_true.1 hgives.1.1) h

end ShellExpansion.Glob
