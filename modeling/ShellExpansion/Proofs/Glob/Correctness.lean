import ShellExpansion.Proofs.Glob.GivingUp
import ShellExpansion.Proofs.Glob.RegexText

/-!
# Patterns match what they say

The whole way from the text of a pattern to an answer: reading it into pieces, compiling the pieces
to steps, and matching a value with the steps.  `matches_iff_splits` says that for patterns with
plain bracket expressions the answer is whether the value falls into parts that the pieces take, and
that the regular expression which is written for the pattern means the same.
-/

namespace ShellExpansion.Glob

section

variable [Engine]

theorem step_bracket {members : List Member} (h : members.flatMap Member.tokens ≠ [])
    (inverted : Bool) :
    (Piece.bracket inverted members).step
      = (bracketSet inverted (members.flatMap Member.tokens)).map .one := by
  rw [Piece.step]
  split
  · contradiction
  · rfl

/-- The step of an unambiguous piece takes what the piece takes. -/
theorem step_of_isUnambiguous {piece : Piece} (h : piece.IsUnambiguous) :
    ∃ step, piece.step = .ok step ∧ ∀ part, step.Takes part ↔ piece.Takes part := by
  cases piece with
  | literal c =>
    refine ⟨.one (.singleton c), rfl, fun part => ?_⟩
    simp [Step.Takes, Piece.Takes, CharSet.singleton]
  | any =>
    refine ⟨.one fun _ => true, rfl, fun part => ?_⟩
    simp [Step.Takes, Piece.Takes]
  | many => exact ⟨.many, rfl, fun part => Iff.rfl⟩
  | bracket inverted members =>
    by_cases htokens : members.flatMap Member.tokens = []
    · refine ⟨.one fun _ => inverted, by simp only [Piece.step, htokens], fun part => ?_⟩
      simp only [Step.Takes, Piece.Takes, not_has_of_tokens_eq_nil htokens]
      cases inverted <;> simp
    · obtain ⟨set, hset, hmem⟩ := bracketSet_members h
      refine ⟨.one set, ?_, fun part => ?_⟩
      · rw [step_bracket htokens, hset]
        rfl
      · simp only [Step.Takes, Piece.Takes, hmem]

/-- Unambiguous pieces compile to steps that take what the pieces take. -/
theorem mapM_step_of_isUnambiguous {pieces : List Piece}
    (h : ∀ piece ∈ pieces, piece.IsUnambiguous) :
    ∃ steps, pieces.mapM Piece.step = .ok steps ∧
      ∀ s, SplitsBy Step.Takes steps s ↔ Splits pieces s := by
  induction pieces with
  | nil => exact ⟨[], rfl, fun s => by rw [Splits, splitsBy_nil_iff, splitsBy_nil_iff]⟩
  | cons piece pieces ih =>
    obtain ⟨hpiece, hpieces⟩ := List.forall_mem_cons.1 h
    obtain ⟨step, hstep, htakes⟩ := step_of_isUnambiguous hpiece
    obtain ⟨steps, hsteps, hsplits⟩ := ih hpieces
    refine ⟨step :: steps, ?_, fun s => ?_⟩
    · rw [List.mapM_cons, hstep, hsteps]
      rfl
    · rw [Splits, splitsBy_cons_iff, splitsBy_cons_iff]
      simp only [htakes, hsplits, Splits]

/-- Plain pieces compile to steps that take what the pieces take. -/
theorem mapM_step_of_isPlain {pieces : List Piece} (h : ∀ piece ∈ pieces, piece.IsPlain) :
    ∃ steps, pieces.mapM Piece.step = .ok steps ∧
      ∀ s, SplitsBy Step.Takes steps s ↔ Splits pieces s :=
  mapM_step_of_isUnambiguous fun piece hpiece => (h piece hpiece).isUnambiguous

/-- **A pattern matches a value if and only if the value falls into parts that the pieces of the
pattern take**, for every pattern whose bracket expressions are plain.  The regular expression that
is written for the pattern means the same.  There is an answer unless the engine gives up. -/
theorem matches_iff_splits (pattern value : Text)
    (hplain : ∀ pieces, Spells pattern pieces → ∀ piece ∈ pieces, piece.IsPlain) :
    ∃ pieces accepted, Spells pattern pieces ∧
      matches? pattern value = (if givesUp pattern (regex true true pattern) value then .error .gaveUp
        else .ok accepted) ∧
      (accepted = true ↔ Splits pieces value) ∧
      (accepted = true ↔ ∃ body, regex true true pattern = '^' :: body ∧ Accepts body value) := by
  have hspells : Spells pattern (read pattern) := spells_iff.2 rfl
  have hpieces := hplain _ hspells
  obtain ⟨steps, hsteps, hsplits⟩ := mapM_step_of_isPlain hpieces
  have hmatch : matchesAll steps value = true ↔ Splits (read pattern) value := by
    rw [matchesAll_iff, hsplits]
  refine ⟨read pattern, matchesAll steps value, hspells, ?_, hmatch, ?_⟩
  · rw [matches?, compile, hsteps]
    rfl
  · rw [hmatch, ← accepts_regex_iff hpieces]
    constructor
    · intro h
      exact ⟨_, rfl, h⟩
    · rintro ⟨body, hbody, h⟩
      rwa [← (List.cons.inj hbody).2] at h

end

attribute [local instance] Engine.standard

theorem matches_iff_splits_range :
    ∃ pieces accepted, Spells ['[', 'a', '-', 'c', ']', '*'] pieces ∧
      matches? ['[', 'a', '-', 'c', ']', '*'] ['b', '\n'] = .ok accepted ∧
      (accepted = true ↔ Splits pieces ['b', '\n']) ∧
      (accepted = true ↔ ∃ body, regex true true ['[', 'a', '-', 'c', ']', '*'] = '^' :: body ∧
        Accepts body ['b', '\n']) := by
  have hread : read ['[', 'a', '-', 'c', ']', '*']
      = [.bracket false [.range ⟨false, 'a'⟩ ⟨false, 'c'⟩], .many] := by
    decide +kernel
  have hplain : ∀ pieces, Spells ['[', 'a', '-', 'c', ']', '*'] pieces →
      ∀ piece ∈ pieces, piece.IsPlain := by
    intro pieces hspells
    rw [← spells_iff.1 hspells, hread]
    simp [Piece.IsPlain, Member.IsPlain, Endpoint.IsPlain]
  obtain ⟨pieces, accepted, hspells, hanswer, hsplits⟩ :=
    matches_iff_splits ['[', 'a', '-', 'c', ']', '*'] ['b', '\n'] hplain
  rw [givesUp_standard] at hanswer
  exact ⟨pieces, accepted, hspells, hanswer, hsplits⟩

end ShellExpansion.Glob
