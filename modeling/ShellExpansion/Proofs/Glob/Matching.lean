import ShellExpansion.Glob.Matcher
import Mathlib.Data.List.Forall2

/-!
# Matching by parts

`Splits pieces value` says that a value falls into parts, one for each piece, that the pieces take.

* `isSome_greedy_iff` : a match at the start of a text is a way to take parts off it, up to a place
  where a match may end.
* `matchesAll_iff` : the steps match a whole text if and only if it falls into parts that they take.
-/

namespace ShellExpansion.Glob

/-! ## What a pattern takes -/

/-- A character belongs to a member of a bracket expression. -/
def Member.Has : Member → Char → Prop
  | named cls, c => cls.contains c = true
  | range first last, c => first.char ≤ c ∧ c ≤ last.char
  | single e, c => c = e.char

/-- A piece of a pattern takes a part of a value. -/
def Piece.Takes : Piece → Text → Prop
  | literal c, part => part = [c]
  | any, part => ∃ c, part = [c]
  | many, _ => True
  | bracket inverted members, part =>
    ∃ c, part = [c] ∧ ((∃ m ∈ members, m.Has c) ↔ inverted = false)

/-- A text falls into consecutive parts that are taken in order. -/
def SplitsBy {α : Type} (takes : α → Text → Prop) (takers : List α) (s : Text) : Prop :=
  ∃ parts : List Text, s = parts.flatten ∧ List.Forall₂ takes takers parts

/-- The value falls into parts that the pieces take. -/
def Splits (pieces : List Piece) (value : Text) : Prop := SplitsBy Piece.Takes pieces value

/-- A step takes a part of a text. -/
def Step.Takes : Step → Text → Prop
  | one set, part => ∃ c, part = [c] ∧ set c = true
  | many, _ => True

section

variable {α : Type} {takes : α → Text → Prop} {s : Text}

theorem splitsBy_nil_iff : SplitsBy takes [] s ↔ s = [] := by
  constructor
  · rintro ⟨parts, rfl, hparts⟩
    cases hparts
    rfl
  · rintro rfl
    exact ⟨[], rfl, .nil⟩

theorem splitsBy_cons_iff {a : α} {takers : List α} :
    SplitsBy takes (a :: takers) s ↔
      ∃ part rest, s = part ++ rest ∧ takes a part ∧ SplitsBy takes takers rest := by
  constructor
  · rintro ⟨parts, rfl, hparts⟩
    cases hparts with
    | @cons _ part _ parts hpart hparts =>
      exact ⟨part, parts.flatten, List.flatten_cons, hpart, parts, rfl, hparts⟩
  · rintro ⟨part, rest, rfl, hpart, parts, rfl, hparts⟩
    exact ⟨part :: parts, List.flatten_cons.symm, .cons hpart hparts⟩

end

/-! ## Matches at the start of a text -/

variable {final : Text → Option Text} {steps : List Step}

theorem isSome_afterMany_iff (next : Text → Option Text) (s : Text) :
    (afterMany next s).isSome = true ↔
      ∃ part rest, s = part ++ rest ∧ (next rest).isSome = true := by
  induction s with
  | nil =>
    constructor
    · intro h
      exact ⟨[], [], rfl, h⟩
    · rintro ⟨part, rest, hs, h⟩
      obtain ⟨rfl, rfl⟩ := List.append_eq_nil_iff.1 hs.symm
      exact h
  | cons c s ih =>
    rw [afterMany, Option.orElse_eq_orElse, Option.orElse_eq_or, Option.isSome_or, Bool.or_eq_true,
      ih]
    constructor
    · rintro (⟨part, rest, rfl, h⟩ | h)
      · exact ⟨c :: part, rest, rfl, h⟩
      · exact ⟨[], c :: s, rfl, h⟩
    · rintro ⟨part, rest, hs, h⟩
      cases part with
      | nil =>
        rw [List.nil_append] at hs
        exact .inr (hs ▸ h)
      | cons d part =>
        rw [List.cons_append, List.cons.injEq] at hs
        exact .inl ⟨part, rest, hs.2, h⟩

theorem isSome_afterOne_iff (set : CharSet) (next : Text → Option Text) (s : Text) :
    (afterOne set next s).isSome = true ↔
      ∃ c rest, s = c :: rest ∧ set c = true ∧ (next rest).isSome = true := by
  cases s with
  | nil => simp [afterOne]
  | cons c s =>
    by_cases hc : set c = true
    · simp [afterOne, hc]
    · simp [afterOne, hc]

/-- The first step takes a part, and the others go on after it. -/
theorem isSome_greedy_cons_iff (step : Step) (s : Text) :
    (greedy final (step :: steps) s).isSome = true ↔
      ∃ part rest, s = part ++ rest ∧ step.Takes part ∧
        (greedy final steps rest).isSome = true := by
  cases step with
  | one set =>
    rw [greedy, isSome_afterOne_iff]
    constructor
    · rintro ⟨c, rest, rfl, hc, h⟩
      exact ⟨[c], rest, rfl, ⟨c, rfl, hc⟩, h⟩
    · rintro ⟨part, rest, rfl, ⟨c, rfl, hc⟩, h⟩
      exact ⟨c, rest, rfl, hc, h⟩
  | many =>
    rw [greedy, isSome_afterMany_iff]
    simp only [Step.Takes, true_and]

/-- A match takes parts off a text, one for each step, up to a place where it may end. -/
theorem isSome_greedy_iff (s : Text) :
    (greedy final steps s).isSome = true ↔
      ∃ before rest, s = before ++ rest ∧ SplitsBy Step.Takes steps before ∧
        (final rest).isSome = true := by
  induction steps generalizing s with
  | nil =>
    simp only [splitsBy_nil_iff]
    constructor
    · intro h
      exact ⟨[], s, rfl, rfl, h⟩
    · rintro ⟨before, rest, rfl, rfl, h⟩
      exact h
  | cons step steps ih =>
    rw [isSome_greedy_cons_iff]
    simp only [splitsBy_cons_iff]
    constructor
    · rintro ⟨part, t, rfl, hpart, h⟩
      obtain ⟨before, rest, rfl, hbefore, h⟩ := (ih t).1 h
      have hsplit : part ++ (before ++ rest) = part ++ before ++ rest :=
        (List.append_assoc _ _ _).symm
      exact ⟨part ++ before, rest, hsplit, ⟨part, before, rfl, hpart, hbefore⟩, h⟩
    · rintro ⟨before, rest, rfl, ⟨part, before', rfl, hpart, hbefore⟩, h⟩
      refine ⟨part, before' ++ rest, List.append_assoc _ _ _, hpart, ?_⟩
      exact (ih _).2 ⟨before', rest, rfl, hbefore, h⟩

/-- The steps match a whole text if and only if it falls into parts that they take. -/
theorem matchesAll_iff (s : Text) : matchesAll steps s = true ↔ SplitsBy Step.Takes steps s := by
  rw [matchesAll, leftovers_eq, Track.head_ofText, isSome_greedy_iff]
  constructor
  · rintro ⟨before, rest, rfl, hbefore, hend⟩
    cases rest with
    | nil => rwa [List.append_nil]
    | cons c rest => cases hend
  · intro h
    exact ⟨s, [], (List.append_nil _).symm, h, rfl⟩

end ShellExpansion.Glob
