import ShellExpansion.Text.Integer
import Mathlib

/-!
# Numbers as they are written

What a text with a number in it looks like, said without a reader: white space at both ends
(`IsTrimmed`), and digits after a sign or not (`Writes`).

* `isTrimmed_iff` : a text has exactly one trimmed form, the one that `trim` finds.
* `signed?_eq_some_iff`, `int64?_eq_some_iff` : numbers are read as they are written, and those of
  64 bits are read as such.
-/

namespace ShellExpansion.Integer

open Unicode

/-! ## White space -/

/-- The second text is the first one without the white space at both ends. -/
def IsTrimmed (s t : Text) : Prop :=
  ∃ before after, s = before ++ t ++ after ∧
    (∀ c ∈ before, isWhiteSpace c = true) ∧ (∀ c ∈ after, isWhiteSpace c = true) ∧
    (∀ c ∈ t.head?, ¬ isWhiteSpace c = true) ∧ ∀ c ∈ t.getLast?, ¬ isWhiteSpace c = true

section

variable {p : Char → Bool} {s t : Text}

theorem dropWhile_of_head? (h : ∀ c ∈ s.head?, ¬ p c = true) : s.dropWhile p = s := by
  cases s with
  | nil => rfl
  | cons c s => exact List.dropWhile_cons_of_neg (h c rfl)

theorem head?_dropWhile (p : Char → Bool) (s : Text) :
    ∀ c ∈ (s.dropWhile p).head?, ¬ p c = true := by
  intro c hc
  have hhead := List.head?_dropWhile_not p s
  rw [Option.mem_def.1 hc] at hhead
  simpa using hhead

/-- What is dropped at one end. -/
theorem dropWhile_append_self {before : Text} (hbefore : ∀ c ∈ before, p c = true)
    (hs : ∀ c ∈ s.head?, ¬ p c = true) : (before ++ s).dropWhile p = s := by
  rw [List.dropWhile_append_of_pos hbefore, dropWhile_of_head? hs]

theorem trim_of_isTrimmed (h : IsTrimmed s t) : trim s = t := by
  obtain ⟨before, after, rfl, hbefore, hafter, hhead, hlast⟩ := h
  have hreverse : ∀ c ∈ after.reverse, isWhiteSpace c = true := by simpa using hafter
  rw [trim, List.append_assoc, List.dropWhile_append_of_pos hbefore]
  by_cases ht : t = []
  · subst ht
    rw [List.nil_append, List.dropWhile_eq_nil_iff.2 hafter]
    rfl
  · have hstart : ∀ c ∈ (t ++ after).head?, ¬ isWhiteSpace c = true := by
      rwa [List.head?_append_of_ne_nil _ ht]
    have hend : ∀ c ∈ t.reverse.head?, ¬ isWhiteSpace c = true := by
      rwa [List.head?_reverse]
    rw [dropWhile_of_head? hstart, List.reverse_append, dropWhile_append_self hreverse hend,
      List.reverse_reverse]

theorem isTrimmed_trim (s : Text) : IsTrimmed s (trim s) := by
  have hstart := List.takeWhile_append_dropWhile (p := isWhiteSpace) (l := s)
  have hend := List.takeWhile_append_dropWhile (p := isWhiteSpace)
    (l := (s.dropWhile isWhiteSpace).reverse)
  have hrest : s.dropWhile isWhiteSpace
      = trim s ++ ((s.dropWhile isWhiteSpace).reverse.takeWhile isWhiteSpace).reverse := by
    rw [trim, ← List.reverse_append, hend, List.reverse_reverse]
  refine ⟨s.takeWhile isWhiteSpace,
    ((s.dropWhile isWhiteSpace).reverse.takeWhile isWhiteSpace).reverse, ?_, ?_, ?_, ?_, ?_⟩
  · rw [List.append_assoc, ← hrest, hstart]
  · exact fun c hc => List.mem_takeWhile_imp hc
  · exact fun c hc => List.mem_takeWhile_imp (List.mem_reverse.1 hc)
  · intro c hc
    refine head?_dropWhile isWhiteSpace s c ?_
    rw [hrest, List.head?_append, Option.mem_def.1 hc, Option.some_or]
    rfl
  · intro c hc
    rw [trim, List.getLast?_reverse] at hc
    exact head?_dropWhile isWhiteSpace _ c hc

/-- **A text has exactly one trimmed form.** -/
theorem isTrimmed_iff : IsTrimmed s t ↔ trim s = t := by
  constructor
  · exact trim_of_isTrimmed
  · rintro rfl
    exact isTrimmed_trim s

end

/-! ## Numbers -/

/-- One digit at least, and nothing but digits. -/
def IsDigits (s : Text) : Prop := s ≠ [] ∧ ∀ c ∈ s, c.isDigit = true

/-- The number that digits write. -/
def number (digits : Text) : Nat := Nat.ofDigitChars 10 digits 0

/-- The number that a text writes: digits, after a sign or without one. -/
inductive Writes : Text → Int → Prop
  | unsigned {digits : Text} (h : IsDigits digits) : Writes digits (number digits)
  | plus {digits : Text} (h : IsDigits digits) : Writes ('+' :: digits) (number digits)
  | minus {digits : Text} (h : IsDigits digits) : Writes ('-' :: digits) (-(number digits : Int))

section

variable {s : Text} {n : Int} {i : Int64}

theorem IsDigits.head?_ne {c : Char} (h : IsDigits s) (hc : ¬ c.isDigit = true) :
    s.head? ≠ some c :=
  fun hhead => hc (h.2 c (List.mem_of_head? hhead))

theorem digitsFrom?_eq_some_iff {high n : Nat} :
    digitsFrom? high s = some n ↔
      (∀ c ∈ s, c.isDigit = true) ∧ Nat.ofDigitChars 10 s high = n := by
  induction s generalizing high with
  | nil => simp [digitsFrom?]
  | cons c s ih =>
    by_cases hc : c.isDigit = true
    · simp [digitsFrom?, hc, ih, Nat.ofDigitChars_cons, Nat.mul_comm]
    · simp [digitsFrom?, hc]

theorem natural?_eq_some_iff {n : Nat} : natural? s = some n ↔ IsDigits s ∧ number s = n := by
  cases s with
  | nil => simp [natural?, IsDigits]
  | cons c s => simp [natural?, digitsFrom?_eq_some_iff, IsDigits, number]

theorem natural?_of_isDigits (h : IsDigits s) : natural? s = some (number s) :=
  natural?_eq_some_iff.2 ⟨h, rfl⟩

theorem map_natural?_eq_some_iff {sign : Nat → Int} :
    (natural? s).map sign = some n ↔ IsDigits s ∧ sign (number s) = n := by
  rw [Option.map_eq_some_iff]
  constructor
  · rintro ⟨m, hm, rfl⟩
    obtain ⟨hdigits, rfl⟩ := natural?_eq_some_iff.1 hm
    exact ⟨hdigits, rfl⟩
  · rintro ⟨hdigits, rfl⟩
    exact ⟨_, natural?_of_isDigits hdigits, rfl⟩

theorem signed?_minus (s : Text) :
    signed? ('-' :: s) = (natural? s).map fun n : Nat => -(n : Int) := by
  cases h : natural? s <;> simp [signed?, h]

theorem signed?_plus (s : Text) :
    signed? ('+' :: s) = (natural? s).map fun n : Nat => (n : Int) := by
  cases h : natural? s <;> simp [signed?, h]

theorem signed?_of_not_sign (hminus : s.head? ≠ some '-') (hplus : s.head? ≠ some '+') :
    signed? s = (natural? s).map fun n : Nat => (n : Int) := by
  unfold signed?
  split
  · exact absurd rfl hminus
  · exact absurd rfl hplus
  · cases natural? s <;> rfl

/-- **Numbers are read as they are written.** -/
theorem signed?_eq_some_iff : signed? s = some n ↔ Writes s n := by
  constructor
  · intro h
    by_cases hminus : s.head? = some '-'
    · obtain ⟨t, rfl⟩ := List.head?_eq_some_iff.1 hminus
      rw [signed?_minus] at h
      obtain ⟨hdigits, rfl⟩ := map_natural?_eq_some_iff.1 h
      exact .minus hdigits
    · by_cases hplus : s.head? = some '+'
      · obtain ⟨t, rfl⟩ := List.head?_eq_some_iff.1 hplus
        rw [signed?_plus] at h
        obtain ⟨hdigits, rfl⟩ := map_natural?_eq_some_iff.1 h
        exact .plus hdigits
      · rw [signed?_of_not_sign hminus hplus] at h
        obtain ⟨m, hm, rfl⟩ := Option.map_eq_some_iff.1 h
        obtain ⟨hdigits, rfl⟩ := natural?_eq_some_iff.1 hm
        exact .unsigned hdigits
  · intro h
    cases h with
    | minus h => simp [signed?_minus, natural?_of_isDigits h]
    | plus h => simp [signed?_plus, natural?_of_isDigits h]
    | unsigned h =>
      rw [signed?_of_not_sign (h.head?_ne (by decide)) (h.head?_ne (by decide)),
        natural?_of_isDigits h]
      rfl

/-- A text writes one number at most. -/
theorem Writes.unique {m : Int} (hm : Writes s m) (hn : Writes s n) : m = n := by
  rw [← signed?_eq_some_iff] at hm hn
  exact Option.some.inj (hm.symm.trans hn)

theorem fits64_iff : fits64 n = true ↔ -2 ^ 63 ≤ n ∧ n < 2 ^ 63 := by
  simp only [fits64, Bool.and_eq_true, decide_eq_true_eq, Int64.toInt_minValue,
    Int64.toInt_maxValue]
  omega

theorem fits64_toInt (i : Int64) : fits64 i.toInt = true := fits64_iff.2 ⟨i.le_toInt, i.toInt_lt⟩

/-- **A number of 64 bits is read where it is written.** -/
theorem int64?_eq_some_iff : int64? s = some i ↔ Writes s i.toInt := by
  rw [← signed?_eq_some_iff]
  constructor
  · intro h
    obtain ⟨n, hn, rfl⟩ := Option.map_eq_some_iff.1 h
    obtain ⟨hsigned, hfits⟩ := Option.filter_eq_some_iff.1 hn
    obtain ⟨hlow, hhigh⟩ := fits64_iff.1 hfits
    rw [hsigned, Int64.toInt_ofInt_of_le hlow hhigh]
  · intro h
    rw [int64?, h, Option.filter_some_pos (fits64_toInt i), Option.map_some, Int64.ofInt_toInt]

/-- A text that writes no number is not read as one. -/
theorem int64?_eq_none (h : ∀ n, ¬ Writes s n) : int64? s = none := by
  rw [Option.eq_none_iff_forall_ne_some]
  intro i hi
  exact h _ (int64?_eq_some_iff.1 hi)

/-- No digit is white space. -/
theorem not_isWhiteSpace_of_isDigit {c : Char} (h : c.isDigit = true) :
    ¬ isWhiteSpace c = true := by
  obtain ⟨hlow, hhigh⟩ := Char.isDigit_iff_toNat.1 h
  simp only [Char.reduceToNat] at hlow hhigh
  simp [isWhiteSpace, whiteSpace, Ranges.contains]
  omega

theorem IsDigits.isTrimmed (h : IsDigits s) : IsTrimmed s s := by
  refine ⟨[], [], by simp, nofun, nofun, ?_, ?_⟩
  · exact fun c hc => not_isWhiteSpace_of_isDigit (h.2 c (List.mem_of_head? hc))
  · exact fun c hc => not_isWhiteSpace_of_isDigit (h.2 c (List.mem_of_getLast? hc))

end

end ShellExpansion.Integer
