import ShellExpansion.Value.Slice
import ShellExpansion.Proofs.Text.Integer

/-!
# Slices in unbounded numbers

A slice is computed in numbers of 64 bits.  For a value of fewer than 2^63 characters, which is as
many as a number of 64 bits can count, no sum that is taken on the way leaves them: the slice in
arithmetic that gives nothing where it would (`slice?`) is the slice.  So a slice is what unbounded
numbers make of it (`exactSlice`).  Only an index that 64 bits do not hold is not taken for the
number that it is.

* `index?_eq_some_iff` : an index is read as it is written.
* `toInt_add_size`, `toInt_sub_of_lt`, `min_toInt_addHeld` : sums and differences of places.
* `start?_eq`, `finish?_eq`, `between?_eq` : no step leaves the numbers of 64 bits.
* `slice_eq_extract` : the places that a slice is cut at.
* `slice_exact` : **a slice is exact over the whole range of its indices.**
* `slice_of_isDigits` : what an offset of digits drops.
* `slice_larger_offset` : **a larger offset gives no more text, as long as 64 bits hold it.**
* `slice_of_offset_too_large` : an offset that 64 bits do not hold gives the whole value.
-/

namespace ShellExpansion.Slice

open Integer

variable {value offset : Text} {length : Option Text} {size first last o l : Int64}

/-! ## Indices -/

/-- The text writes the index: white space around it does not count, and nothing writes zero. -/
def IsIndex (s : Text) (i : Int64) : Prop :=
  ∃ t, IsTrimmed s t ∧ (t = [] ∧ i = 0 ∨ Writes t i.toInt)

theorem not_writes_nil (n : Int) : ¬ Writes [] n := by
  rintro ⟨h⟩
  exact h.1 rfl

/-- An index is read as it is written. -/
theorem index?_eq_some_iff {s : Text} {i : Int64} : index? s = some i ↔ IsIndex s i := by
  have htrim : IsIndex s i ↔ trim s = [] ∧ i = 0 ∨ Writes (trim s) i.toInt := by
    simp only [IsIndex, isTrimmed_iff, exists_eq_left']
  rw [htrim, index?]
  split
  · rename_i hnil
    simp [hnil, not_writes_nil, eq_comm]
  · rename_i hne
    have hne : trim s ≠ [] := hne
    simp [hne, int64?_eq_some_iff]

/-- Digits write their number, if it is one of 64 bits. -/
theorem isIndex_of_isDigits {s : Text} (h : IsDigits s) (hs : number s < 2 ^ 63) :
    IsIndex s (Int64.ofNat (number s)) := by
  refine ⟨s, h.isTrimmed, .inr ?_⟩
  rw [Int64.toInt_ofNat_of_lt hs]
  exact .unsigned h

/-- Digits of a number that is too large write no index. -/
theorem index?_of_isDigits {s : Text} (h : IsDigits s) (hs : 2 ^ 63 ≤ number s) :
    index? s = none := by
  rw [Option.eq_none_iff_forall_ne_some]
  intro i hi
  obtain ⟨t, htrim, hindex⟩ := index?_eq_some_iff.1 hi
  obtain rfl := (isTrimmed_iff.1 htrim).symm.trans (isTrimmed_iff.1 h.isTrimmed)
  rcases hindex with ⟨rfl, -⟩ | hwrites
  · exact h.1 rfl
  · have hnumber : (number t : Int) = i.toInt := (Writes.unsigned h).unique hwrites
    have hlt := i.toInt_lt
    omega

/-- The text writes no number: it is not empty without the white space around it, and no digits with
or without a sign. -/
def NotANumber (s : Text) : Prop := ∃ t, IsTrimmed s t ∧ t ≠ [] ∧ ∀ n, ¬ Writes t n

theorem index?_of_notANumber {s : Text} (h : NotANumber s) : index? s = none := by
  obtain ⟨t, htrim, hne, hwrites⟩ := h
  rw [index?, isTrimmed_iff.1 htrim]
  split
  · exact absurd rfl hne
  · exact int64?_eq_none hwrites

/-! ## Sums of 64 bits -/

theorem lt_zero_iff : o < 0 ↔ o.toInt < 0 := by
  rw [Int64.lt_iff_toInt_lt, Int64.toInt_zero]

theorem not_lt_zero_iff : ¬ o < 0 ↔ 0 ≤ o.toInt := by
  rw [lt_zero_iff, Int.not_lt]

theorem not_le_iff : ¬ last ≤ first ↔ first.toInt < last.toInt := by
  rw [Int64.le_iff_toInt_le, Int.not_le]

theorem toNatClampNeg_eq (i : Int64) : i.toNatClampNeg = i.toInt.toNat := rfl

theorem toInt_earlier (a b : Int64) : (earlier a b).toInt = min a.toInt b.toInt := by
  unfold earlier
  split
  · rename_i h
    rw [Int64.le_iff_toInt_le] at h
    omega
  · rename_i h
    rw [not_le_iff] at h
    omega

theorem toInt_size (hsize : value.length < 2 ^ 63) :
    (Int64.ofNat value.length).toInt = value.length := Int64.toInt_ofNat_of_lt hsize

/-- A size and a number below zero have a sum of 64 bits. -/
theorem toInt_add_size (hsize : 0 ≤ size.toInt) (ho : o.toInt < 0) :
    (o + size).toInt = o.toInt + size.toInt := by
  have hlow := o.le_toInt
  have hhigh := size.toInt_lt
  rw [← Int64.ofInt_toInt o, ← Int64.ofInt_toInt size, ← Int64.ofInt_add,
    Int64.toInt_ofInt_of_le (by omega) (by omega), Int64.ofInt_toInt, Int64.ofInt_toInt]

/-- Two places have a difference of 64 bits. -/
theorem toInt_sub_of_lt (hfirst : 0 ≤ first.toInt) (h : first.toInt < last.toInt) :
    (last - first).toInt = last.toInt - first.toInt := by
  have hhigh := last.toInt_lt
  rw [← Int64.ofInt_toInt last, ← Int64.ofInt_toInt first, ← Int64.ofInt_sub,
    Int64.toInt_ofInt_of_le (by omega) (by omega), Int64.ofInt_toInt, Int64.ofInt_toInt]

/-- A sum that is held at the greatest number is past every size. -/
theorem min_toInt_addHeld (hfirst : 0 ≤ first.toInt) (hl : 0 ≤ l.toInt) :
    min (addHeld first l).toInt size.toInt = min (first.toInt + l.toInt) size.toInt := by
  have hmin := Int64.toInt_minValue
  have hmax := Int64.toInt_maxValue
  have hsize := size.toInt_lt
  unfold addHeld
  by_cases h : first.toInt + l.toInt ≤ Int64.maxValue.toInt
  · rw [Int64.toInt_ofIntClamp (by omega) h]
  · rw [Int64.ofIntClamp, dif_pos (by omega), dif_neg h]
    omega

/-! ## Sums that have to be of 64 bits -/

/-- A number, if it is one of 64 bits. -/
def held? (n : Int) : Option Int64 := if fits64 n then some (Int64.ofInt n) else none

/-- A number, if it is not negative. -/
def count? (i : Int64) : Option Nat := if 0 ≤ i then some i.toNatClampNeg else none

/-- Where a slice starts; nothing if a sum is not a number of 64 bits. -/
def start? (size offset : Int64) : Option Int64 :=
  if offset < 0 then held? (offset.toInt + size.toInt) else some (earlier offset size)

/-- Where a slice with a length ends; nothing if a sum is not a number of 64 bits.  The sum of a
start and a length is held at the greatest number. -/
def finish? (size start length : Int64) : Option Int64 :=
  if length < 0 then held? (length.toInt + size.toInt)
  else some (earlier (addHeld start length) size)

/-- The characters from one place up to another; nothing if their number is not one of 64 bits, or
if a number that has to count characters is negative. -/
def between? (value : Text) (first last : Int64) : Option Text :=
  if last ≤ first then some []
  else do
    let skipped ← count? first
    let taken ← (held? (last.toInt - first.toInt)).bind count?
    return (value.drop skipped).take taken

/-- The slice, step by step as it is computed; nothing where a number is not one of 64 bits. -/
def slice? (value offset : Text) (length : Option Text) : Option Text :=
  match index? offset with
  | none => some value
  | some offset => do
    let size ← held? value.length
    let first ← start? size offset
    if first < 0 then return []
    else
      match length with
      | none => between? value first size
      | some length =>
        match index? length with
        | none => return value
        | some length => do
          let last ← finish? size first length
          between? value first last

theorem held?_eq {n : Int} (hlow : -2 ^ 63 ≤ n) (hhigh : n < 2 ^ 63) :
    held? n = some (Int64.ofInt n) := if_pos (fits64_iff.2 ⟨hlow, hhigh⟩)

theorem held?_toInt (i : Int64) : held? i.toInt = some i := by
  rw [held?_eq i.le_toInt i.toInt_lt, Int64.ofInt_toInt]

theorem count?_eq (ho : 0 ≤ o.toInt) : count? o = some o.toNatClampNeg := by
  rw [count?, if_pos]
  rwa [Int64.le_iff_toInt_le, Int64.toInt_zero]

theorem held?_add (hsize : 0 ≤ size.toInt) (ho : o < 0) :
    held? (o.toInt + size.toInt) = some (o + size) := by
  rw [← toInt_add_size hsize (lt_zero_iff.1 ho), held?_toInt]

theorem start?_eq (hsize : 0 ≤ size.toInt) (o : Int64) :
    start? size o = some (start size o) := by
  unfold start? start
  split
  · rename_i ho
    exact held?_add hsize ho
  · rfl

theorem finish?_eq (hsize : 0 ≤ size.toInt) (first l : Int64) :
    finish? size first l = some (finish size first l) := by
  unfold finish? finish
  split
  · rename_i hl
    exact held?_add hsize hl
  · rfl

theorem between?_eq (value : Text) (hfirst : 0 ≤ first.toInt) (last : Int64) :
    between? value first last = some (between value first last) := by
  unfold between? between
  split
  · rfl
  · rename_i hlast
    have hlast := not_le_iff.1 hlast
    have hsub := toInt_sub_of_lt hfirst hlast
    have htaken : count? (last - first) = some (last - first).toNatClampNeg :=
      count?_eq (by omega)
    rw [← hsub, held?_toInt, count?_eq hfirst]
    simp [htaken]

/-- On its way to a slice of a value that can be counted no number leaves those of 64 bits. -/
theorem slice?_eq (hsize : value.length < 2 ^ 63) (offset : Text) (length : Option Text) :
    slice? value offset length = some (slice value offset length) := by
  have hheld : held? value.length = some (Int64.ofNat value.length) :=
    held?_eq (by omega) (by omega)
  have hnonneg : 0 ≤ (Int64.ofNat value.length).toInt := by
    rw [toInt_size hsize]
    exact Int.natCast_nonneg _
  unfold slice? slice
  cases index? offset with
  | none => rfl
  | some o =>
    simp only [hheld, Option.bind_eq_bind, Option.bind_some, start?_eq hnonneg]
    split
    · rfl
    · rename_i hfirst
      have hfirst := not_lt_zero_iff.1 hfirst
      cases length with
      | none => exact between?_eq value hfirst _
      | some length =>
        cases hlength : index? length with
        | none => simp [hlength]
        | some l => simp [hlength, finish?_eq hnonneg, between?_eq value hfirst]

/-! ## Unbounded numbers -/

/-- Where a slice starts, in unbounded numbers: a negative offset counts from the end. -/
def exactStart (size o : Int) : Int := if 0 ≤ o then o else size + o

/-- Where a slice ends, in unbounded numbers: a negative length is an end counted from the end. -/
def exactFinish (size first : Int) : Option Int → Int
  | none => size
  | some l => if 0 ≤ l then first + l else size + l

/-- The slice in unbounded numbers: the characters of the value from its start up to its end. -/
def exactSlice (value : Text) (o : Int) (l : Option Int) : Text :=
  let first := exactStart value.length o
  let last := exactFinish value.length first l
  if 0 ≤ first ∧ first < last then value.extract (max first 0).toNat (min last value.length).toNat
  else []

theorem toInt_start (hsize : 0 ≤ size.toInt) (o : Int64) :
    (start size o).toInt = min (exactStart size.toInt o.toInt) size.toInt := by
  unfold start exactStart
  split
  · rename_i ho
    have ho := lt_zero_iff.1 ho
    rw [toInt_add_size hsize ho, if_neg (by omega)]
    omega
  · rename_i ho
    rw [toInt_earlier, if_pos (not_lt_zero_iff.1 ho)]

theorem toInt_finish (hsize : 0 ≤ size.toInt) (hfirst : 0 ≤ first.toInt) (l : Int64) :
    (finish size first l).toInt
      = min (exactFinish size.toInt first.toInt (some l.toInt)) size.toInt := by
  unfold finish
  simp only [exactFinish]
  split
  · rename_i hl
    have hl := lt_zero_iff.1 hl
    rw [toInt_add_size hsize hl, if_neg (by omega)]
    omega
  · rename_i hl
    have hl := not_lt_zero_iff.1 hl
    rw [toInt_earlier, min_toInt_addHeld hfirst hl, if_pos hl]

theorem toInt_first (hsize : value.length < 2 ^ 63) (o : Int64) :
    (start (Int64.ofNat value.length) o).toInt
      = min (exactStart value.length o.toInt) value.length := by
  have htoInt := toInt_size hsize
  rw [toInt_start (by omega), htoInt]

theorem start_neg_iff (hsize : value.length < 2 ^ 63) (o : Int64) :
    start (Int64.ofNat value.length) o < 0 ↔ exactStart value.length o.toInt < 0 := by
  rw [lt_zero_iff, toInt_first hsize]
  omega

/-- It does not matter to the end of a slice whether its start is past the end of the value. -/
theorem min_exactFinish (n s : Int) (l : Option Int) :
    min (exactFinish n (min s n) l) n = min (exactFinish n s l) n := by
  cases l with
  | none => rfl
  | some l =>
    simp only [exactFinish]
    split <;> omega

theorem extract_of_le (value : Text) {a b : Nat} (h : b ≤ a) : value.extract a b = [] := by
  rw [List.extract_eq_take_drop, Nat.sub_eq_zero_of_le h, List.take_zero]

/-- A cut at places that are held inside a text is the cut at the places themselves. -/
theorem extract_min (value : Text) {first : Int} (last : Int) (hfirst : 0 ≤ first) :
    value.extract (min first value.length).toNat (min last value.length).toNat
      = if first < last then value.extract first.toNat (min last value.length).toNat else [] := by
  by_cases hlast : first < last
  · rw [if_pos hlast]
    by_cases hinside : first ≤ value.length
    · rw [Int.min_eq_left hinside]
    · have hdrop : value.drop first.toNat = [] := List.drop_eq_nil_of_le (by omega)
      rw [Int.min_eq_right (by omega)]
      simp [hdrop]
  · rw [if_neg hlast]
    exact extract_of_le value (by omega)

theorem between_eq (value : Text) (hfirst : 0 ≤ first.toInt) (last : Int64) :
    between value first last = value.extract first.toInt.toNat last.toInt.toNat := by
  unfold between
  split
  · rename_i hlast
    rw [Int64.le_iff_toInt_le] at hlast
    exact (extract_of_le value (by omega)).symm
  · rename_i hlast
    have hsub := toInt_sub_of_lt hfirst (not_le_iff.1 hlast)
    rw [List.extract_eq_take_drop, toNatClampNeg_eq, toNatClampNeg_eq, hsub]
    congr 1
    omega

/-- A value whose offset is no index is left as it is. -/
theorem slice_of_unreadable_offset (h : index? offset = none) (length : Option Text) :
    slice value offset length = value := by
  rw [slice, h]

/-- A slice that starts before the value is empty, whatever its length is. -/
theorem slice_of_start_neg (hsize : value.length < 2 ^ 63) (ho : IsIndex offset o)
    (hstart : exactStart value.length o.toInt < 0) (length : Option Text) :
    slice value offset length = [] := by
  rw [slice, index?_eq_some_iff.2 ho]
  exact if_pos ((start_neg_iff hsize o).2 hstart)

section

variable (hsize : value.length < 2 ^ 63) (ho : IsIndex offset o)
  (hstart : 0 ≤ exactStart value.length o.toInt)

include hsize ho hstart

/-- A slice that does not start before the value, but whose length is no index, is the value. -/
theorem slice_of_unreadable_length {length : Text} (h : index? length = none) :
    slice value offset (some length) = value := by
  have hnonneg := mt (start_neg_iff hsize o).1 (Int.not_lt.2 hstart)
  simp only [slice, index?_eq_some_iff.2 ho, if_neg hnonneg, h]

/-- A slice that does not start before the value is cut from it at places that it has. -/
theorem slice_eq_extract {l : Option Int64} (hl : Option.Rel IsIndex length l) :
    slice value offset length
      = value.extract (min (exactStart value.length o.toInt) value.length).toNat
          (min (exactFinish value.length (exactStart value.length o.toInt) (l.map Int64.toInt))
            value.length).toNat := by
  have htoInt := toInt_size hsize
  have hfirst := toInt_first hsize o
  have hnonneg := mt (start_neg_iff hsize o).1 (Int.not_lt.2 hstart)
  cases hl with
  | none =>
    simp only [slice, index?_eq_some_iff.2 ho, if_neg hnonneg]
    rw [between_eq value (by omega), hfirst, htoInt]
    simp [exactFinish]
  | some hl =>
    simp only [slice, index?_eq_some_iff.2 ho, if_neg hnonneg, index?_eq_some_iff.2 hl]
    rw [between_eq value (by omega), toInt_finish (by omega) (by omega), hfirst, htoInt,
      min_exactFinish]
    rfl

end

/-- **A slice is exact.**  Whatever indices of 64 bits the offset and the length write: no number on
the way to the slice is one that 64 bits do not hold, and the slice is the one in unbounded
numbers. -/
theorem slice_exact {l : Option Int64} (hsize : value.length < 2 ^ 63) (ho : IsIndex offset o)
    (hl : Option.Rel IsIndex length l) :
    slice? value offset length = some (slice value offset length) ∧
      slice value offset length = exactSlice value o.toInt (l.map Int64.toInt) := by
  refine ⟨slice?_eq hsize offset length, ?_⟩
  unfold exactSlice
  dsimp only
  by_cases hstart : 0 ≤ exactStart value.length o.toInt
  · rw [slice_eq_extract hsize ho hstart hl, extract_min value _ hstart, Int.max_eq_left hstart]
    simp only [hstart, true_and]
  · rw [slice_of_start_neg hsize ho (by omega), if_neg (by omega)]

theorem slice_exact_greatest_length :
    slice? ['a', 'b', 'c'] [' ', '1'] (some "9223372036854775807".toList)
        = some (slice ['a', 'b', 'c'] [' ', '1'] (some "9223372036854775807".toList)) ∧
      slice ['a', 'b', 'c'] [' ', '1'] (some "9223372036854775807".toList)
        = exactSlice ['a', 'b', 'c'] 1 (some 9223372036854775807) ∧
      exactSlice ['a', 'b', 'c'] 1 (some 9223372036854775807) = ['b', 'c'] := by
  have hoffset : IsIndex [' ', '1'] 1 := index?_eq_some_iff.1 (by cbv)
  have hlength : IsIndex "9223372036854775807".toList 9223372036854775807 :=
    index?_eq_some_iff.1 (by cbv)
  have hsize : ['a', 'b', 'c'].length < 2 ^ 63 := by decide
  obtain ⟨hsteps, hexact⟩ := slice_exact hsize hoffset (.some hlength)
  exact ⟨hsteps, hexact, by decide⟩

/-! ## Larger offsets -/

variable {m n : Text}

/-- An offset of digits drops its number of characters, unless 64 bits do not hold it. -/
theorem slice_of_isDigits (hsize : value.length < 2 ^ 63) (h : IsDigits n) :
    slice value n none = if number n < 2 ^ 63 then value.drop (number n) else value := by
  by_cases hnumber : number n < 2 ^ 63
  · have hindex := isIndex_of_isDigits h hnumber
    have hstart : exactStart value.length (Int64.ofNat (number n)).toInt = number n := by
      rw [Int64.toInt_ofNat_of_lt hnumber, exactStart, if_pos (Int.natCast_nonneg _)]
    rw [slice_eq_extract hsize hindex (by omega) .none, extract_min value _ (by omega), hstart,
      if_pos hnumber]
    simp only [exactFinish, Option.map_none, Int.min_self]
    split
    · exact List.take_of_length_le (by simp)
    · rename_i hlast
      rw [List.drop_eq_nil_of_le (by omega)]
  · rw [slice_of_unreadable_offset (index?_of_isDigits h (by omega)), if_neg hnumber]

theorem suffix_drop_iff {k : Nat} : value <:+ value.drop k ↔ k = 0 ∨ value = [] := by
  constructor
  · intro h
    have hlength := h.length_le
    rw [List.length_drop] at hlength
    rw [← List.length_eq_zero_iff]
    omega
  · rintro (rfl | rfl)
    · exact List.suffix_rfl
    · simp

/-- **A larger offset gives no more text, exactly if 64 bits hold it** or the slices are the whole
value anyway.  An offset past the end leaves nothing on the same condition. -/
theorem slice_larger_offset (hsize : value.length < 2 ^ 63) (hm : IsDigits m) (hn : IsDigits n)
    (hle : number m ≤ number n) :
    slice value n none = (if number n < 2 ^ 63 then value.drop (number n) else value) ∧
      (slice value n none <:+ slice value m none ↔
        number n < 2 ^ 63 ∨ 2 ^ 63 ≤ number m ∨ number m = 0 ∨ value = []) ∧
      (value.length ≤ number n → (slice value n none = [] ↔ number n < 2 ^ 63 ∨ value = [])) := by
  have hn := slice_of_isDigits hsize hn
  have hm := slice_of_isDigits hsize hm
  refine ⟨hn, ?_, ?_⟩
  · by_cases hlarge : number n < 2 ^ 63
    · rw [hn, hm, if_pos hlarge, if_pos (by omega)]
      exact iff_of_true (List.drop_suffix_drop_left value hle) (.inl hlarge)
    · rw [if_neg hlarge] at hn
      by_cases hsmall : number m < 2 ^ 63
      · rw [hn, hm, if_pos hsmall, suffix_drop_iff, or_iff_right hlarge,
          or_iff_right (Nat.not_le.2 hsmall)]
      · rw [hn, hm, if_neg hsmall]
        exact iff_of_true List.suffix_rfl (.inr (.inl (Nat.not_lt.1 hsmall)))
  · intro hpast
    by_cases hlarge : number n < 2 ^ 63
    · rw [hn, if_pos hlarge]
      exact iff_of_true (List.drop_eq_nil_of_le hpast) (.inl hlarge)
    · rw [hn, if_neg hlarge, or_iff_right hlarge]

theorem slice_larger_offset_two :
    slice ['a', 'b', 'c'] ['2'] none = ['c'] ∧
      (slice ['a', 'b', 'c'] ['2'] none <:+ slice ['a', 'b', 'c'] ['0', '1'] none) := by
  have hsize : ['a', 'b', 'c'].length < 2 ^ 63 := by decide
  have hm : IsDigits ['0', '1'] := by simp [IsDigits]
  have hn : IsDigits ['2'] := by simp [IsDigits]
  obtain ⟨hdrop, hsuffix, -⟩ := slice_larger_offset hsize hm hn (by decide)
  exact ⟨hdrop, hsuffix.2 (.inl (by decide))⟩

/-- An offset that 64 bits do not hold gives the whole value, where a smaller one gives nothing. -/
theorem slice_of_offset_too_large :
    IsDigits ['3'] ∧ IsDigits "9223372036854775808".toList ∧
      number ['3'] ≤ number "9223372036854775808".toList ∧
      ['a', 'b', 'c'].length ≤ number "9223372036854775808".toList ∧
      slice ['a', 'b', 'c'] ['3'] none = [] ∧
      slice ['a', 'b', 'c'] "9223372036854775808".toList none = ['a', 'b', 'c'] := by
  refine ⟨?_, ?_, ?_, ?_, ?_, ?_⟩
  · simp [IsDigits]
  · simp [IsDigits]
  · decide
  · decide
  · cbv
  · cbv

end ShellExpansion.Slice
