import ShellExpansion.Proofs.Command.Lines
import ShellExpansion.Proofs.Template.Rendering

/-!
# Text without a dollar

A line without a dollar stands for itself, so that what becomes of a text without one is a matter of
its line ends.  Every line is written with a newline, whatever it ended at: a carriage return before
a newline is lost (`withoutReturns`), and a newline that the last line does not have is added
(`endLine`).

* `mem_encodeChar_iff` : the bytes of a character are not those of another one of a single byte.
* `LinesOf.newline`, `LinesOf.return_newline`, `LinesOf.last`, `LinesOf.character` : what one more
  character does to the lines of a text, and to what is written for them.
* `exists_lines` : the lines of a text, by induction on the text.
* `endLine_withoutReturns_iff` : when no line end is changed.
* `expandLines_plain` : **text without a dollar is written as it is, exactly if it has no carriage
  return before a newline.**
* `expandLines_returnNewline` : a carriage return that is lost.
-/

namespace ShellExpansion.Command

open Utf8

/-! ## Line ends -/

/-- The text without the carriage returns before its newlines. -/
def withoutReturns : Text → Text
  | [] => []
  | c :: s =>
    if c = '\r' ∧ s.head? = some '\n' then withoutReturns s else c :: withoutReturns s

/-- The text with a newline at the end of its last line. -/
def endLine (s : Text) : Text := if s = [] ∨ s.getLast? = some '\n' then s else s ++ ['\n']

section

variable {c : Char} {s : Text}

theorem withoutReturns_return (hreturn : c = '\r' ∧ s.head? = some '\n') :
    withoutReturns (c :: s) = withoutReturns s := if_pos hreturn

theorem withoutReturns_cons (hreturn : ¬ (c = '\r' ∧ s.head? = some '\n')) :
    withoutReturns (c :: s) = c :: withoutReturns s := if_neg hreturn

theorem length_withoutReturns_le (s : Text) : (withoutReturns s).length ≤ s.length := by
  induction s with
  | nil => exact Nat.le_refl 0
  | cons c s ih =>
    by_cases hreturn : c = '\r' ∧ s.head? = some '\n'
    · rw [withoutReturns_return hreturn]
      exact Nat.le_succ_of_le ih
    · rw [withoutReturns_cons hreturn]
      exact Nat.succ_le_succ ih

/-- A text stays what it is exactly if it has no carriage return before a newline. -/
theorem withoutReturns_eq_self_iff : withoutReturns s = s ↔ ¬ ['\r', '\n'] <:+: s := by
  induction s with
  | nil => simp [withoutReturns]
  | cons c s ih =>
    by_cases hreturn : c = '\r' ∧ s.head? = some '\n'
    · have hoccurs : ['\r', '\n'] <:+: c :: s := by
        obtain ⟨rfl, hhead⟩ := hreturn
        obtain ⟨t, rfl⟩ := List.head?_eq_some_iff.1 hhead
        exact ⟨[], t, rfl⟩
      have hne : withoutReturns s ≠ c :: s := by
        intro heq
        have hlength := length_withoutReturns_le s
        rw [heq, List.length_cons] at hlength
        omega
      simp [withoutReturns_return hreturn, hne, hoccurs]
    · have hstart : ¬ ['\r', '\n'] <+: c :: s := by
        rintro ⟨t, heq⟩
        cases heq
        exact hreturn ⟨rfl, rfl⟩
      rw [withoutReturns_cons hreturn, List.infix_cons_iff, List.cons.injEq, ih]
      simp [hstart]

theorem getLast?_withoutReturns (s : Text) : (withoutReturns s).getLast? = s.getLast? := by
  induction s with
  | nil => rfl
  | cons c s ih =>
    by_cases hreturn : c = '\r' ∧ s.head? = some '\n'
    · rw [withoutReturns_return hreturn, ih]
      obtain ⟨t, rfl⟩ := List.head?_eq_some_iff.1 hreturn.2
      rw [List.getLast?_cons_cons]
    · rw [withoutReturns_cons hreturn, List.getLast?_cons, List.getLast?_cons, ih]

theorem withoutReturns_eq_nil_iff : withoutReturns s = [] ↔ s = [] := by
  rw [← List.getLast?_eq_none_iff, getLast?_withoutReturns, List.getLast?_eq_none_iff]

/-- No line end is changed exactly if no carriage return stands before a newline. -/
theorem endLine_withoutReturns_iff :
    endLine (withoutReturns s) = endLine s ↔ ¬ ['\r', '\n'] <:+: s := by
  rw [← withoutReturns_eq_self_iff]
  simp only [endLine, withoutReturns_eq_nil_iff, getLast?_withoutReturns]
  split
  · rfl
  · exact List.append_left_inj ['\n']

theorem endLine_cons (hs : s ≠ []) : endLine (c :: s) = c :: endLine s := by
  obtain ⟨d, t, rfl⟩ := List.exists_cons_of_ne_nil hs
  simp only [endLine, List.getLast?_cons_cons, List.cons_ne_nil, false_or]
  split <;> rfl

theorem endLine_newline (s : Text) : endLine ('\n' :: s) = '\n' :: endLine s := by
  cases s with
  | nil => rfl
  | cons d t => exact endLine_cons (List.cons_ne_nil d t)

theorem endLine_singleton (hc : c ≠ '\n') : endLine [c] = [c, '\n'] := by
  simp [endLine, hc]

theorem endLine_eq_nil_iff : endLine s = [] ↔ s = [] := by
  unfold endLine
  split
  · rfl
  · rename_i hs
    simp [(not_or.1 hs).1]

end

/-! ## Bytes -/

section

variable {b : UInt8} {c d : Char} {s : Text}

theorem toNat_byte (hd : d.toNat < 0x80) : (byte d).toNat = d.toNat := toNat_ofNat (by omega)

/-- A character of a single byte. -/
theorem encodeChar_single (hd : d.toNat < 0x80) : encodeChar d = [byte d] := by
  rw [encodeChar, if_pos hd, byte]

/-- The bytes of every other character are large. -/
theorem le_of_mem_encodeChar (hc : 0x80 ≤ c.toNat) (hb : b ∈ encodeChar c) : 0x80 ≤ b.toNat := by
  have hvalid := codePoint_valid c
  have hlarge : ∀ n, 0x80 ≤ n → n < 256 → 0x80 ≤ (UInt8.ofNat n).toNat := by
    intro n hlow hhigh
    rwa [toNat_ofNat hhigh]
  rw [encodeChar, if_neg (by omega)] at hb
  split at hb
  · simp only [List.mem_cons, List.not_mem_nil, or_false] at hb
    rcases hb with rfl | rfl <;> exact hlarge _ (by omega) (by omega)
  · split at hb
    · simp only [List.mem_cons, List.not_mem_nil, or_false] at hb
      rcases hb with rfl | rfl | rfl <;> exact hlarge _ (by omega) (by omega)
    · simp only [List.mem_cons, List.not_mem_nil, or_false] at hb
      rcases hb with rfl | rfl | rfl | rfl <;> exact hlarge _ (by omega) (by omega)

/-- A single byte that is a character is in no other character. -/
theorem mem_encodeChar_iff (hd : d.toNat < 0x80) : byte d ∈ encodeChar c ↔ c = d := by
  constructor
  · intro h
    by_cases hc : c.toNat < 0x80
    · rw [encodeChar_single hc, List.mem_singleton] at h
      have htoNat := congrArg UInt8.toNat h
      rw [toNat_byte hc, toNat_byte hd] at htoNat
      exact Char.toNat_inj.1 htoNat.symm
    · have hlarge := le_of_mem_encodeChar (by omega) h
      rw [toNat_byte hd] at hlarge
      omega
  · rintro rfl
    rw [encodeChar_single hd]
    exact List.mem_singleton_self _

theorem encode_cons (c : Char) (s : Text) : encode (c :: s) = encodeChar c ++ encode s := rfl

theorem encodeChar_ne_nil (c : Char) : encodeChar c ≠ [] := by
  rw [encodeChar_eq]
  exact String.utf8EncodeChar_ne_nil

theorem head?_encode_iff (hd : d.toNat < 0x80) :
    (encode s).head? = some (byte d) ↔ s.head? = some d := by
  cases s with
  | nil => simp [encode]
  | cons c s =>
    rw [encode_cons, List.head?_append_of_ne_nil _ (encodeChar_ne_nil c),
      List.head?_cons, Option.some.injEq]
    constructor
    · intro h
      exact (mem_encodeChar_iff hd).1 (List.mem_of_head? h)
    · rintro rfl
      rw [encodeChar_single hd]
      rfl

end

/-! ## Lines of a text -/

/-- The texts are the lines of a text: they are cut out of it, are made of its characters, and,
written with a newline each, are the text but for its line ends. -/
structure LinesOf (s : Text) (texts : List Text) : Prop where
  splits : splitLines (encode s) = texts.map encode
  writes : written texts = endLine (withoutReturns s)
  subset : ∀ text ∈ texts, text ⊆ s

section

variable {c : Char} {s text : Text} {texts : List Text}

theorem LinesOf.nil : LinesOf [] [] := ⟨rfl, rfl, nofun⟩

theorem LinesOf.newline (h : LinesOf s texts) : LinesOf ('\n' :: s) ([] :: texts) where
  splits := by
    rw [encode_cons, encodeChar_single (by decide), List.singleton_append, splitLines_newline,
      h.splits]
    rfl
  writes := by
    rw [withoutReturns_cons (by simp), endLine_newline, ← h.writes]
    rfl
  subset := by
    simpa using fun text htext => List.subset_cons_of_subset '\n' (h.subset text htext)

theorem LinesOf.return_newline (h : LinesOf s texts) (hreturn : c = '\r' ∧ s.head? = some '\n') :
    LinesOf (c :: s) texts where
  splits := by
    have hhead : (encode s).head? = some (byte '\n') := (head?_encode_iff (by decide)).2 hreturn.2
    rw [hreturn.1, encode_cons, encodeChar_single (by decide), List.singleton_append, splitLines,
      if_neg (by decide), if_pos ⟨rfl, hhead⟩, h.splits]
  writes := by rw [h.writes, withoutReturns_return hreturn]
  subset := fun text htext => List.subset_cons_of_subset c (h.subset text htext)

theorem LinesOf.last (hc : c ≠ '\n') : LinesOf [c] [[c]] where
  splits := by
    have hline : byte '\n' ∉ encodeChar c := by rwa [mem_encodeChar_iff (by decide)]
    have hencode : encode [c] = encodeChar c := List.append_nil _
    rw [hencode, splitLines_of_not_mem hline (encodeChar_ne_nil c), List.map_singleton, hencode]
  writes := by
    rw [withoutReturns_cons (by simp), withoutReturns, endLine_singleton hc]
    rfl
  subset := by simp

theorem LinesOf.character (h : LinesOf s (text :: texts)) (hc : c ≠ '\n')
    (hreturn : ¬ (c = '\r' ∧ s.head? = some '\n')) :
    LinesOf (c :: s) ((c :: text) :: texts) where
  splits := by
    have hline : byte '\n' ∉ encodeChar c := by rwa [mem_encodeChar_iff (by decide)]
    have hends : (encodeChar c).getLast? ≠ some (byte '\r') ∨
        (encode s).head? ≠ some (byte '\n') := by
      rw [← not_and_or, head?_encode_iff (by decide)]
      rintro ⟨hlast, hhead⟩
      exact hreturn ⟨(mem_encodeChar_iff (by decide)).1 (List.mem_of_getLast? hlast), hhead⟩
    rw [encode_cons, splitLines_append hline hends h.splits]
    rfl
  writes := by
    have hs : withoutReturns s ≠ [] := by
      rw [Ne, withoutReturns_eq_nil_iff]
      rintro rfl
      cases h.splits
    rw [withoutReturns_cons hreturn, endLine_cons hs, ← h.writes]
    rfl
  subset := by
    intro line hmem
    rcases List.mem_cons.1 hmem with rfl | htexts
    · exact List.cons_subset_cons c (h.subset text List.mem_cons_self)
    · exact List.subset_cons_of_subset c (h.subset line (List.mem_cons_of_mem text htexts))

/-- Every text has lines that are texts. -/
theorem exists_lines (s : Text) : ∃ texts, LinesOf s texts := by
  induction s with
  | nil => exact ⟨[], .nil⟩
  | cons c s ih =>
    obtain ⟨texts, hlines⟩ := ih
    by_cases hc : c = '\n'
    · subst hc
      exact ⟨[] :: texts, hlines.newline⟩
    · by_cases hreturn : c = '\r' ∧ s.head? = some '\n'
      · exact ⟨texts, hlines.return_newline hreturn⟩
      · cases texts with
        | nil =>
          have hs : s = [] := withoutReturns_eq_nil_iff.1 (endLine_eq_nil_iff.1 hlines.writes.symm)
          subst hs
          exact ⟨[[c]], .last hc⟩
        | cons text texts => exact ⟨(c :: text) :: texts, hlines.character hc hreturn⟩

end

/-! ## Runs over text without a dollar -/

section

variable {env : Environment} {strict : Bool} {text : Text}

/-- Lines that have an expansion each are all written. -/
theorem expandLines_of_expands [Engine] (classes : List EventClass) {lines : List Bytes}
    {texts : List Text}
    (h : List.Forall₂ (fun line text => Expands env strict line (.ok text)) lines texts) :
    (expandLines env strict classes lines).output = written texts ∧
      (expandLines env strict classes lines).failure = none := by
  induction h with
  | nil => exact ⟨rfl, rfl⟩
  | @cons line text lines texts hline hlines ih =>
    have hresult := (expands_iff classes).1 hline
    rw [expandLines]
    rcases hexpand : expandLine env strict classes line with ⟨failure | text', log⟩
    · rw [hexpand] at hresult
      cases hresult
    · rw [hexpand] at hresult
      cases hresult
      refine ⟨?_, ih.2⟩
      rw [written, List.flatMap_cons, ← written, ← ih.1]

/-- A line without a dollar is its own expansion. -/
theorem expands_of_no_dollar [Engine] (h : '$' ∉ text) :
    Expands env strict (encode text) (.ok text) := by
  refine .inl ⟨text, encode_eq_flatMap text, ?_⟩
  rw [Environment.evaluate, Template.evaluate, Template.evaluateWith, Template.read,
    Template.parse_of_no_dollar h]
  rfl

/-- **Text without a dollar is written as it is, but for its line ends.**  Whatever the variables
are, no line of it fails.  What is written is the text with a newline at its end, without the carriage
returns before its newlines; so nothing else is changed exactly if it has none. -/
theorem expandLines_plain [Engine] (env : Environment) (strict : Bool) (classes : List EventClass)
    (hplain : '$' ∉ text) :
    (expandLines env strict classes (splitLines (text.flatMap String.utf8EncodeChar))).failure
        = none ∧
      (expandLines env strict classes (splitLines (text.flatMap String.utf8EncodeChar))).output
        = endLine (withoutReturns text) ∧
      ((expandLines env strict classes (splitLines (text.flatMap String.utf8EncodeChar))).output
          = endLine text ↔ ¬ ['\r', '\n'] <:+: text) := by
  obtain ⟨texts, hlines⟩ := exists_lines text
  have hexpands : List.Forall₂ (fun line text => Expands env strict line (.ok text))
      (texts.map encode) texts := by
    rw [List.forall₂_map_left_iff, List.forall₂_same]
    intro line hline
    exact expands_of_no_dollar fun hdollar => hplain (hlines.subset line hline hdollar)
  rw [← encode_eq_flatMap, hlines.splits]
  obtain ⟨houtput, hfailure⟩ := expandLines_of_expands classes hexpands
  rw [houtput, hlines.writes]
  exact ⟨hfailure, rfl, endLine_withoutReturns_iff⟩

attribute [local instance] Engine.standard

theorem expandLines_plain_return :
    '$' ∉ ['a', '\r', 'b'] ∧ ¬ ['\r', '\n'] <:+: ['a', '\r', 'b'] ∧
      (expandLines [] false [] (splitLines [97, 13, 98])).output = ['a', '\r', 'b', '\n'] := by
  have hplain : '$' ∉ ['a', '\r', 'b'] := by decide
  have hreturns : ¬ ['\r', '\n'] <:+: ['a', '\r', 'b'] := by decide
  obtain ⟨-, -, houtput⟩ := expandLines_plain [] false [] hplain
  exact ⟨hplain, hreturns, houtput.2 hreturns⟩

/-- A carriage return before a newline is lost. -/
theorem expandLines_returnNewline :
    '$' ∉ ['a', '\r', '\n'] ∧
      ['a', '\r', '\n'].flatMap String.utf8EncodeChar = [97, 13, 10] ∧
      (expandLines [] false [] (splitLines [97, 13, 10])).failure = none ∧
      (expandLines [] false [] (splitLines [97, 13, 10])).output = ['a', '\n'] := by
  refine ⟨by decide, by decide, ?_, ?_⟩
  · cbv
  · cbv

end

end ShellExpansion.Command
