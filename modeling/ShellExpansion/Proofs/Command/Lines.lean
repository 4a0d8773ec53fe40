import ShellExpansion.Command.Lines
import ShellExpansion.Environment
import ShellExpansion.Proofs.Text.Utf8
import Mathlib.Data.List.Forall2

/-!
# What is written line by line

The input is cut into lines (`AreLines`), and each line has an expansion or a reason why it has none,
whatever the other lines are (`Expands`).

* `areLines_iff` : an input has exactly one list of lines.
* `expands_iff` : a line has exactly one result, the one that it has in a run.
* `expandLines_commits` : **what is written is the expansions of the lines before the first that has
  none.**
-/

namespace ShellExpansion.Command

open Utf8

/-! ## Lines -/

/-- The lines of an input.  A line ends at a newline, with or without a carriage return before it, or
at the end of the input; there is no empty line after the last newline. -/
inductive AreLines : Bytes → List Bytes → Prop
  /-- Nothing is left. -/
  | nil : AreLines [] []
  /-- The last line has no newline. -/
  | last {line : Bytes} (hne : line ≠ []) (hline : byte '\n' ∉ line) : AreLines line [line]
  /-- A line that ends at a newline alone. -/
  | newline {line rest : Bytes} {lines : List Bytes} (hline : byte '\n' ∉ line)
      (hreturn : line.getLast? ≠ some (byte '\r')) (tail : AreLines rest lines) :
      AreLines (line ++ byte '\n' :: rest) (line :: lines)
  /-- A line that ends at a carriage return and a newline. -/
  | returnNewline {line rest : Bytes} {lines : List Bytes} (hline : byte '\n' ∉ line)
      (tail : AreLines rest lines) :
      AreLines (line ++ byte '\r' :: byte '\n' :: rest) (line :: lines)

/-- A byte at the start of the first of several lines. -/
def startWith (b : UInt8) : List Bytes → List Bytes
  | [] => [[b]]
  | line :: lines => (b :: line) :: lines

section

variable {b : UInt8} {s line rest : Bytes} {lines : List Bytes}

theorem splitLines_newline (s : Bytes) : splitLines (byte '\n' :: s) = [] :: splitLines s := by
  rw [splitLines, if_pos rfl]

theorem splitLines_returnNewline (s : Bytes) :
    splitLines (byte '\r' :: byte '\n' :: s) = [] :: splitLines s := by
  rw [splitLines, if_neg (by decide), if_pos ⟨rfl, rfl⟩, splitLines_newline]

theorem splitLines_cons (hb : b ≠ byte '\n')
    (hreturn : ¬ (b = byte '\r' ∧ s.head? = some (byte '\n'))) :
    splitLines (b :: s) = startWith b (splitLines s) := by
  rw [splitLines, if_neg hb, if_neg hreturn]
  cases splitLines s <;> rfl

/-- A byte that ends no line goes to the line that comes after it. -/
theorem AreLines.cons (h : AreLines s lines) (hb : b ≠ byte '\n')
    (hreturn : ¬ (b = byte '\r' ∧ s.head? = some (byte '\n'))) :
    AreLines (b :: s) (startWith b lines) := by
  have hmem : ∀ {line : Bytes}, byte '\n' ∉ line → byte '\n' ∉ b :: line :=
    fun hline => List.not_mem_cons_of_ne_of_not_mem hb.symm hline
  cases h with
  | nil => exact .last (List.cons_ne_nil b []) (hmem List.not_mem_nil)
  | last hne hline => exact .last (List.cons_ne_nil b s) (hmem hline)
  | @newline line rest lines hline hlast tail =>
    refine .newline (hmem hline) ?_ tail
    rcases line with _ | ⟨c, line⟩
    · intro heq
      exact hreturn ⟨Option.some.inj heq, rfl⟩
    · rwa [List.getLast?_cons_cons]
  | returnNewline hline tail => exact .returnNewline (hmem hline) tail

/-- A carriage return before a newline belongs to the end of its line. -/
theorem AreLines.cons_return (h : AreLines (byte '\n' :: s) lines) :
    AreLines (byte '\r' :: byte '\n' :: s) lines := by
  generalize htext : byte '\n' :: s = text at h
  cases h with
  | nil => cases htext
  | last hne hline => exact absurd (htext ▸ List.mem_cons_self) hline
  | @newline line rest lines hline hlast tail =>
    rcases line with _ | ⟨c, line⟩
    · cases htext
      exact @AreLines.returnNewline [] s lines hline tail
    · cases htext
      exact absurd List.mem_cons_self hline
  | @returnNewline line rest lines hline tail =>
    rcases line with _ | ⟨c, line⟩
    · exact absurd (List.cons.inj htext).1 (by decide)
    · cases htext
      exact absurd List.mem_cons_self hline

/-- The lines that are read are lines of the input. -/
theorem areLines_splitLines (input : Bytes) : AreLines input (splitLines input) := by
  induction input with
  | nil => exact .nil
  | cons b s ih =>
    by_cases hb : b = byte '\n'
    · subst hb
      rw [splitLines_newline]
      exact @AreLines.newline [] s (splitLines s) List.not_mem_nil nofun ih
    · by_cases hreturn : b = byte '\r' ∧ s.head? = some (byte '\n')
      · obtain ⟨rfl, hhead⟩ := hreturn
        obtain ⟨t, rfl⟩ := List.head?_eq_some_iff.1 hhead
        rw [splitLines_newline] at ih
        rw [splitLines_returnNewline]
        exact ih.cons_return
      · rw [splitLines_cons hb hreturn]
        exact ih.cons hb hreturn

/-- A text without a newline is put in front of the first line, unless it takes the newline after it
for the second half of a line end. -/
theorem splitLines_append {first : Bytes} (hline : byte '\n' ∉ line)
    (hreturn : line.getLast? ≠ some (byte '\r') ∨ s.head? ≠ some (byte '\n'))
    (hs : splitLines s = first :: lines) :
    splitLines (line ++ s) = (line ++ first) :: lines := by
  induction line with
  | nil => exact hs
  | cons b line ih =>
    have hb : byte '\n' ≠ b := List.ne_of_not_mem_cons hline
    have hrest : byte '\n' ∉ line := List.not_mem_of_not_mem_cons hline
    have hnot : ¬ (b = byte '\r' ∧ (line ++ s).head? = some (byte '\n')) := by
      rintro ⟨rfl, hhead⟩
      rcases line with _ | ⟨c, line⟩
      · exact hreturn.elim (fun h => h rfl) fun h => h hhead
      · exact List.ne_of_not_mem_cons hrest (Option.some.inj hhead).symm
    have hreturn' : line.getLast? ≠ some (byte '\r') ∨ s.head? ≠ some (byte '\n') := by
      rcases line with _ | ⟨c, line⟩
      · exact .inl nofun
      · rwa [List.getLast?_cons_cons] at hreturn
    rw [List.cons_append, splitLines_cons (Ne.symm hb) hnot, ih hrest hreturn']
    rfl

theorem splitLines_of_not_mem (hline : byte '\n' ∉ line) (hne : line ≠ []) :
    splitLines line = [line] := by
  induction line with
  | nil => exact absurd rfl hne
  | cons b line ih =>
    have hb : byte '\n' ≠ b := List.ne_of_not_mem_cons hline
    have hrest : byte '\n' ∉ line := List.not_mem_of_not_mem_cons hline
    have hnot : ¬ (b = byte '\r' ∧ line.head? = some (byte '\n')) := by
      rintro ⟨-, hhead⟩
      exact hrest (List.mem_of_head? hhead)
    rw [splitLines_cons (Ne.symm hb) hnot]
    rcases line with _ | ⟨c, line⟩
    · rfl
    · rw [ih hrest (List.cons_ne_nil c line)]
      rfl

/-- **An input has exactly one list of lines**, the one that is read. -/
theorem areLines_iff {input : Bytes} : AreLines input lines ↔ lines = splitLines input := by
  constructor
  · intro h
    induction h with
    | nil => rfl
    | last hne hline => rw [splitLines_of_not_mem hline hne]
    | @newline line rest lines hline hreturn tail ih =>
      rw [splitLines_append hline (.inl hreturn) (splitLines_newline rest), List.append_nil, ih]
    | @returnNewline line rest lines hline tail ih =>
      have hhead : (byte '\r' :: byte '\n' :: rest).head? ≠ some (byte '\n') := by
        intro heq
        exact absurd (Option.some.inj heq) (by decide)
      rw [splitLines_append hline (.inr hhead) (splitLines_returnNewline rest), List.append_nil, ih]
  · rintro rfl
    exact areLines_splitLines input

end

/-! ## Results of lines -/

/-- What comes of a line on its own: the expansion of the text that its bytes are, or the reason why
there is none. -/
def Expands [Engine] (env : Environment) (strict : Bool) (line : Bytes)
    (result : Except Failure Text) : Prop :=
  (∃ input : Text, line = input.flatMap String.utf8EncodeChar ∧
      result = (env.evaluate strict input).mapError .expansion) ∨
    (∀ input : Text, line ≠ input.flatMap String.utf8EncodeChar) ∧ result = .error .notText

section

variable {env : Environment} {strict : Bool} {classes : List EventClass} {line : Bytes}
  {result : Except Failure Text}

theorem expandLine_of_decode? [Engine] {input : Text} (h : decode? line = some input) :
    (expandLine env strict classes line).1 = (env.evaluate strict input).mapError .expansion := by
  simp only [expandLine, h, Environment.evaluate, Template.evaluate, Template.evaluateWith,
    Template.read]
  cases Template.parse Template.defaultLimit input <;> rfl

/-- A line has one result, whatever is logged: the one that it has in a run. -/
theorem expands_iff [Engine] (classes : List EventClass) :
    Expands env strict line result ↔ result = (expandLine env strict classes line).1 := by
  simp only [Expands, ← encode_eq_flatMap]
  cases hdecode : decode? line with
  | none =>
    have hnot := decode?_eq_none_iff.1 hdecode
    have hresult : (expandLine env strict classes line).1 = .error .notText := by
      simp only [expandLine, hdecode]
    rw [hresult]
    constructor
    · rintro (⟨input, hline, -⟩ | ⟨-, rfl⟩)
      · exact absurd hline (hnot input)
      · rfl
    · rintro rfl
      exact .inr ⟨hnot, rfl⟩
  | some input =>
    have hline := decode?_eq_some_iff.1 hdecode
    rw [expandLine_of_decode? hdecode]
    constructor
    · rintro (⟨input', hline', rfl⟩ | ⟨hnot, -⟩)
      · rw [decode?_eq_some_iff.2 hline'] at hdecode
        rw [Option.some.inj hdecode]
      · exact absurd hline (hnot input)
    · rintro rfl
      exact .inl ⟨input, hline, rfl⟩

end

/-! ## Runs -/

/-- The expansions in the output, each with a newline after it. -/
def written (texts : List Text) : Text := texts.flatMap (· ++ ['\n'])

/-- A run over lines that have a result each ends with the last line, or before the first that has
no expansion. -/
theorem expandLines_cases [Engine] (env : Environment) (strict : Bool) (classes : List EventClass)
    (lines : List Bytes) :
    (∃ texts, List.Forall₂ (fun line text => Expands env strict line (.ok text)) lines texts ∧
        (expandLines env strict classes lines).output = written texts ∧
        (expandLines env strict classes lines).failure = none) ∨
      ∃ before line after texts failure, lines = before ++ line :: after ∧
        List.Forall₂ (fun line text => Expands env strict line (.ok text)) before texts ∧
        Expands env strict line (.error failure) ∧
        (expandLines env strict classes lines).output = written texts ∧
        (expandLines env strict classes lines).failure = some failure := by
  induction lines with
  | nil => exact .inl ⟨[], .nil, rfl, rfl⟩
  | cons line lines ih =>
    rw [expandLines]
    rcases hresult : expandLine env strict classes line with ⟨failure | text, log⟩
    · have hline : Expands env strict line (.error failure) :=
        (expands_iff classes).2 (by rw [hresult])
      exact .inr ⟨[], line, lines, [], failure, rfl, .nil, hline, rfl, rfl⟩
    · have hline : Expands env strict line (.ok text) := (expands_iff classes).2 (by rw [hresult])
      rcases ih with ⟨texts, htexts, houtput, hfailure⟩ |
        ⟨before, line', after, texts, failure, rfl, htexts, hline', houtput, hfailure⟩
      · refine .inl ⟨text :: texts, .cons hline htexts, ?_, hfailure⟩
        rw [written, List.flatMap_cons, ← written, ← houtput]
      · refine .inr ⟨line :: before, line', after, text :: texts, failure, rfl,
          .cons hline htexts, hline', ?_, hfailure⟩
        rw [written, List.flatMap_cons, ← written, ← houtput]

/-- **What is written is the expansions of the lines before the first that has none.**  An input has
one list of lines, and a line has one result, on its own.  Either every line has an expansion: all of
them are written, in order, each with a newline after it.  Or there is a first line that has none:
what is written is the expansions of the lines before it, and the run fails as this line does. -/
theorem expandLines_commits [Engine] (env : Environment) (strict : Bool) (classes : List EventClass)
    (input : Bytes) :
    (∀ line, ∃! result, Expands env strict line result) ∧
      ∃ lines, (∀ other, AreLines input other ↔ other = lines) ∧
        ((∃ texts, List.Forall₂ (fun line text => Expands env strict line (.ok text)) lines texts ∧
            (expandLines env strict classes (splitLines input)).output = written texts ∧
            (expandLines env strict classes (splitLines input)).failure = none) ∨
          ∃ before line after texts failure, lines = before ++ line :: after ∧
            List.Forall₂ (fun line text => Expands env strict line (.ok text)) before texts ∧
            Expands env strict line (.error failure) ∧
            (expandLines env strict classes (splitLines input)).output = written texts ∧
            (expandLines env strict classes (splitLines input)).failure = some failure) := by
  refine ⟨fun line => ?_, splitLines input, fun other => areLines_iff, ?_⟩
  · exact ⟨(expandLine env strict classes line).1, (expands_iff classes).2 rfl,
      fun result hresult => (expands_iff classes).1 hresult⟩
  · exact expandLines_cases env strict classes (splitLines input)

end ShellExpansion.Command
