import ShellExpansion.Proofs.Template.Recognition
import ShellExpansion.Template.Scanner

/-!
# What a scanner does

Whatever is done with a scanner, its cursor stays at a place of the input, between two characters; and
the text that a scan moves over determines the token and its text.

* `Token.Spans` : the text that a token is read from, and what may follow it.
* `scanRun_spans`, `Spans.of_scan` : a token is read from such a text.
* `StandsBetween` : the cursor stands between two parts of the input; kept by a scan
  (`StandsBetween.scan`).
* `Sound.move`, `sound_after` : what one call keeps, and what any number of them keep.
* `scan_consumes` : **where a scanner can stand, and what a scan consumes.**
-/

namespace ShellExpansion

open Grammar

namespace Token

/-! ## Escapes -/

/-- A text in which every backslash in front of an escapable character is dropped, from left to
right. -/
def unescape : Text → Text
  | [] => []
  | [c] => [c]
  | c :: d :: s => if c = '\\' ∧ isEscapable d then d :: unescape s else c :: unescape (d :: s)

/-- After this text a character is escaped: an odd number of backslashes stands in front of it. -/
def EscapesNext (kinds : TokenKinds) (before : Text) : Prop :=
  kinds.escapes = true ∧
    ∃ start n, before = start ++ List.replicate (2 * n + 1) '\\' ∧ start.getLast? ≠ some '\\'

section

variable {kinds : TokenKinds} {c d : Char} {s : Text}

/-- In front of an escape nothing changes. -/
theorem EscapesNext.pair (h : EscapesNext kinds s) (d : Char) :
    EscapesNext kinds ('\\' :: d :: s) := by
  obtain ⟨hkinds, start, n, rfl, hlast⟩ := h
  refine ⟨hkinds, ?_⟩
  rcases start with _ | ⟨e, start⟩
  · by_cases hd : d = '\\'
    · subst hd
      exact ⟨[], n + 1, rfl, nofun⟩
    · exact ⟨['\\', d], n, rfl, by simpa using hd⟩
  · exact ⟨'\\' :: d :: e :: start, n, rfl, by rwa [List.getLast?_cons_cons, List.getLast?_cons_cons]⟩

/-- A character that starts no escape changes nothing. -/
theorem EscapesNext.single (h : EscapesNext kinds s)
    (hc : c = '\\' → ∀ d ∈ s.head?, isEscapable d = false) : EscapesNext kinds (c :: s) := by
  obtain ⟨hkinds, start, n, rfl, hlast⟩ := h
  refine ⟨hkinds, ?_⟩
  rcases start with _ | ⟨e, start⟩
  · have hne : c ≠ '\\' := by
      intro heq
      exact absurd (hc heq '\\' rfl) (by decide)
    exact ⟨[c], n, rfl, by simpa using hne⟩
  · exact ⟨c :: e :: start, n, rfl, by rwa [List.getLast?_cons_cons]⟩

theorem unescape_cons (h : ¬ (c = '\\' ∧ ∃ d ∈ s.head?, isEscapable d = true)) :
    unescape (c :: s) = c :: unescape s := by
  cases s with
  | nil => rfl
  | cons d s => rw [unescape, if_neg (by simpa using h)]

/-! ## Runs -/

/-- The text of a run that is read from `span`: its escapes are resolved if they are looked for. -/
def resolved (kinds : TokenKinds) (span : Text) : Text :=
  if kinds.escapes then unescape span else span

/-- No dollar of the text starts a token, unless it is escaped or the first of `index` characters. -/
def NoDollarStarts (kinds : TokenKinds) (index : Nat) (span rest : Text) : Prop :=
  ∀ left right, span = left ++ '$' :: right → (0 < index ∨ left ≠ []) → ¬ EscapesNext kinds left →
    afterDollar? kinds (right ++ rest) = none

section

variable {rest : Text} {index : Nat} {accept : Acceptance}

theorem NoDollarStarts.nil (kinds : TokenKinds) (index : Nat) (rest : Text) :
    NoDollarStarts kinds index [] rest := by
  intro left right hspan
  simp at hspan

theorem NoDollarStarts.pair (h : NoDollarStarts kinds (index + 1) s rest)
    (hkinds : kinds.escapes = true) (d : Char) :
    NoDollarStarts kinds index ('\\' :: d :: s) rest := by
  intro left right hspan _ hescapes
  rcases left with _ | ⟨_, _ | ⟨_, left⟩⟩
  · cases hspan
  · -- the dollar is the escaped character itself
    cases hspan
    exact absurd ⟨hkinds, [], 0, rfl, nofun⟩ hescapes
  · cases hspan
    exact h left right rfl (.inl (Nat.succ_pos _)) fun hleft => hescapes (hleft.pair _)

theorem NoDollarStarts.single (h : NoDollarStarts kinds (index + 1) s rest)
    (hc : kinds.escapes = true → c = '\\' → ∀ d ∈ (s ++ rest).head?, isEscapable d = false)
    (hstop : ¬ stopsRun kinds accept index c (s ++ rest) = true) :
    NoDollarStarts kinds index (c :: s) rest := by
  intro left right hspan hfirst hescapes
  rcases left with _ | ⟨_, left⟩
  · cases hspan
    have hindex : 0 < index := hfirst.resolve_right fun hne => hne rfl
    simpa [stopsRun, hindex] using (not_or.1 (mt Bool.or_eq_true_iff.2 hstop)).1
  · cases hspan
    refine h left right rfl (.inl (Nat.succ_pos _)) fun hleft => hescapes (hleft.single ?_)
    intro hbackslash d hd
    refine hc hleft.1 hbackslash d ?_
    obtain ⟨t, rfl⟩ := List.head?_eq_some_iff.1 hd
    rfl

theorem resolved_pair (hkinds : kinds.escapes = true) (hd : isEscapable d = true) :
    resolved kinds ('\\' :: d :: s) = d :: resolved kinds s := by
  simp [resolved, hkinds, unescape, hd]

theorem resolved_single
    (hc : kinds.escapes = true → c = '\\' → ∀ d ∈ s.head?, isEscapable d = false) :
    resolved kinds (c :: s) = c :: resolved kinds s := by
  by_cases hkinds : kinds.escapes = true
  · simp only [resolved, if_pos hkinds]
    refine unescape_cons ?_
    rintro ⟨hbackslash, d, hd, hescapable⟩
    rw [hc hkinds hbackslash d hd] at hescapable
    cases hescapable
  · simp only [resolved, if_neg hkinds]

end

/-- A run is read from a text that determines it, and goes over no dollar that starts a token. -/
theorem scanRun_spans (kinds : TokenKinds) (accept : Acceptance) (index : Nat) (s : Text) :
    ∃ span, s = span ++ (scanRun kinds accept index s).2 ∧
      (scanRun kinds accept index s).1 = resolved kinds span ∧
      NoDollarStarts kinds index span (scanRun kinds accept index s).2 := by
  have hnil : [] = resolved kinds [] := by simp [resolved, unescape]
  fun_induction scanRun kinds accept index s with
  | case1 index => exact ⟨[], rfl, hnil, .nil _ _ _⟩
  | case2 index c hstop => exact ⟨[], rfl, hnil, .nil _ _ _⟩
  | case3 index c hstop =>
    exact ⟨[c], rfl, by rw [resolved_single (by simp), ← hnil],
      (NoDollarStarts.nil kinds (index + 1) []).single (by simp) hstop⟩
  | case4 index c d s hescape text rest hrun ih =>
    simp only [Bool.and_eq_true, beq_iff_eq] at hescape
    obtain ⟨⟨hkinds, rfl⟩, hd⟩ := hescape
    rw [hrun] at ih
    obtain ⟨span, rfl, htext, hdollars⟩ := ih
    exact ⟨'\\' :: d :: span, rfl, by rw [resolved_pair hkinds hd, ← htext],
      hdollars.pair hkinds d⟩
  | case5 index c d s hescape hstop => exact ⟨[], rfl, hnil, .nil _ _ _⟩
  | case6 index c d s hescape hstop text rest hrun ih =>
    rw [hrun] at ih
    obtain ⟨span, hspan, htext, hdollars⟩ := ih
    simp only at hspan htext hdollars
    have hplain : kinds.escapes = true → c = '\\' →
        ∀ e ∈ (span ++ rest).head?, isEscapable e = false := by
      rintro hkinds rfl e he
      rw [← hspan] at he
      cases he
      simpa [hkinds] using hescape
    refine ⟨c :: span, by rw [hspan]; rfl, ?_, hdollars.single hplain (hspan ▸ hstop)⟩
    rw [htext, resolved_single]
    intro hkinds hc e he
    obtain ⟨t, rfl⟩ := List.head?_eq_some_iff.1 he
    exact hplain hkinds hc e rfl

/-! ## Tokens -/

/-- A token, the text that it is read from, and what follows. -/
inductive Spans (kinds : TokenKinds) : Token → Text → Text → Prop
  /-- The end is found at the end only. -/
  | ending : Spans kinds .ending [] []
  /-- Nothing is read where no token starts. -/
  | illegal {rest : Text} (hrest : rest ≠ []) : Spans kinds .illegal [] rest
  /-- A run has the text that it is read from, with its escapes resolved. -/
  | run {span rest : Text} (hne : span ≠ []) (hdollars : NoDollarStarts kinds 0 span rest) :
      Spans kinds (.run (resolved kinds span)) span rest
  /-- A dollar and a brace. -/
  | opening {rest : Text} : Spans kinds .opening ['$', '{'] rest
  /-- A brace. -/
  | closing {rest : Text} : Spans kinds .closing ['}'] rest
  /-- A dollar and a name, which does not go on. -/
  | reference {name rest : Text} (hname : IsName name) (hrest : ¬ NameFollows rest) :
      Spans kinds (.reference name) ('$' :: name) rest
  /-- Two dollars. -/
  | dollars {rest : Text} (hrest : ¬ DollarExpands rest) : Spans kinds .dollars ['$', '$'] rest
  /-- A dollar in front of one that starts an expansion. -/
  | dollar {rest : Text} (hrest : DollarExpands rest) : Spans kinds .dollars ['$'] ('$' :: rest)

theorem scanText_spans (kinds : TokenKinds) (accept : Acceptance) {s : Text} (hs : s ≠ []) :
    ∃ span, s = span ++ (scanText kinds accept s).2 ∧
      Spans kinds (scanText kinds accept s).1 span (scanText kinds accept s).2 := by
  unfold scanText
  split
  · obtain ⟨span, hspan, htext, hdollars⟩ := scanRun_spans kinds accept 0 s
    split
    · exact ⟨[], rfl, .illegal hs⟩
    · rename_i text rest hne hrun
      rw [hrun] at hspan htext hdollars
      refine ⟨span, hspan, ?_⟩
      simp only at htext
      subst htext
      refine .run ?_ hdollars
      rintro rfl
      exact hne (by simp [resolved, unescape])
  · exact ⟨[], rfl, .illegal hs⟩

theorem afterDollar?_spans {token : Token} {rest : Text}
    (h : afterDollar? kinds s = some (token, rest)) :
    ∃ span, '$' :: s = span ++ rest ∧ Spans kinds token span rest := by
  unfold afterDollar? at h
  split at h
  · cases h
  · split at h
    · cases h
      exact ⟨['$', '{'], rfl, .opening⟩
    · cases h
  · split at h
    · split at h
      · cases h
        exact ⟨['$', '$'], rfl, .dollars (by simp [DollarExpands, NameFollows])⟩
      · rename_i e t
        by_cases hexpands : DollarExpands (e :: t)
        · rw [if_pos (by simpa [DollarExpands, NameFollows] using hexpands)] at h
          cases h
          exact ⟨['$'], rfl, .dollar hexpands⟩
        · rw [if_neg (by simpa [DollarExpands, NameFollows] using hexpands)] at h
          cases h
          exact ⟨['$', '$'], rfl, .dollars hexpands⟩
    · cases h
  · rename_i e t _ _
    split at h
    · rename_i hname
      simp only [Bool.and_eq_true] at hname
      cases h
      have htake : e :: t.takeWhile isNameChar = (e :: t).takeWhile isNameChar :=
        (List.takeWhile_cons_of_pos hname.2).symm
      refine ⟨'$' :: e :: t.takeWhile isNameChar, by simp, .reference ?_ ?_⟩
      · rw [htake]
        exact isName_takeWhile (by rw [← htake]; exact List.cons_ne_nil _ _)
      · exact not_nameFollows_dropWhile t
    · cases h

/-- **A token is read from a text that determines it.** -/
theorem scan_spans (kinds : TokenKinds) (accept : Acceptance) (s : Text) :
    ∃ span, s = span ++ (scan kinds accept s).2 ∧
      Spans kinds (scan kinds accept s).1 span (scan kinds accept s).2 := by
  unfold scan
  split
  · exact ⟨[], rfl, .ending⟩
  · rename_i t
    cases hdollar : afterDollar? kinds t with
    | none => exact scanText_spans kinds accept (List.cons_ne_nil _ _)
    | some found => exact afterDollar?_spans hdollar
  · split
    · exact ⟨['}'], rfl, .closing⟩
    · exact scanText_spans kinds accept (List.cons_ne_nil _ _)
  · rename_i hne _ _
    exact scanText_spans kinds accept fun hs => hne hs

end

end Token

namespace Scanner

/-! ## Places -/

/-- A number of bytes of a text that end where a character ends, or at its start. -/
def IsPlace (input : Text) (offset : Nat) : Prop :=
  ∃ before rest, input = before ++ rest ∧ Utf8.size before = offset

/-- The cursor stands between two parts of the input. -/
structure StandsBetween (scanner : Scanner) (before rest : Text) : Prop where
  /-- The parts make up the input. -/
  input : scanner.input = before ++ rest
  /-- The cursor is where the first part ends. -/
  cursor : scanner.cursor = Utf8.size before

section

variable {scanner : Scanner} {before rest : Text}

theorem StandsBetween.rest_eq (h : scanner.StandsBetween before rest) : scanner.rest = rest := by
  have hafter : Utf8.after? scanner.cursor scanner.input = some rest :=
    Utf8.after?_eq_some_iff.2 ⟨before, h.input, h.cursor.symm⟩
  rw [Scanner.rest, hafter, Option.getD_some]

/-- A scan moves the cursor over the text of a token. -/
theorem StandsBetween.scan (h : scanner.StandsBetween before rest) :
    ∃ token span after, rest = span ++ after ∧ Token.Spans scanner.kinds token span after ∧
      Token.scan scanner.kinds scanner.accept rest = (token, after) ∧
      scanner.scan.1 = token.kind ∧ scanner.scan.2.text = token.text ∧
      scanner.scan.2.start = scanner.cursor ∧
      scanner.scan.2.StandsBetween (before ++ span) after := by
  obtain ⟨span, hspan, hspans⟩ := Token.scan_spans scanner.kinds scanner.accept rest
  obtain ⟨span', hspan', hresult⟩ := scanner.scan_finds
  rw [fresh_rest, h.rest_eq] at hspan'
  rw [h.rest_eq] at hresult
  obtain rfl : span = span' := List.append_cancel_right (hspan.symm.trans hspan')
  refine ⟨_, span, _, hspan, hspans, rfl, ?_, ?_, ?_, ?_⟩
  · rw [hresult]
  · rw [hresult]
    rfl
  · rw [hresult]
    rfl
  · rw [hresult]
    refine ⟨?_, ?_⟩
    · rw [List.append_assoc, ← hspan]
      exact h.input
    · rw [Utf8.size_append, ← h.cursor]
      rfl

/-! ## Calls -/

/-- What may be done with a scanner. -/
inductive Move where
  /-- Set what is looked for. -/
  | configure (kinds : TokenKinds) (accept : Acceptance)
  /-- Scan a token. -/
  | scan
  /-- Step back over the token read last. -/
  | unread

/-- The scanner after a call. -/
def move (scanner : Scanner) : Move → Scanner
  | .configure kinds accept => scanner.configure kinds accept
  | .scan => scanner.scan.2
  | .unread => scanner.unread

/-- The scanner of an input after some calls. -/
def after (input : Text) (moves : List Move) : Scanner := moves.foldl move (new input)

/-- The last token starts at a place of the input, and the cursor is at this place or a later one. -/
structure Sound (input : Text) (scanner : Scanner) : Prop where
  /-- The input is the same as ever. -/
  keeps : scanner.input = input
  /-- The token starts at a place. -/
  start : IsPlace input scanner.start
  /-- The cursor is at a place. -/
  cursor : IsPlace input scanner.cursor
  /-- The cursor is not before the token. -/
  start_le : scanner.start ≤ scanner.cursor

section

variable {input : Text}

theorem IsPlace.le {offset : Nat} (h : IsPlace input offset) : offset ≤ Utf8.size input := by
  obtain ⟨before, rest, rfl, rfl⟩ := h
  rw [Utf8.size_append]
  exact Nat.le_add_right _ _

theorem Sound.standsBetween (h : Sound input scanner) :
    ∃ before rest, input = before ++ rest ∧ scanner.StandsBetween before rest := by
  obtain ⟨before, rest, hinput, hsize⟩ := h.cursor
  exact ⟨before, rest, hinput, h.keeps.trans hinput, hsize.symm⟩

theorem sound_new (input : Text) : Sound input (new input) :=
  ⟨rfl, ⟨[], input, rfl, rfl⟩, ⟨[], input, rfl, rfl⟩, Nat.le_refl 0⟩

/-- Every call leaves the scanner at a place. -/
theorem Sound.move (h : Sound input scanner) (call : Move) : Sound input (scanner.move call) := by
  cases call with
  | configure kinds accept => exact ⟨h.keeps, h.start, h.cursor, h.start_le⟩
  | unread => exact ⟨h.keeps, h.start, h.start, Nat.le_refl _⟩
  | scan =>
    obtain ⟨before, rest, rfl, hstands⟩ := h.standsBetween
    obtain ⟨token, span, after, rfl, -, -, -, -, hstart, hafter⟩ := hstands.scan
    rw [← List.append_assoc] at h ⊢
    refine ⟨hafter.input, ?_, ⟨before ++ span, after, rfl, hafter.cursor.symm⟩, ?_⟩
    · exact hstart ▸ h.cursor
    · show scanner.scan.2.start ≤ scanner.scan.2.cursor
      rw [hstart, hafter.cursor, hstands.cursor, Utf8.size_append]
      exact Nat.le_add_right _ _

/-- So does any number of calls. -/
theorem sound_after (input : Text) (moves : List Move) : Sound input (after input moves) := by
  have hrun : ∀ (moves : List Move) (scanner : Scanner), Sound input scanner →
      Sound input (moves.foldl Scanner.move scanner) := by
    intro moves
    induction moves with
    | nil => exact fun _ h => h
    | cons call moves ih => exact fun scanner h => ih _ (h.move call)
  exact hrun moves _ (sound_new input)

/-! ## What a scan consumes -/

/-- What a scan between `before` and `span ++ rest` does that moves the cursor over `span`. -/
structure Consumes (scanner : Scanner) (before span rest : Text) : Prop where
  /-- The token starts at the cursor. -/
  start : scanner.scan.2.start = scanner.cursor
  /-- The cursor moves over the text of the token. -/
  cursor : scanner.scan.2.cursor = scanner.cursor + Utf8.size span
  /-- The end is found at the end of the input and nowhere else. -/
  ending : scanner.scan.1 = .ending ↔ scanner.cursor = Utf8.size scanner.input
  /-- The cursor stays where it is at the end and where no token starts, and nowhere else. -/
  stays : scanner.scan.2.cursor = scanner.cursor ↔
    scanner.scan.1 = .ending ∨ scanner.scan.1 = .illegal
  /-- Any other token is read from at least one character. -/
  moves : scanner.scan.1 ≠ .ending → scanner.scan.1 ≠ .illegal → span ≠ []
  /-- The text of a run is what it is read from, with its escapes resolved if they are looked for. -/
  run : scanner.scan.1 = .run → scanner.scan.2.text = Token.resolved scanner.kinds span
  /-- The text of a reference is what it is read from without the dollar, as long as it can be. -/
  reference : scanner.scan.1 = .reference →
    span = '$' :: scanner.scan.2.text ∧ ¬ NameFollows rest
  /-- Two dollars stand for one. -/
  dollars : scanner.scan.1 = .dollars → scanner.scan.2.text = ['$']
  /-- A run goes over no dollar at which the same kinds of token would find another token, unless the
  dollar is escaped or the first character of the run. -/
  stops : scanner.scan.1 = .run → ∀ left right, span = left ++ '$' :: right → left ≠ [] →
    ¬ Token.EscapesNext scanner.kinds left →
    ∀ other : Scanner, other.StandsBetween (before ++ left) ('$' :: right ++ rest) →
      other.kinds = scanner.kinds → other.scan.1 ∉ [.opening, .dollars, .reference]
  /-- Stepping back restores the cursor. -/
  unread : scanner.scan.2.unread.cursor = scanner.cursor
  /-- The token is the first one of the text at the cursor. -/
  token : ∃ token, Token.scan scanner.kinds scanner.accept (span ++ rest) = (token, rest) ∧
    token.kind = scanner.scan.1 ∧ token.text = scanner.scan.2.text

theorem kind_of_afterDollar?_none {other : Scanner} {s : Text} (h : other.rest = '$' :: s)
    (hnone : Token.afterDollar? other.kinds s = none) :
    other.scan.1 ∉ [.opening, .dollars, .reference] := by
  rw [kind_scan, h, Token.scan, hnone, Option.getD_none, Token.scanText]
  split
  · split <;> simp [Token.kind]
  · simp [Token.kind]

theorem StandsBetween.consumes (h : scanner.StandsBetween before rest) :
    ∃ span after, rest = span ++ after ∧ scanner.Consumes before span after := by
  obtain ⟨token, span, after, rfl, hspans, hscan, hkind, htext, hstart, hafter⟩ := h.scan
  have hcursor : scanner.scan.2.cursor = scanner.cursor + Utf8.size span := by
    rw [hafter.cursor, h.cursor, Utf8.size_append]
  have hstays : scanner.scan.2.cursor = scanner.cursor ↔ span = [] := by
    rw [hcursor, ← Utf8.size_eq_zero_iff]
    omega
  have hending : scanner.cursor = Utf8.size scanner.input ↔ span ++ after = [] := by
    rw [h.cursor, h.input, Utf8.size_append, ← Utf8.size_eq_zero_iff]
    omega
  refine ⟨span, after, rfl, hstart, hcursor, ?_, ?_, ?_, ?_, ?_, ?_, ?_, ?_, ?_⟩
  · rw [hkind, hending]
    cases hspans <;> simp_all [Token.kind]
  · rw [hkind, hstays]
    cases hspans <;> simp_all [Token.kind]
  · rw [hkind]
    cases hspans <;> simp_all [Token.kind]
  · rw [hkind, htext]
    cases hspans <;> simp [Token.kind, Token.text]
  · rw [hkind, htext]
    cases hspans <;> simp_all [Token.kind, Token.text]
  · rw [hkind, htext]
    cases hspans <;> simp [Token.kind, Token.text]
  · rw [hkind]
    intro hrun left right hspan hleft hescapes other hother hkinds
    cases hspans with
    | run hne hdollars =>
      refine kind_of_afterDollar?_none hother.rest_eq ?_
      rw [hkinds]
      exact hdollars left right hspan (.inr hleft) hescapes
    | _ => cases hrun
  · exact hstart
  · exact ⟨token, hscan, hkind.symm, htext.symm⟩

/-- **A scan moves over a text that determines its token.**  Whatever has been done with a scanner, the
last token starts at a place of the input, the cursor stands at this place or a later one, and the next
scan moves it over the text of a token, and over nothing else. -/
theorem scan_consumes (input : Text) (moves : List Move) :
    IsPlace input (after input moves).start ∧ IsPlace input (after input moves).cursor ∧
      (after input moves).start ≤ (after input moves).cursor ∧
      (after input moves).cursor ≤ Utf8.size input ∧
      ∃ before span rest, input = before ++ (span ++ rest) ∧
        (after input moves).StandsBetween before (span ++ rest) ∧
        (after input moves).Consumes before span rest := by
  have hsound := sound_after input moves
  obtain ⟨before, rest, hinput, hstands⟩ := hsound.standsBetween
  obtain ⟨span, after, rfl, hconsumes⟩ := hstands.consumes
  exact ⟨hsound.start, hsound.cursor, hsound.start_le, hsound.cursor.le, before, span, after, hinput,
    hstands, hconsumes⟩

/-- A run goes over an escaped dollar, at which the same kinds of token would find an expansion. -/
theorem scan_over_escaped_dollar :
    ∃ scanner other : Scanner,
      scanner = after ['a', '\\', '$', '{', 'x', '}']
        [.configure Region.word.kinds Region.word.accepts] ∧
      other = after ['a', '\\', '$', '{', 'x', '}']
        [.configure { run := true } fun _ index => index < 2, .scan,
          .configure Region.word.kinds Region.word.accepts] ∧
      scanner.StandsBetween [] (['a', '\\'] ++ '$' :: ['{', 'x'] ++ ['}']) ∧
      scanner.scan.1 = .run ∧
      scanner.scan.2.StandsBetween (['a', '\\'] ++ '$' :: ['{', 'x']) ['}'] ∧
      other.StandsBetween ['a', '\\'] ('$' :: ['{', 'x'] ++ ['}']) ∧
      other.kinds = scanner.kinds ∧ other.scan.1 = .opening := by
  refine ⟨_, _, rfl, rfl, ⟨rfl, rfl⟩, ?_, ⟨?_, ?_⟩, ⟨?_, ?_⟩, rfl, ?_⟩
  all_goals decide +kernel

end

end

end Scanner

end ShellExpansion
