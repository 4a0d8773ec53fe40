import ShellExpansion.Template.Token
import ShellExpansion.Text.Utf8

/-!
# The scanner

A scanner moves along an input, token by token. It keeps a cursor, the place where the token read
last starts, and the text of that token; what it looks for is set before a scan, and it can step back
over the token read last. Places are counted in bytes, so that not every number is a place: inside a
character there is nothing left to read.

`Scanner.scan_finds`: a scan finds the token that `Token.scan` finds in what is left of the input.
-/

namespace ShellExpansion

/-! ## Places in a text -/

namespace Utf8

/-- How many bytes a character takes. -/
def width (c : Char) : Nat := (encodeChar c).length

/-- What is left of a text after so many bytes, unless they end inside a character or beyond the
text. -/
def after? : Nat → Text → Option Text
  | 0, s => some s
  | _ + 1, [] => none
  | n + 1, c :: s => if n + 1 < width c then none else after? (n + 1 - width c) s

/-- The text of so many bytes at the start of a text, unless they end inside a character or beyond the
text. -/
def upTo? : Nat → Text → Option Text
  | 0, _ => some []
  | _ + 1, [] => none
  | n + 1, c :: s => if n + 1 < width c then none else (upTo? (n + 1 - width c) s).map (c :: ·)

/-- The text between two places, if they are places of the input. -/
def between? (start finish : Nat) (input : Text) : Option Text :=
  (after? start input).bind (upTo? (finish - start))

theorem width_pos (c : Char) : 0 < width c := by
  unfold width encodeChar
  simp only
  split
  · exact Nat.one_pos
  · split
    · exact Nat.two_pos
    · split <;> exact Nat.succ_pos _

@[simp] theorem size_nil : size [] = 0 := rfl

@[simp] theorem size_cons (c : Char) (s : Text) : size (c :: s) = width c + size s := by
  simp [size, width, encode]

@[simp] theorem size_append (s t : Text) : size (s ++ t) = size s + size t := by
  simp [size, encode]

theorem size_eq_zero_iff {s : Text} : size s = 0 ↔ s = [] := by
  cases s with
  | nil => simp
  | cons c s =>
    have := width_pos c
    simp
    omega

theorem after?_cons {n : Nat} {c : Char} {s : Text} :
    after? (width c + n) (c :: s) = after? n s := by
  obtain ⟨m, hm⟩ : ∃ m, width c + n = m + 1 :=
    ⟨width c + n - 1, by have := width_pos c; omega⟩
  rw [hm, after?, if_neg (by omega), ← hm, Nat.add_sub_cancel_left]

/-- What is left at a place is what stands after the text that ends there. -/
theorem after?_eq_some_iff {n : Nat} {input s : Text} :
    after? n input = some s ↔ ∃ before, input = before ++ s ∧ size before = n := by
  constructor
  · intro h
    fun_induction after? n input with
    | case1 input =>
      cases h
      exact ⟨[], rfl, rfl⟩
    | case2 => cases h
    | case3 => cases h
    | case4 n c input hwidth ih =>
      obtain ⟨before, rfl, hsize⟩ := ih h
      exact ⟨c :: before, rfl, by rw [size_cons]; omega⟩
  · rintro ⟨before, rfl, rfl⟩
    induction before with
    | nil => exact after?.eq_1 s
    | cons c before ih => rwa [List.cons_append, size_cons, after?_cons]

theorem upTo?_cons {n : Nat} {c : Char} {s : Text} :
    upTo? (width c + n) (c :: s) = (upTo? n s).map (c :: ·) := by
  obtain ⟨m, hm⟩ : ∃ m, width c + n = m + 1 :=
    ⟨width c + n - 1, by have := width_pos c; omega⟩
  rw [hm, upTo?, if_neg (by omega), ← hm, Nat.add_sub_cancel_left]

theorem upTo?_append (s rest : Text) : upTo? (size s) (s ++ rest) = some s := by
  induction s with
  | nil => exact upTo?.eq_1 _
  | cons c s ih => rw [List.cons_append, size_cons, upTo?_cons, ih, Option.map_some]

theorem between?_append (before s rest : Text) :
    between? (size before) (size before + size s) (before ++ (s ++ rest)) = some s := by
  rw [between?, after?_eq_some_iff.2 ⟨before, rfl, rfl⟩, Option.bind_some, Nat.add_sub_cancel_left,
    upTo?_append]

end Utf8

/-! ## Tokens without their texts -/

/-- What a scan can find. -/
inductive TokenKind where
  /-- The end of the input. -/
  | ending
  /-- No token that is looked for. -/
  | illegal
  /-- A run of text. -/
  | run
  /-- `${` -/
  | opening
  /-- `}` -/
  | closing
  /-- `$name` -/
  | reference
  /-- `$$` -/
  | dollars
  deriving DecidableEq, Repr

namespace Token

/-- What a token is. -/
def kind : Token → TokenKind
  | ending => .ending
  | illegal => .illegal
  | run _ => .run
  | opening => .opening
  | closing => .closing
  | reference _ => .reference
  | dollars => .dollars

/-- The text of a token: of a run with its escapes resolved, of a reference its name, and of two
dollars the one that they stand for. -/
def text : Token → Text
  | ending | illegal => []
  | run text => text
  | opening => ['$', '{']
  | closing => ['}']
  | reference name => name
  | dollars => ['$']

end Token

/-! ## The scanner -/

/-- A scanner. -/
structure Scanner where
  /-- The text that is scanned. -/
  input : Text
  /-- The place that scanning has come to. -/
  cursor : Nat
  /-- The place where the token read last starts. -/
  start : Nat
  /-- The text of the token read last, with its escapes resolved. -/
  text : Text
  /-- The kinds of token that are looked for. -/
  kinds : TokenKinds
  /-- What a run may hold. -/
  accept : Acceptance

namespace Scanner

/-- A scanner at the start of an input. -/
def new (input : Text) : Scanner where
  input
  cursor := 0
  start := 0
  text := []
  kinds := { run := true, opening := true, reference := true, dollars := true }
  accept := fun _ _ => true

/-- Sets what is looked for. -/
def configure (scanner : Scanner) (kinds : TokenKinds) (accept : Acceptance) : Scanner :=
  { scanner with kinds, accept }

/-- Steps back over the token read last. -/
def unread (scanner : Scanner) : Scanner := { scanner with cursor := scanner.start }

/-- What is left of the input. Nothing is left if the cursor is at no place of the input. -/
def rest (scanner : Scanner) : Text := (Utf8.after? scanner.cursor scanner.input).getD []

/-- The character at the cursor. -/
def peek (scanner : Scanner) : Option Char := scanner.rest.head?

/-- The character after the one at the cursor. -/
def peekTwo (scanner : Scanner) : Option Char := scanner.rest.tail.head?

/-- Moves on by so many bytes, and adds to the text of the token. -/
def take (scanner : Scanner) (bytes : Nat) (text : Text) : Scanner :=
  { scanner with cursor := scanner.cursor + bytes, text := scanner.text ++ text }

/-- Whether the dollar at the cursor starts a token. -/
def startsToken (scanner : Scanner) : Bool :=
  match scanner.peekTwo with
  | some '{' => scanner.kinds.opening
  | some '$' => scanner.kinds.dollars
  | some c => isNameChar c && scanner.kinds.reference
  | none => false

/-- Whether a run that holds `index` characters already stops before the character at the cursor. -/
def stopsRun (scanner : Scanner) (index : Nat) (c : Char) : Bool :=
  (c == '$' && 0 < index && scanner.startsToken) || !scanner.accept c index

/-- The next character of a run that holds `index` characters already, and the bytes that it is read
from; none where the run stops. -/
def runStep? (scanner : Scanner) (index : Nat) : Option (Char × Nat) :=
  match scanner.peek, scanner.peekTwo with
  | none, _ => none
  | some c, none => if scanner.stopsRun index c then none else some (c, Utf8.width c)
  | some c, some d =>
    if scanner.kinds.escapes && c == '\\' && isEscapable d then
      some (d, Utf8.width c + Utf8.width d)
    else if scanner.stopsRun index c then none
    else some (c, Utf8.width c)

/-! ## Moving on -/

section

variable {scanner : Scanner} {c : Char} {s span text : Text} {index bytes : Nat}

@[simp] theorem take_kinds : (scanner.take bytes text).kinds = scanner.kinds := rfl

@[simp] theorem take_accept : (scanner.take bytes text).accept = scanner.accept := rfl

@[simp] theorem take_nothing (scanner : Scanner) : scanner.take 0 [] = scanner := by
  simp [take]

@[simp] theorem take_take (scanner : Scanner) (bytes bytes' : Nat) (text text' : Text) :
    (scanner.take bytes text).take bytes' text' = scanner.take (bytes + bytes') (text ++ text') := by
  simp [take, Nat.add_assoc]

theorem after?_of_rest (h : scanner.rest = c :: s) :
    Utf8.after? scanner.cursor scanner.input = some (c :: s) := by
  unfold rest at h
  cases hafter : Utf8.after? scanner.cursor scanner.input with
  | none => simp [hafter] at h
  | some t => simpa [hafter] using h

/-- Moving on over a text leaves what stands after it. -/
theorem rest_take (h : scanner.rest = span ++ s) (text : Text) :
    (scanner.take (Utf8.size span) text).rest = s := by
  cases span with
  | nil => exact h
  | cons c span =>
    obtain ⟨before, hinput, hsize⟩ := Utf8.after?_eq_some_iff.1 (after?_of_rest h)
    have hafter : Utf8.after? (scanner.cursor + Utf8.size (c :: span)) scanner.input = some s :=
      Utf8.after?_eq_some_iff.2 ⟨before ++ (c :: span), by simp [hinput], by simp [hsize]⟩
    simp only [rest, take]
    rw [hafter, Option.getD_some]

theorem rest_take_char (h : scanner.rest = c :: s) (text : Text) :
    (scanner.take (Utf8.width c) text).rest = s := by
  have htake := rest_take (show scanner.rest = [c] ++ s from h) text
  rwa [Utf8.size_cons, Utf8.size_nil, Nat.add_zero] at htake

theorem startsToken_eq (h : scanner.rest = '$' :: s) :
    scanner.startsToken = (Token.afterDollar? scanner.kinds s).isSome := by
  unfold startsToken peekTwo
  rw [h, List.tail_cons]
  rcases s with _ | ⟨d, s⟩
  · rfl
  · rw [List.head?_cons]
    by_cases hbrace : d = '{'
    · subst hbrace
      cases hopening : scanner.kinds.opening <;> simp [Token.afterDollar?, hopening]
    · by_cases hdollar : d = '$'
      · subst hdollar
        cases hdollars : scanner.kinds.dollars <;> cases s <;> simp [Token.afterDollar?, hdollars]
      · rw [Token.afterDollar?]
        · cases hname : isNameChar d <;> cases hkind : scanner.kinds.reference <;> simp [hname]
        all_goals simpa

theorem stopsRun_eq (h : scanner.rest = c :: s) :
    scanner.stopsRun index c = Token.stopsRun scanner.kinds scanner.accept index c s := by
  unfold stopsRun Token.stopsRun
  by_cases hdollar : c = '$'
  · subst hdollar
    rw [startsToken_eq h]
  · have hne : (c == '$') = false := beq_eq_false_iff_ne.2 hdollar
    simp only [hne, Bool.false_and]

/-- A run takes a step over some text, or stops, as `Token.scanRun` does. -/
theorem runStep?_cases (scanner : Scanner) (index : Nat) :
    (scanner.runStep? index = none ∧
      Token.scanRun scanner.kinds scanner.accept index scanner.rest = ([], scanner.rest)) ∨
    ∃ span s d, scanner.rest = span ++ s ∧ span ≠ [] ∧
      scanner.runStep? index = some (d, Utf8.size span) ∧
      Token.scanRun scanner.kinds scanner.accept index scanner.rest
        = (d :: (Token.scanRun scanner.kinds scanner.accept (index + 1) s).1,
            (Token.scanRun scanner.kinds scanner.accept (index + 1) s).2) := by
  unfold runStep? peek peekTwo
  rcases hrest : scanner.rest with _ | ⟨c, _ | ⟨d, s⟩⟩
  · exact .inl ⟨rfl, rfl⟩
  · simp only [List.head?_cons, List.tail_cons, List.head?_nil, stopsRun_eq hrest]
    rw [Token.scanRun]
    split
    · exact .inl ⟨rfl, rfl⟩
    · exact .inr ⟨[c], [], c, rfl, List.cons_ne_nil _ _, by simp, rfl⟩
  · simp only [List.head?_cons, List.tail_cons, stopsRun_eq hrest]
    rw [Token.scanRun]
    split
    · exact .inr ⟨[c, d], s, d, rfl, List.cons_ne_nil _ _, by simp, rfl⟩
    · split
      · exact .inl ⟨rfl, rfl⟩
      · exact .inr ⟨[c], d :: s, c, rfl, List.cons_ne_nil _ _, by simp, rfl⟩

theorem length_rest_runStep? {d : Char} (h : scanner.runStep? index = some (d, bytes))
    (text : Text) : (scanner.take bytes text).rest.length < scanner.rest.length := by
  rcases scanner.runStep?_cases index with ⟨hnone, -⟩ | ⟨span, s, e, hrest, hne, hsome, -⟩
  · rw [hnone] at h
    cases h
  · rw [hsome] at h
    cases h
    rw [rest_take hrest text, hrest, List.length_append]
    have := List.length_pos_iff.2 hne
    omega

theorem length_rest_take_char (h : scanner.rest = c :: s) (text : Text) :
    (scanner.take (Utf8.width c) text).rest.length < scanner.rest.length := by
  rw [rest_take_char h text, h]
  exact Nat.lt_succ_self _

end

/-! ## Scanning -/

/-- Reads on a name. -/
def readName (scanner : Scanner) : Scanner :=
  match _hrest : scanner.rest with
  | [] => scanner
  | c :: _ => if isNameChar c then readName (scanner.take (Utf8.width c) [c]) else scanner
termination_by scanner.rest.length
decreasing_by exact length_rest_take_char _hrest [c]

/-- Reads on a run that holds `index` characters already, and says how many it holds then. -/
def readRun (index : Nat) (scanner : Scanner) : Nat × Scanner :=
  match hstep : scanner.runStep? index with
  | none => (index, scanner)
  | some (c, bytes) => readRun (index + 1) (scanner.take bytes [c])
termination_by scanner.rest.length
decreasing_by exact length_rest_runStep? hstep [c]

/-- The run at the cursor. The cursor stays where it is if the run is empty. -/
def scanText (scanner : Scanner) : TokenKind × Scanner :=
  if scanner.kinds.run then
    match scanner.readRun 0 with
    | (0, last) => (.illegal, { last with cursor := last.start })
    | (_, last) => (.run, last)
  else (.illegal, scanner)

/-- Starts a token at the cursor. -/
def fresh (scanner : Scanner) : Scanner := { scanner with start := scanner.cursor, text := [] }

/-- The token that the dollar at the cursor starts, and the scanner after it. -/
def scanDollar? (scanner : Scanner) : Option (TokenKind × Scanner) :=
  let next := scanner.peekTwo
  if scanner.kinds.opening ∧ next = some '{' then some (.opening, scanner.take 2 ['$', '{'])
  else if scanner.kinds.dollars ∧ next = some '$' then
    -- the second dollar stays where it starts an expansion of its own
    let third := scanner.rest.tail.tail.head?
    some (.dollars, scanner.take (if third = some '{' ∨ third.any isNameChar then 1 else 2) ['$'])
  else if scanner.kinds.reference ∧ next.any isNameChar then
    some (.reference, (scanner.take 1 []).readName)
  else none

/-- The token at the cursor, and the scanner after it. -/
def scan (scanner : Scanner) : TokenKind × Scanner :=
  let scanner := scanner.fresh
  match scanner.rest with
  | [] => (.ending, scanner)
  | c :: _ =>
    match if c = '$' then scanner.scanDollar? else none with
    | some found => found
    | none =>
      if c = '}' ∧ scanner.kinds.closing then (.closing, scanner.take 1 ['}'])
      else scanner.scanText

/-! ## A scan finds the tokens of the rest -/

@[simp] theorem fresh_rest (scanner : Scanner) : scanner.fresh.rest = scanner.rest := rfl

@[simp] theorem fresh_kinds (scanner : Scanner) : scanner.fresh.kinds = scanner.kinds := rfl

@[simp] theorem fresh_accept (scanner : Scanner) : scanner.fresh.accept = scanner.accept := rfl

theorem readName_eq (scanner : Scanner) :
    scanner.readName
      = scanner.take (Utf8.size (scanner.rest.takeWhile isNameChar))
          (scanner.rest.takeWhile isNameChar) := by
  fun_induction readName scanner with
  | case1 scanner hrest => simp [hrest]
  | case2 scanner c s hrest hname ih =>
    rw [ih, rest_take_char hrest, hrest, List.takeWhile_cons_of_pos hname, take_take,
      Utf8.size_cons, List.singleton_append]
  | case3 scanner c s hrest hname => simp [hrest, hname]

/-- A run is read as `Token.scanRun` reads it. -/
theorem readRun_eq (scanner : Scanner) (index : Nat) :
    ∃ span, scanner.rest
        = span ++ (Token.scanRun scanner.kinds scanner.accept index scanner.rest).2 ∧
      scanner.readRun index
        = (index + (Token.scanRun scanner.kinds scanner.accept index scanner.rest).1.length,
            scanner.take (Utf8.size span)
              (Token.scanRun scanner.kinds scanner.accept index scanner.rest).1) := by
  fun_induction readRun index scanner with
  | case1 index scanner hnone =>
    rcases scanner.runStep?_cases index with ⟨-, hrun⟩ | ⟨span, s, e, -, -, hsome, -⟩
    · exact ⟨[], by simp [hrun], by simp [hrun]⟩
    · rw [hnone] at hsome
      cases hsome
  | case2 index scanner c bytes hsome ih =>
    rcases scanner.runStep?_cases index with ⟨hnone, -⟩ | ⟨span, s, e, hrest, -, hsome', hrun⟩
    · rw [hnone] at hsome
      cases hsome
    · rw [hsome'] at hsome
      cases hsome
      obtain ⟨more, hmore, hread⟩ := ih
      rw [rest_take hrest, take_kinds, take_accept] at hmore hread
      refine ⟨span ++ more, ?_, ?_⟩
      · rw [hrun, List.append_assoc, ← hmore, hrest]
      · rw [hread, hrun, take_take, Utf8.size_append, List.length_cons, List.singleton_append]
        simp [Nat.add_assoc, Nat.add_comm]

/-- The token that a scan finds in a text, and the scanner after it. -/
def Finds (scanner : Scanner) (found : Token × Text) (result : TokenKind × Scanner) : Prop :=
  ∃ span, scanner.rest = span ++ found.2 ∧
    result = (found.1.kind, scanner.take (Utf8.size span) found.1.text)

theorem scanText_finds {scanner : Scanner} (hstart : scanner.start = scanner.cursor) :
    scanner.Finds (Token.scanText scanner.kinds scanner.accept scanner.rest) scanner.scanText := by
  unfold Token.scanText scanText
  split
  · obtain ⟨span, hspan, hread⟩ := scanner.readRun_eq 0
    rw [hread]
    rcases hrun : Token.scanRun scanner.kinds scanner.accept 0 scanner.rest with ⟨_ | ⟨c, text⟩, rest⟩
    · refine ⟨[], rfl, ?_⟩
      simp [Token.kind, Token.text, take, hstart]
    · rw [hrun] at hspan
      exact ⟨span, hspan, by simp [Token.kind, Token.text]⟩
  · exact ⟨[], rfl, by simp [Token.kind, Token.text]⟩

/-- What the dollar at the cursor starts is found as `Token.afterDollar?` finds it. -/
theorem scanDollar?_finds {scanner : Scanner} {s : Text} (hrest : scanner.rest = '$' :: s) :
    (Token.afterDollar? scanner.kinds s = none ∧ scanner.scanDollar? = none) ∨
      ∃ found result, Token.afterDollar? scanner.kinds s = some found ∧
        scanner.scanDollar? = some result ∧ scanner.Finds found result := by
  have hdollar : Utf8.width '$' = 1 := rfl
  have hbrace : Utf8.width '{' = 1 := rfl
  have hdollarName : isNameChar '$' = false := by decide
  have hbraceName : isNameChar '{' = false := by decide
  unfold scanDollar? peekTwo
  simp only [hrest]
  rcases s with _ | ⟨c, s⟩
  · exact .inl ⟨rfl, by simp⟩
  · simp only [List.tail_cons, List.head?_cons, Option.some.injEq, Option.any_some]
    by_cases hc : c = '{'
    · subst hc
      cases hopening : scanner.kinds.opening with
      | false => exact .inl ⟨by simp [Token.afterDollar?, hopening], by simp [hbraceName]⟩
      | true =>
        refine .inr ⟨(.opening, s), _, by simp [Token.afterDollar?, hopening], by simp; rfl,
          ['$', '{'], hrest, ?_⟩
        simp [Token.kind, Token.text, hdollar, hbrace]
    · by_cases hc' : c = '$'
      · subst hc'
        cases hdollars : scanner.kinds.dollars with
        | false => exact .inl ⟨by simp [Token.afterDollar?, hdollars], by simp [hdollarName]⟩
        | true =>
          rcases s with _ | ⟨d, s⟩
          · refine .inr ⟨(.dollars, []), _, by simp [Token.afterDollar?, hdollars], by simp; rfl,
              ['$', '$'], hrest, ?_⟩
            simp [Token.kind, Token.text, hdollar]
          · by_cases hd : d = '{' ∨ isNameChar d = true
            · refine .inr ⟨(.dollars, '$' :: d :: s), _, ?_, by simp; rfl, ['$'], hrest, ?_⟩
              · simp only [Token.afterDollar?, hdollars, if_true]
                rw [if_pos (by simpa using hd)]
              · simp [Token.kind, Token.text, hdollar, hd]
            · refine .inr ⟨(.dollars, d :: s), _, ?_, by simp; rfl, ['$', '$'], hrest, ?_⟩
              · simpa [Token.afterDollar?, hdollars] using hd
              · simp [Token.kind, Token.text, hdollar, hd]
      · have hafter : Token.afterDollar? scanner.kinds (c :: s) =
            if scanner.kinds.reference && isNameChar c then
              some (.reference (c :: s.takeWhile isNameChar), s.dropWhile isNameChar)
            else none := by
          rw [Token.afterDollar?]
          all_goals simpa
        rw [hafter]
        by_cases hname : scanner.kinds.reference = true ∧ isNameChar c = true
        · refine .inr ⟨(.reference (c :: s.takeWhile isNameChar), s.dropWhile isNameChar), _,
            by simp [hname], by simp [hc, hc', hname]; rfl, '$' :: c :: s.takeWhile isNameChar,
            ?_, ?_⟩
          · simp [hrest]
          · have htake : (scanner.take 1 []).rest = c :: s := rest_take_char hrest []
            rw [readName_eq, htake, List.takeWhile_cons_of_pos hname.2]
            simp [Token.kind, Token.text, hdollar]
        · exact .inl ⟨by simpa using hname, by simp [hc, hc', hname]⟩

/-- **A scan finds the token that the rest starts with.** -/
theorem scan_finds (scanner : Scanner) :
    scanner.fresh.Finds (Token.scan scanner.kinds scanner.accept scanner.rest) scanner.scan := by
  have htext := scanText_finds (rfl : scanner.fresh.start = scanner.fresh.cursor)
  simp only [fresh_rest, fresh_kinds, fresh_accept] at htext
  unfold scan
  rcases hrest : scanner.rest with _ | ⟨c, s⟩
  · exact ⟨[], hrest, by simp [hrest, Token.scan, Token.kind, Token.text]⟩
  · rw [hrest] at htext
    simp only [fresh_rest, fresh_kinds, hrest]
    by_cases hc : c = '$'
    · subst hc
      rw [Token.scan, if_pos rfl]
      rcases scanDollar?_finds (show scanner.fresh.rest = _ from hrest) with
        ⟨hnone, hnone'⟩ | ⟨found, result, hsome, hsome', hfinds⟩
      · rw [fresh_kinds] at hnone
        rw [hnone, hnone', Option.getD_none]
        simpa using htext
      · rw [fresh_kinds] at hsome
        rw [hsome, hsome', Option.getD_some]
        exact hfinds
    · rw [if_neg hc]
      by_cases hc' : c = '}'
      · subst hc'
        rw [Token.scan]
        by_cases hclosing : scanner.kinds.closing = true
        · exact ⟨['}'], by simp [hrest, hclosing], by simp [hclosing, Token.kind, Token.text]; rfl⟩
        · simpa [hclosing] using htext
      · rw [Token.scan]
        · simpa [hc'] using htext
        all_goals simp [hc, hc']

theorem kind_scan (scanner : Scanner) :
    scanner.scan.1 = (Token.scan scanner.kinds scanner.accept scanner.rest).1.kind := by
  obtain ⟨span, -, hresult⟩ := scanner.scan_finds
  rw [hresult]

theorem rest_scan (scanner : Scanner) :
    scanner.scan.2.rest = (Token.scan scanner.kinds scanner.accept scanner.rest).2 := by
  obtain ⟨span, hrest, hresult⟩ := scanner.scan_finds
  rw [hresult]
  exact rest_take hrest _

/-- Stepping back after a scan undoes it. -/
theorem rest_unread_scan (scanner : Scanner) : scanner.scan.2.unread.rest = scanner.rest := by
  obtain ⟨span, -, hresult⟩ := scanner.scan_finds
  rw [hresult]
  rfl

theorem length_rest_scan_lt {scanner next : Scanner} {kind : TokenKind}
    (h : scanner.scan = (kind, next)) (he : kind ≠ .ending) (hi : kind ≠ .illegal) :
    next.rest.length < scanner.rest.length := by
  have hkind := scanner.kind_scan
  have hrest := scanner.rest_scan
  rcases hscan : Token.scan scanner.kinds scanner.accept scanner.rest with ⟨token, rest⟩
  rw [h, hscan] at hkind hrest
  rw [hrest]
  refine Token.length_scan_lt hscan ?_ ?_
  · rintro rfl
    exact he hkind
  · rintro rfl
    exact hi hkind

theorem length_rest_scan_le {scanner next : Scanner} {kind : TokenKind}
    (h : scanner.scan = (kind, next)) : next.rest.length ≤ scanner.rest.length := by
  obtain ⟨span, hrest, -⟩ := scanner.scan_finds
  have hlength := congrArg List.length hrest
  rw [← scanner.rest_scan, h, List.length_append, fresh_rest] at hlength
  exact hlength ▸ Nat.le_add_left _ _

end Scanner

end ShellExpansion
