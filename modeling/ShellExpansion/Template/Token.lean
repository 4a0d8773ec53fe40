import ShellExpansion.Text
import ShellExpansion.Unicode.Classes

/-!
# Tokens of a template

The first token of a text, for any choice of the kinds of token that may be produced and of the
characters that a run of text may hold. Which of them are wanted depends on the place in the
template.

A scan either leaves the text as it is (at its end, and where no token starts) or reads at least one
character: `Token.length_scan_lt`.
-/

namespace ShellExpansion

/-- The characters of a variable's name. -/
def isNameChar (c : Char) : Bool := Unicode.isAlphanumeric c || c == '_'

/-- The characters that a backslash turns into plain text inside a run. -/
def isEscapable (c : Char) : Bool :=
  c == '\\' || c == '/' || c == '}' || c == '$' || c == ':'

/-- The kinds of token that a scan may produce. -/
structure TokenKinds where
  /-- Runs of text. -/
  run : Bool := false
  /-- `${` -/
  opening : Bool := false
  /-- `}` -/
  closing : Bool := false
  /-- `$name` -/
  reference : Bool := false
  /-- `$$` -/
  dollars : Bool := false
  /-- Backslash escapes inside runs. -/
  escapes : Bool := false

/-- A token. -/
inductive Token where
  /-- The text is at its end. -/
  | ending
  /-- No token of the wanted kinds starts here. -/
  | illegal
  /-- A run of text, with its escapes resolved. -/
  | run (text : Text)
  /-- `${` -/
  | opening
  /-- `}` -/
  | closing
  /-- `$name` -/
  | reference (name : Text)
  /-- `$$`, which stands for one dollar. -/
  | dollars
  deriving DecidableEq, Repr

/-- Which characters may stand in a run, by the character and by the number of characters that the
run holds already. -/
abbrev Acceptance := Char → Nat → Bool

namespace Token

/-- The token that a dollar starts, given the text after it, and what follows the token. The second
dollar of a pair is left in the text where it starts an expansion of its own. -/
def afterDollar? (kinds : TokenKinds) : Text → Option (Token × Text)
  | [] => none
  | '{' :: s => if kinds.opening then some (opening, s) else none
  | '$' :: s =>
    if kinds.dollars then
      match s with
      | [] => some (dollars, [])
      | c :: t => some (dollars, if c = '{' || isNameChar c then '$' :: c :: t else c :: t)
    else none
  | c :: s =>
    if kinds.reference && isNameChar c then
      some (reference (c :: s.takeWhile isNameChar), s.dropWhile isNameChar)
    else none

/-- Whether a run stops before character `c`, which is not escaped: at a dollar that starts a token,
unless it is the run's first character, and at what the run does not accept. -/
def stopsRun (kinds : TokenKinds) (accept : Acceptance) (index : Nat) (c : Char) (s : Text) : Bool :=
  (c == '$' && 0 < index && (afterDollar? kinds s).isSome) || !accept c index

/-- Reads a run of text that holds `index` characters already: what it adds, and what is left. -/
def scanRun (kinds : TokenKinds) (accept : Acceptance) : Nat → Text → Text × Text
  | _, [] => ([], [])
  | index, [c] => if stopsRun kinds accept index c [] then ([], [c]) else ([c], [])
  | index, c :: d :: s =>
    if kinds.escapes && c == '\\' && isEscapable d then
      let (text, rest) := scanRun kinds accept (index + 1) s
      (d :: text, rest)
    else if stopsRun kinds accept index c (d :: s) then ([], c :: d :: s)
    else
      let (text, rest) := scanRun kinds accept (index + 1) (d :: s)
      (c :: text, rest)

/-- The run that starts a text, if it has a character. -/
def scanText (kinds : TokenKinds) (accept : Acceptance) (s : Text) : Token × Text :=
  if kinds.run then
    match scanRun kinds accept 0 s with
    | ([], _) => (illegal, s)
    | (text, rest) => (run text, rest)
  else (illegal, s)

/-- The first token of a text, and what is left after it. -/
def scan (kinds : TokenKinds) (accept : Acceptance) : Text → Token × Text
  | [] => (ending, [])
  | '$' :: s => (afterDollar? kinds s).getD (scanText kinds accept ('$' :: s))
  | '}' :: s => if kinds.closing then (closing, s) else scanText kinds accept ('}' :: s)
  | s => scanText kinds accept s

/-! ## A scan makes progress -/

theorem length_dropWhile_le (p : Char → Bool) (s : Text) : (s.dropWhile p).length ≤ s.length :=
  (List.dropWhile_suffix p).length_le

theorem length_afterDollar?_lt {kinds : TokenKinds} {s rest : Text} {token : Token}
    (h : afterDollar? kinds s = some (token, rest)) : rest.length ≤ s.length := by
  unfold afterDollar? at h
  split at h
  · cases h
  · split at h <;> simp_all
  · rename_i t
    split at h
    · split at h
      · simp_all
      · simp only [Option.some.injEq, Prod.mk.injEq] at h
        obtain ⟨-, rfl⟩ := h
        split <;> simp
    · cases h
  · rename_i c t _ _
    split at h
    · simp only [Option.some.injEq, Prod.mk.injEq] at h
      obtain ⟨-, rfl⟩ := h
      exact Nat.le_succ_of_le (length_dropWhile_le _ _)
    · cases h

theorem length_scanRun_le (kinds : TokenKinds) (accept : Acceptance) (index : Nat) (s : Text) :
    (scanRun kinds accept index s).1.length + (scanRun kinds accept index s).2.length ≤ s.length := by
  fun_induction scanRun kinds accept index s <;> simp_all <;> omega

theorem length_scanText_lt {kinds : TokenKinds} {accept : Acceptance} {s rest : Text} {token : Token}
    (h : scanText kinds accept s = (token, rest)) (hi : token ≠ illegal) :
    rest.length < s.length := by
  unfold scanText at h
  split at h
  · have hle := length_scanRun_le kinds accept 0 s
    split at h
    · cases h; exact absurd rfl hi
    · rename_i text rest' hne heq
      cases h
      rw [heq] at hle
      cases text with
      | nil => exact (hne rfl).elim
      | cons c t => simp at hle; omega
  · cases h; exact absurd rfl hi

/-- A token that is neither the end nor illegal is read from at least one character. -/
theorem length_scan_lt {kinds : TokenKinds} {accept : Acceptance} {s rest : Text} {token : Token}
    (h : scan kinds accept s = (token, rest)) (he : token ≠ ending) (hi : token ≠ illegal) :
    rest.length < s.length := by
  unfold scan at h
  split at h
  · cases h; exact absurd rfl he
  · rename_i t
    cases hd : afterDollar? kinds t with
    | none => rw [hd] at h; exact length_scanText_lt h hi
    | some found =>
      obtain ⟨token', rest'⟩ := found
      rw [hd] at h
      cases h
      exact Nat.lt_succ_of_le (length_afterDollar?_lt hd)
  · split at h
    · cases h; simp
    · exact length_scanText_lt h hi
  · exact length_scanText_lt h hi

end Token

end ShellExpansion
