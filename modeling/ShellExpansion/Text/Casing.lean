import ShellExpansion.Text
import ShellExpansion.Unicode.Classes
import ShellExpansion.Unicode.CaseTable

/-!
# Case conversion

Upper and lower case of a text, by the full mappings: one letter may become several (`ß` becomes
`SS`). The only mapping that looks at its surroundings is that of the capital sigma, which has a
form of its own at the end of a word; it does so only where a whole text is put in lower case.
-/

namespace ShellExpansion.Casing

open Unicode

/-- Where the run of letters that holds code point `n` moves it. The runs are sorted. -/
def shifted? : List CaseRun → Nat → Option Nat
  | [], _ => none
  | (first, last, step, amount) :: runs, n =>
    if n < first then none
    else if n ≤ last then
      if (n - first) % step = 0 then some (n + amount).toNat else none
    else shifted? runs n

/-- The mapping of one character: a listed sequence, else a run, else itself. -/
def mapped (sequences : List (Nat × List Nat)) (runs : List CaseRun) (c : Char) : Text :=
  match sequences.lookup c.toNat with
  | some codes => codes.map Char.ofNat
  | none =>
    match shifted? runs c.toNat with
    | some code => [Char.ofNat code]
    | none => [c]

/-- The lower case of a character that stands alone. -/
def lowerChar (c : Char) : Text :=
  if c.toNat < 128 then [c.toLower] else mapped lowerSequences lowerRuns c

/-- The upper case of a character. -/
def upperChar (c : Char) : Text :=
  if c.toNat < 128 then [c.toUpper] else mapped upperSequences upperRuns c

/-! ## The sigma at the end of a word -/

/-- Whether a cased letter comes next, past what case ignores. -/
def casedNext (s : Text) : Bool :=
  match s.dropWhile isCaseIgnorable with
  | [] => false
  | c :: _ => isCased c

/-- Whether a letter ends a word: one comes before it and none after. The text before it is given
backwards. -/
def endsWord (before after : Text) : Bool := casedNext before && !casedNext after

/-! ## Whole texts -/

/-- Lower case of the rest of a text; the part before it is given backwards. -/
def lowerAfter : Text → Text → Text
  | _, [] => []
  | before, c :: s =>
    (if c = 'Σ' then [if endsWord before s then 'ς' else 'σ'] else lowerChar c)
      ++ lowerAfter (c :: before) s

/-- A text in lower case. -/
def lower (s : Text) : Text := lowerAfter [] s

/-- A text in upper case. -/
def upper (s : Text) : Text := s.flatMap upperChar

/-- A text with its first character in lower case. -/
def lowerFirst : Text → Text
  | [] => []
  | c :: s => lowerChar c ++ s

/-- A text with its first character in upper case. -/
def upperFirst : Text → Text
  | [] => []
  | c :: s => upperChar c ++ s

end ShellExpansion.Casing
