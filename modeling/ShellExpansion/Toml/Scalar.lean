import ShellExpansion.Toml.Document

/-!
# TOML values without parts

Strings, numbers, booleans, dates and times, as they are written.
-/

namespace ShellExpansion.Toml

/-! ## Strings -/

/-- Control characters that no string and no comment may hold. -/
def isForbidden (c : Char) : Bool := (c.toNat < 32 && c != '\t') || c.toNat == 127

/-- The value of a hexadecimal digit. -/
def hexValue? (c : Char) : Option Nat :=
  if c.isDigit then some (c.toNat - '0'.toNat)
  else if 'a' ≤ c && c ≤ 'f' then some (c.toNat - 'a'.toNat + 10)
  else if 'A' ≤ c && c ≤ 'F' then some (c.toNat - 'A'.toNat + 10)
  else none

/-- The character with a code point in hexadecimal digits. -/
def charOfHex? (digits : Text) : Option Char := do
  let values ← digits.mapM hexValue?
  let n := values.foldl (fun high d => high * 16 + d) 0
  if n.isValidChar then some (Char.ofNat n) else none

/-- What an escape of one character stands for. -/
def simpleEscape? : Char → Option Char
  | 'b' => some '\x08'
  | 't' => some '\t'
  | 'n' => some '\n'
  | 'f' => some '\x0c'
  | 'r' => some '\r'
  | 'e' => some '\x1b'
  | '"' => some '"'
  | '\\' => some '\\'
  | _ => none

/-- How many hexadecimal digits an escape takes. -/
def hexDigits? : Char → Option Nat
  | 'x' => some 2
  | 'u' => some 4
  | 'U' => some 8
  | _ => none

/-- Puts a character before the value of a string that has been read. -/
def push (c : Char) : Option (Text × Text) → Option (Text × Text) :=
  Option.map fun (value, rest) => (c :: value, rest)

/-- The rest of a string between double quotes. `skip` characters belong to an escape that has been
read already. -/
def basicString : Nat → Text → Option (Text × Text)
  | _, [] => none
  | skip + 1, _ :: s => basicString skip s
  | 0, '"' :: s => some ([], s)
  | 0, '\\' :: c :: s =>
    match simpleEscape? c, hexDigits? c with
    | some e, _ => push e (basicString 0 s)
    | none, some n =>
      if (s.take n).length = n then
        match charOfHex? (s.take n) with
        | some e => push e (basicString n s)
        | none => none
      else none
    | none, none => none
  | 0, c :: s => if isForbidden c then none else push c (basicString 0 s)

/-- The rest of a string between single quotes. -/
def literalString : Text → Option (Text × Text)
  | [] => none
  | '\'' :: s => some ([], s)
  | c :: s => if isForbidden c then none else push c (literalString s)

/-- The quotes that end a long string: three, and up to two before them that belong to it. -/
def closingQuotes? (quote : Char) (s : Text) : Option (Text × Text) :=
  let quotes := (s.takeWhile (· == quote)).length
  if 3 ≤ quotes then some (List.replicate (min quotes 5 - 3) quote, s.drop (min quotes 5)) else none

/-- A line end at the start of a text. -/
def lineEnd? : Text → Option Text
  | '\n' :: s => some s
  | '\r' :: '\n' :: s => some s
  | _ => none

/-- Whether a character is space between tokens. -/
def isBlank (c : Char) : Bool := c == ' ' || c == '\t'

/-- How many characters a backslash at the end of a line takes: the line end, and all space and line
ends after it. -/
def continuation? (s : Text) : Option Nat :=
  if (lineEnd? (s.dropWhile isBlank)).isSome then
    some (s.takeWhile fun c => isBlank c || c == '\n' || c == '\r').length
  else none

/-- The rest of a long string between double quotes. -/
def longBasicString : Nat → Text → Option (Text × Text)
  | _, [] => none
  | skip + 1, _ :: s => longBasicString skip s
  | 0, c :: s =>
    match closingQuotes? '"' (c :: s) with
    | some found => some found
    | none =>
      if c = '\\' then
        match continuation? s with
        | some n => longBasicString n s
        | none =>
          match s with
          | [] => none
          | d :: t =>
            match simpleEscape? d, hexDigits? d with
            | some e, _ => push e (longBasicString 1 (d :: t))
            | none, some n =>
              if (t.take n).length = n then
                match charOfHex? (t.take n) with
                | some e => push e (longBasicString (n + 1) (d :: t))
                | none => none
              else none
            | none, none => none
      else if c = '\n' || (c = '\r' && s.head? = some '\n') || !isForbidden c then
        push c (longBasicString 0 s)
      else none

/-- The rest of a long string between single quotes. -/
def longLiteralString : Text → Option (Text × Text)
  | [] => none
  | c :: s =>
    match closingQuotes? '\'' (c :: s) with
    | some found => some found
    | none =>
      if c = '\n' || (c = '\r' && s.head? = some '\n') || !isForbidden c then
        push c (longLiteralString s)
      else none

/-- A text without the line end that it starts with. -/
def dropLineEnd (s : Text) : Text := (lineEnd? s).getD s

/-- A string of any kind. -/
def string? : Text → Option (Text × Text)
  | '"' :: '"' :: '"' :: s => longBasicString 0 (dropLineEnd s)
  | '\'' :: '\'' :: '\'' :: s => longLiteralString (dropLineEnd s)
  | '"' :: s => basicString 0 s
  | '\'' :: s => literalString s
  | _ => none

/-! ## Numbers -/

/-- Digits with single underscores between them, less the underscores. -/
def digits? (isDigit : Char → Bool) : Text → Option Text
  | [] => none
  | [c] => if isDigit c then some [c] else none
  | c :: '_' :: s => if isDigit c then (digits? isDigit s).map (c :: ·) else none
  | c :: s => if isDigit c then (digits? isDigit s).map (c :: ·) else none

/-- The number that digits write to a base. -/
def numberOf (base : Nat) (digits : Text) : Nat :=
  digits.foldl (fun high c => high * base + (hexValue? c).getD 0) 0

/-- A text without a sign, and whether the sign was a minus. -/
def sign : Text → Bool × Text
  | '-' :: s => (true, s)
  | '+' :: s => (false, s)
  | s => (false, s)

/-- A decimal number without a sign: no zero stands before another digit. -/
def decimal? (s : Text) : Option Nat := do
  let ds ← digits? Char.isDigit s
  if ds.head? = some '0' && 1 < ds.length then none else some (numberOf 10 ds)

/-- A whole number. -/
def integer? (s : Text) : Option Int :=
  match s with
  | '0' :: 'x' :: t => (digits? (fun c => (hexValue? c).isSome) t).map fun ds => (numberOf 16 ds : Int)
  | '0' :: 'o' :: t => (digits? (fun c => '0' ≤ c && c ≤ '7') t).map fun ds => (numberOf 8 ds : Int)
  | '0' :: 'b' :: t => (digits? (fun c => c == '0' || c == '1') t).map fun ds => (numberOf 2 ds : Int)
  | s =>
    (decimal? (sign s).2).map fun n => if (sign s).1 then -(n : Int) else (n : Int)

/-- The exponent of a number, sign included. -/
def isExponent (s : Text) : Bool := (digits? Char.isDigit (sign s).2).isSome

/-- A number with a fraction or an exponent, or one that is infinite or no number. -/
def isFloat (s : Text) : Bool :=
  let body := (sign s).2
  if body = "inf".toList || body = "nan".toList then true
  else
    let isMark := fun c => c == 'e' || c == 'E'
    let mantissa := body.takeWhile fun c => !isMark c
    let exponent := body.dropWhile fun c => !isMark c
    let whole := mantissa.takeWhile (· != '.')
    let fraction := mantissa.dropWhile (· != '.')
    (decimal? whole).isSome
      && (fraction.isEmpty || (digits? Char.isDigit fraction.tail).isSome)
      && (exponent.isEmpty || isExponent exponent.tail)
      && !(fraction.isEmpty && exponent.isEmpty)

/-! ## Dates and times -/

/-- A number in exactly so many digits. -/
def fixed? (count : Nat) (s : Text) : Option (Nat × Text) :=
  let ds := s.take count
  if ds.length = count && ds.all Char.isDigit then some (numberOf 10 ds, s.drop count) else none

/-- A text after a character that it has to start with. -/
def expect? (c : Char) : Text → Option Text
  | [] => none
  | d :: s => if d = c then some s else none

/-- The number of days in a month. -/
def daysIn (year month : Nat) : Nat :=
  if month = 2 then
    if year % 4 = 0 && (year % 100 != 0 || year % 400 = 0) then 29 else 28
  else if month = 4 || month = 6 || month = 9 || month = 11 then 30
  else 31

/-- What follows a date. -/
def afterDate? (s : Text) : Option Text := do
  let (year, s) ← fixed? 4 s
  let (month, s) ← fixed? 2 (← expect? '-' s)
  let (day, s) ← fixed? 2 (← expect? '-' s)
  if 1 ≤ month && month ≤ 12 && 1 ≤ day && day ≤ daysIn year month then some s else none

/-- What follows the fraction of a second. -/
def afterFraction? : Text → Option Text
  | '.' :: s => if (s.takeWhile Char.isDigit).isEmpty then none else some (s.dropWhile Char.isDigit)
  | s => some s

/-- What follows a time; seconds may be missing. -/
def afterTime? (s : Text) : Option Text := do
  let (hour, s) ← fixed? 2 s
  let (minute, s) ← fixed? 2 (← expect? ':' s)
  if 23 < hour || 59 < minute then none
  match s with
  | ':' :: s =>
    let (second, s) ← fixed? 2 s
    if 60 < second then none else afterFraction? s
  | s => return s

/-- Whether a text is the offset of a time from universal time, or nothing. -/
def isOffset : Text → Bool
  | [] => true
  | ['Z'] => true
  | ['z'] => true
  | c :: s =>
    (c == '+' || c == '-') &&
      match fixed? 2 s with
      | none => false
      | some (hour, s) =>
        match (expect? ':' s).bind (fixed? 2) with
        | some (minute, []) => hour ≤ 23 && minute ≤ 59
        | _ => false

/-- A date, a time, or both with or without an offset. -/
def isDateTime (s : Text) : Bool :=
  match afterDate? s with
  | some [] => true
  | some (c :: t) =>
    (c == 'T' || c == 't' || c == ' ') && (afterTime? t).any isOffset
  | none => afterTime? s = some []

/-! ## Words -/

/-- The characters of numbers, dates and booleans. -/
def isWordChar (c : Char) : Bool :=
  c.isAlphanum || c == '_' || c == '+' || c == '-' || c == '.' || c == ':'

/-- The word at the start of a text; a space between a date and a time belongs to it. -/
def word (s : Text) : Text × Text :=
  let first := s.takeWhile isWordChar
  let rest := s.dropWhile isWordChar
  match rest with
  | ' ' :: t =>
    if afterDate? first = some [] && (fixed? 2 t).isSome then
      (first ++ ' ' :: t.takeWhile isWordChar, t.dropWhile isWordChar)
    else (first, rest)
  | _ => (first, rest)

/-- Whether a whole number can be held in 128 bits. -/
def fits128 (n : Int) : Bool :=
  -0x80000000000000000000000000000000 ≤ n && n ≤ 0xFFFFFFFFFFFFFFFFFFFFFFFFFFFFFFFF

/-- The value of a word. -/
def wordValue? (w : Text) : Option Scalar :=
  if w = "true".toList then some (.boolean true)
  else if w = "false".toList then some (.boolean false)
  else
    match integer? w with
    | some n => if fits128 n then some (.integer n) else none
    | none => if isFloat w then some (.float w) else if isDateTime w then some (.dateTime w) else none

/-- A value without parts. -/
def scalar? (s : Text) : Option (Scalar × Text) :=
  match s with
  | '"' :: _ | '\'' :: _ => (string? s).map fun (value, rest) => (.string value, rest)
  | _ => (wordValue? (word s).1).map fun value => (value, (word s).2)

end ShellExpansion.Toml
