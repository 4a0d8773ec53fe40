import ShellExpansion.Toml.Scalar

/-!
# Reading TOML documents

A document is read line by line. Values may hold values; every step of reading them takes from a
budget that is larger than the text, and arrays and tables inside one another have a limit.
-/

namespace ShellExpansion.Toml

/-- A text without the blanks at its start. -/
def dropBlanks (s : Text) : Text := s.dropWhile isBlank

/-! ## Comments and line ends -/

/-- What follows a comment, if one is there. -/
def afterComment? : Text → Option Text
  | '#' :: s =>
    let comment := s.takeWhile fun c => c != '\n' && c != '\r'
    if comment.any isForbidden then none else some (s.drop comment.length)
  | s => some s

/-- What follows the rest of a line that holds nothing but blanks and a comment. -/
def finishLine? (s : Text) : Option Text := do
  let s ← afterComment? (dropBlanks s)
  match s with
  | [] => some []
  | s => lineEnd? s

/-- What follows blanks, comments and line ends. -/
def dropFiller? : Nat → Text → Option Text
  | 0, _ => none
  | budget + 1, s =>
    match dropBlanks s with
    | '#' :: t => do
      let rest ← afterComment? ('#' :: t)
      match rest with
      | [] => return []
      | rest => dropFiller? budget (← lineEnd? rest)
    | rest =>
      match lineEnd? rest with
      | some t => dropFiller? budget t
      | none => some rest

/-! ## Keys -/

/-- Whether a character may stand in a key without quotes. -/
def isBareKeyChar (c : Char) : Bool := c.isAlphanum || c == '_' || c == '-'

/-- A part of a key. -/
def keyPart? (s : Text) : Option (Text × Text) :=
  match s with
  | '"' :: t => basicString 0 t
  | '\'' :: t => literalString t
  | _ =>
    match s.takeWhile isBareKeyChar with
    | [] => none
    | part => some (part, s.dropWhile isBareKeyChar)

/-- The parts of a key after its first, and what follows the key. -/
def keyParts? : Nat → Text → Option (List Text × Text)
  | 0, _ => none
  | budget + 1, s =>
    match dropBlanks s with
    | '.' :: t => do
      let (part, t) ← keyPart? (dropBlanks t)
      let (parts, rest) ← keyParts? budget t
      return (part :: parts, rest)
    | rest => some ([], rest)

/-- A key: the parts before the last, the last, and what follows the key and the blanks after it. -/
def key? (s : Text) : Option (List Text × Text × Text) := do
  let (first, s) ← keyPart? (dropBlanks s)
  let (parts, rest) ← keyParts? (s.length + 1) s
  return ((first :: parts).dropLast, (first :: parts).getLast?.getD first, rest)

/-! ## Values -/

/-- How many arrays and tables may stand inside one another. -/
def nestingLimit : Nat := 80

mutual

/-- A value. -/
def value? : Nat → Nat → Text → Option (Item × Text)
  | 0, _, _ => none
  | budget + 1, depth, '[' :: s => do
    if depth = 0 then none
    let (items, rest) ← items? budget (depth - 1) s
    return (.array items, rest)
  | budget + 1, depth, '{' :: s => do
    if depth = 0 then none
    let (entries, rest) ← entries? budget (depth - 1) [] s
    return (.inlineTable entries, rest)
  | _ + 1, _, s => (scalar? s).map fun (value, rest) => (.scalar value, rest)

/-- The items of an array and its closing bracket. -/
def items? : Nat → Nat → Text → Option (List Item × Text)
  | 0, _, _ => none
  | budget + 1, depth, s => do
    match ← dropFiller? (s.length + 1) s with
    | ']' :: rest => return ([], rest)
    | s =>
      let (item, s) ← value? budget depth s
      match ← dropFiller? (s.length + 1) s with
      | ',' :: s =>
        let (items, rest) ← items? budget depth s
        return (item :: items, rest)
      | ']' :: rest => return ([item], rest)
      | _ => none

/-- The entries of an inline table after those that have been read, and its closing brace. -/
def entries? : Nat → Nat → Entries → Text → Option (Entries × Text)
  | 0, _, _, _ => none
  | budget + 1, depth, entries, s => do
    match ← dropFiller? (s.length + 1) s with
    | '}' :: rest => return (entries, rest)
    | s =>
      let (path, key, s) ← key? s
      let (item, s) ← value? budget depth (dropBlanks (← expect? '=' s))
      let (_, entries) ← insert? path key item .header entries
      match ← dropFiller? (s.length + 1) s with
      | ',' :: s => entries? budget depth entries s
      | '}' :: rest => return (entries, rest)
      | _ => none

end

/-! ## Documents -/

/-- What follows the key of a header: the closing brackets, and the rest of the line. -/
def finishHeader? (double : Bool) (s : Text) : Option Text := do
  let s ← expect? ']' s
  finishLine? (← if double then expect? ']' s else some s)

/-- The lines of a document, given the path of the table that was opened last and what has been read
so far. -/
def lines? : Nat → List Text → Entries → Text → Option Entries
  | 0, _, _, _ => none
  | budget + 1, current, entries, s => do
    match ← dropFiller? (s.length + 1) s with
    | [] => return entries
    | '[' :: '[' :: s =>
      let (path, key, s) ← key? s
      let rest ← finishHeader? true s
      lines? budget (path ++ [key]) (← appendTable? path key entries) rest
    | '[' :: s =>
      let (path, key, s) ← key? s
      let rest ← finishHeader? false s
      lines? budget (path ++ [key]) (← openTable? path key entries) rest
    | s =>
      let (path, key, s) ← key? s
      let s := dropBlanks (← expect? '=' s)
      let (item, s) ← value? (2 * s.length + 2) nestingLimit s
      let rest ← finishLine? s
      lines? budget current (← insertIn? current path key item entries) rest

/-- A document without a byte order mark. -/
def dropMark : Text → Text
  | '\uFEFF' :: s => s
  | s => s

/-- The keys and items of a document. -/
def document? (s : Text) : Option Entries := lines? (s.length + 1) [] [] (dropMark s)

end ShellExpansion.Toml
