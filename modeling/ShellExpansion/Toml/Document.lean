import ShellExpansion.Text

/-!
# TOML documents

A document is a table: keys with items. Where a table came from decides what may still be added to
it: a header names a table once, dotted keys extend only tables that dotted keys made, and a table
written inline is closed.
-/

namespace ShellExpansion.Toml

/-- A value without parts. -/
inductive Scalar where
  | string (value : Text)
  | integer (value : Int)
  | float (digits : Text)
  | boolean (value : Bool)
  | dateTime (written : Text)
  deriving DecidableEq, Repr

/-- Where a table came from. -/
inductive Origin where
  /-- A header of its own, or the document. -/
  | header
  /-- The header of a table inside it. -/
  | implied
  /-- A dotted key. -/
  | dotted
  deriving DecidableEq, Repr

/-- What stands under a key. -/
inductive Item where
  | scalar (value : Scalar)
  | array (items : List Item)
  | inlineTable (entries : List (Text × Item))
  | table (origin : Origin) (entries : List (Text × Item))
  /-- Tables under one header in double brackets, the latest first. -/
  | tables (entries : List (List (Text × Item)))

/-- The keys of a table, with their items. -/
abbrev Entries := List (Text × Item)

/-- Puts an item under a key that is there already. -/
def Entries.replace (entries : Entries) (key : Text) (item : Item) : Entries :=
  entries.map fun entry => if entry.1 = key then (key, item) else entry

/-- Adds an item under a key that must be new. -/
def Entries.add? (entries : Entries) (key : Text) (item : Item) : Option Entries :=
  if (entries.lookup key).isSome then none else some (entries ++ [(key, item)])

/-- Changes the table at the end of a path. Missing tables on the way are made, with the given
origin; a dotted key does not enter a table that has a header. -/
def modify (made : Origin) (edit : Origin → Entries → Option (Origin × Entries)) :
    List Text → Origin → Entries → Option (Origin × Entries)
  | [], origin, entries => edit origin entries
  | key :: path, origin, entries =>
    match entries.lookup key with
    | none => do
      let (origin', entries') ← modify made edit path made []
      return (origin, entries ++ [(key, .table origin' entries')])
    | some (.table origin' entries') => do
      if made = .dotted && origin' = .header then none
      let (origin', entries') ← modify made edit path origin' entries'
      return (origin, Entries.replace entries key (.table origin' entries'))
    | some (.tables (latest :: earlier)) => do
      let (_, latest') ← modify made edit path .header latest
      return (origin, Entries.replace entries key (.tables (latest' :: earlier)))
    | some _ => none

/-- Adds an item under a dotted key, whose parts before the last are the path. -/
def insert? (path : List Text) (key : Text) (item : Item) (origin : Origin) (entries : Entries) :
    Option (Origin × Entries) :=
  modify .dotted
    (fun origin entries =>
      if (origin == .dotted) == path.isEmpty then none
      else (Entries.add? entries key item).map fun entries => (origin, entries))
    path origin entries

/-- Opens the table that a header names. -/
def openTable? (path : List Text) (key : Text) (entries : Entries) : Option Entries :=
  (modify .implied
    (fun origin entries =>
      match entries.lookup key with
      | none => some (origin, entries ++ [(key, .table .header [])])
      | some (.table .implied inner) =>
        some (origin, Entries.replace entries key (.table .header inner))
      | some _ => none)
    path .header entries).map Prod.snd

/-- Adds a table to those that a header in double brackets names. -/
def appendTable? (path : List Text) (key : Text) (entries : Entries) : Option Entries :=
  (modify .implied
    (fun origin entries =>
      match entries.lookup key with
      | none => some (origin, entries ++ [(key, .tables [[]])])
      | some (.tables earlier) => some (origin, Entries.replace entries key (.tables ([] :: earlier)))
      | some _ => none)
    path .header entries).map Prod.snd

/-- Adds an item under a dotted key of the table that was opened last. -/
def insertIn? (current path : List Text) (key : Text) (item : Item) (entries : Entries) :
    Option Entries :=
  (modify .implied (insert? path key item) current .header entries).map Prod.snd

end ShellExpansion.Toml
