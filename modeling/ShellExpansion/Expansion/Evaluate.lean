import ShellExpansion.Expansion.Apply
import ShellExpansion.Template.Node

/-!
# Expanding a template

A template is expanded node by node, from left to right. The words of an expansion are expanded
first, all of them, whether they will be used or not; then the operator is applied.

Where values come from is up to the caller, who has a state of any type. In standard mode the caller
is asked for the value of a variable when the words are known, unless the variable was assigned
before. In advanced mode the caller is consulted about every expansion before its words are looked
at, and may take its place.
-/

namespace ShellExpansion

/-- What the caller is told about an expansion. -/
structure Request where
  /-- The name of the variable. -/
  name : Text
  /-- The text of the expansion. -/
  source : Text
  /-- The operator, if there is one. -/
  operator : Option Operator
  /-- The number of expansions around it. -/
  nesting : Nat
  /-- The number of words. -/
  words : Nat
  deriving DecidableEq, Repr

/-- What the caller decides about an expansion. -/
inductive Decision where
  /-- This text takes its place. -/
  | stop (text : Text)
  /-- It is expanded, with this value for its variable. -/
  | proceed (value : Option Text)
  deriving DecidableEq, Repr

/-- Where values come from, for a caller with states of type `σ`. -/
inductive Mapping (σ : Type) where
  /-- Values are asked for after the words. -/
  | standard (resolve : Text → σ → Option Text × σ)
  /-- Every expansion is decided on before its words. -/
  | advanced (decide : Request → σ → Decision × σ)

/-- Something that happened during a run. -/
inductive Event where
  /-- An expansion was replaced by the text that the caller gave. -/
  | verbatim (source text : Text)
  /-- An expansion got its value. -/
  | expanded (source value : Text)
  /-- A pattern was tried. -/
  | tried (trial : PatternTrial)
  deriving DecidableEq, Repr

/-- The state of a run. -/
structure Run (σ : Type) where
  /-- The state of the caller. -/
  caller : σ
  /-- The values assigned so far, the latest first. -/
  assigned : List (Text × Text) := []
  /-- What has happened so far, the latest first. -/
  events : List Event := []

/-- What becomes of a run: a value or an error, and the state in either case. -/
abbrev Outcome (σ α : Type) := Except ExpansionError α × Run σ

namespace Run

variable {σ : Type}

/-- Notes an event. -/
def note (run : Run σ) (event : Event) : Run σ := { run with events := event :: run.events }

/-- Notes the patterns that were tried. -/
def noteTrials (run : Run σ) (trials : List PatternTrial) : Run σ :=
  { run with events := (trials.map Event.tried).reverse ++ run.events }

/-- Gives a variable a value for the rest of the run. -/
def assign (run : Run σ) (name value : Text) : Run σ :=
  { run with assigned := (name, value) :: run.assigned }

/-- The value that a variable was assigned. -/
def assigned? (run : Run σ) (name : Text) : Option Text := run.assigned.lookup name

/-- What is decided before the words of an expansion are looked at. In standard mode the caller is
not consulted, and the expansion proceeds without a value. -/
def consult (mapping : Mapping σ) (request : Request) (run : Run σ) : Decision × Run σ :=
  match mapping with
  | .standard _ => (.proceed none, run)
  | .advanced decide =>
    let (decision, caller) := decide request run.caller
    (decision, { run with caller })

/-- The value of a variable once the words are known. An assigned value comes before everything
else; the caller is asked in standard mode only, and in advanced mode has given it before. -/
def valueOf (mapping : Mapping σ) (name : Text) (given : Option Text) (run : Run σ) :
    Option Text × Run σ :=
  match run.assigned? name with
  | some value => (some value, run)
  | none =>
    match mapping with
    | .standard resolve =>
      let (value, caller) := resolve name run.caller
      (value, { run with caller })
    | .advanced _ => (given, run)

/-- Finishes an expansion whose words are known. -/
def finish [Engine] (mapping : Mapping σ) (name : Text) (op : Option Operator) (source : Text)
    (given : Option Text) (words : List Text) (run : Run σ) : Outcome σ Text :=
  let (value, run) := run.valueOf mapping name given
  match op with
  | none => (.ok (value.getD []), run.note (.expanded source (value.getD [])))
  | some op =>
    let applied := op.apply name value words
    let run := run.noteTrials applied.trials
    match applied.result with
    | .error e => (.error e, run)
    | .ok result =>
      let run := if op.assigns value then run.assign name result else run
      (.ok result, run.note (.expanded source result))

end Run

namespace Node

variable [Engine] {σ : Type}

mutual

/-- Expands a node. -/
def expand (mapping : Mapping σ) : Node → Run σ → Outcome σ Text
  | text value, run => (.ok value, run)
  | sequence nodes, run =>
    match expandAll mapping nodes run with
    | (.error e, run) => (.error e, run)
    | (.ok values, run) => (.ok values.flatten, run)
  | expansion name op words nesting source, run =>
    match run.consult mapping ⟨name, source, op, nesting, words.length⟩ with
    | (.stop replacement, run) => (.ok replacement, run.note (.verbatim source replacement))
    | (.proceed given, run) =>
      match expandAll mapping words run with
      | (.error e, run) => (.error e, run)
      | (.ok values, run) => run.finish mapping name op source given values

/-- Expands nodes from left to right, up to the first that fails. -/
def expandAll (mapping : Mapping σ) : List Node → Run σ → Outcome σ (List Text)
  | [], run => (.ok [], run)
  | node :: nodes, run =>
    match expand mapping node run with
    | (.error e, run) => (.error e, run)
    | (.ok value, run) =>
      match expandAll mapping nodes run with
      | (.error e, run) => (.error e, run)
      | (.ok values, run) => (.ok (value :: values), run)

end

end Node

end ShellExpansion
