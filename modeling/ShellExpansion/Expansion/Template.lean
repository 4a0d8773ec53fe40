import ShellExpansion.Expansion.Evaluate
import ShellExpansion.Template.Parser

/-!
# From text to text

Reading a template and expanding it, in one go or apart: a template that has been read can be
expanded any number of times, and every time starts without assigned values.
-/

namespace ShellExpansion.Template

variable [Engine] {σ : Type}

/-- Reads a template; the error remembers the text. -/
def read (limit : Nat) (input : Text) : Except ExpansionError Node :=
  (parse limit input).mapError fun fault => .parse fault.error input

/-- Expands a template for a caller in the given state. -/
def execute (mapping : Mapping σ) (root : Node) (caller : σ) : Outcome σ Text :=
  root.expand mapping { caller }

/-- Reads a template and expands it. -/
def evaluateWith (limit : Nat) (mapping : Mapping σ) (input : Text) (caller : σ) :
    Outcome σ Text :=
  match read limit input with
  | .error e => (.error e, { caller })
  | .ok root => execute mapping root caller

/-- The mapping of a caller without a state. -/
def pureMapping (values : Text → Option Text) : Mapping Unit :=
  .standard fun name caller => (values name, caller)

/-- Expands a text with the values that a function gives to variables. -/
def evaluate (values : Text → Option Text) (input : Text) : Except ExpansionError Text :=
  (evaluateWith defaultLimit (pureMapping values) input ()).1

end ShellExpansion.Template
