import ShellExpansion.Template.Node
import ShellExpansion.Text.Integer
import ShellExpansion.Text.Quoted

/-!
# Trees in messages

The long form of a tree, as it is written to the log: every node with its kind and all its fields,
texts in quotes.
-/

namespace ShellExpansion

/-- The name of a test. -/
def MissingTest.label : MissingTest → String
  | .unset => "Unset"
  | .unsetOrEmpty => "UnsetOrNull"

/-- The name of a place. -/
def MatchPlace.label : MatchPlace → String
  | .start => "Prefix"
  | .finish => "Suffix"
  | .first => "FirstOccurrence"
  | .everywhere => "Anywhere"

namespace Operator

/-- The name of an operator's family. -/
def label : Operator → String
  | length => "Length"
  | lowerFirst => "LowercaseFirst"
  | lowerAll => "LowercaseAll"
  | upperFirst => "UppercaseFirst"
  | upperAll => "UppercaseAll"
  | slice => "Substring"
  | trim .start .shortest => "RemoveSmallestPrefix"
  | trim .start .longest => "RemoveLargestPrefix"
  | trim .finish .shortest => "RemoveSmallestSuffix"
  | trim .finish .longest => "RemoveLargestSuffix"
  | replace _ => "Replace"
  | default _ => "UseDefaultValues"
  | assign _ => "AssignDefaultValues"
  | require _ => "IndicateErrorIfNullOrUnset"
  | alternative _ => "UseAlternativeValue"

/-- The name of the operator within its family, if the family has several. -/
def variant? : Operator → Option String
  | replace place => some place.label
  | default test | assign test | require test | alternative test => some test.label
  | _ => none

/-- An operator with its variant in parentheses. -/
def display (op : Operator) : Text :=
  match op.variant? with
  | none => op.label.toList
  | some variant => op.label.toList ++ ['('] ++ variant.toList ++ [')']

end Operator

namespace Node

/-- An operator that may be absent. -/
def displayOperator : Option Operator → Text
  | none => "None".toList
  | some op => "Some(".toList ++ op.display ++ [')']

mutual

/-- The long form of a node. -/
def display : Node → Text
  | text value => "Text(".toList ++ Quoted.quote value ++ [')']
  | expansion parameter op words nesting source =>
    "Function(FunctionNode \x7b parameter: ".toList ++ Quoted.quote parameter
      ++ ", operator: ".toList ++ displayOperator op
      ++ ", args: [".toList ++ displayAll words
      ++ "], nesting: ".toList ++ Integer.decimal nesting
      ++ ", source: ".toList ++ Quoted.quote source ++ " \x7d)".toList
  | sequence nodes => "List([".toList ++ displayAll nodes ++ "])".toList

/-- The long forms of several nodes, separated by commas. -/
def displayAll : List Node → Text
  | [] => []
  | [node] => node.display
  | node :: nodes => node.display ++ ", ".toList ++ displayAll nodes

end

end Node

end ShellExpansion
