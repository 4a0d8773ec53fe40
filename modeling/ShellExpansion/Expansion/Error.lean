import ShellExpansion.Template.Fault

/-!
# Why a template has no expansion

What the engine has to say about a regular expression that it refuses, or about a search that it gives
up, is left out.
-/

namespace ShellExpansion

/-- The reasons why the expansion of a text fails. -/
inductive ExpansionError where
  /-- The text is not a template. -/
  | parse (cause : ParseError) (input : Text)
  /-- A variable that has to have a value has none. -/
  | requiredVariable (name detail : Text)
  /-- A pattern that cannot be matched, as a regular expression with its flags and anchors. -/
  | invalidRegex (regex : Text)
  /-- A pattern whose regular expression, with flags and anchors, is of a kind that is not read. -/
  | unsupportedRegex (regex : Text)
  /-- The engine gave up matching a pattern. -/
  | gaveUp
  deriving DecidableEq, Repr

namespace ExpansionError

/-- What is said of a missing value if the template says nothing. -/
def defaultDetail : Text := "parameter null or not set".toList

/-- The wording of an error, up to what the engine has to say about it. -/
def message : ExpansionError → Text
  | parse cause _ => cause.message
  | requiredVariable name detail => name ++ ": ".toList ++ detail
  | invalidRegex regex => "invalid regex '".toList ++ regex ++ ['\'']
  | unsupportedRegex regex => "unsupported regex '".toList ++ regex ++ ['\'']
  | gaveUp => "regex error".toList

end ExpansionError

end ShellExpansion
