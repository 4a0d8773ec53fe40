/-!
# Text

Templates, values, patterns and messages are all text: lists of characters. A reader takes a text
and leaves the part it has not read, so what it has read is the difference of the two.
-/

namespace ShellExpansion

/-- A text, character by character. -/
abbrev Text := List Char

/-- What has been read of `start` once `rest` is left. -/
def Text.read (start rest : Text) : Text := start.take (start.length - rest.length)

theorem Text.read_append (consumed rest : Text) : Text.read (consumed ++ rest) rest = consumed := by
  simp [Text.read]

end ShellExpansion
