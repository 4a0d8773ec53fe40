import ShellExpansion.Text
import ShellExpansion.Unicode.Classes

/-!
# Quoted text

How a text is shown inside a log message: between double quotes, with escapes for what cannot be
shown as it is.
-/

namespace ShellExpansion.Quoted

open Unicode

/-- An escape that gives the code point in hexadecimal digits. -/
def codePoint (c : Char) : Text := "\\u\x7b".toList ++ Nat.toDigits 16 c.toNat ++ ['}']

/-- A character as it is shown between quotes. What is drawn on its neighbour is given by its code
point, like what has no shape. -/
def showChar (c : Char) : Text :=
  if c = '\x00' then ['\\', '0']
  else if c = '\t' then ['\\', 't']
  else if c = '\r' then ['\\', 'r']
  else if c = '\n' then ['\\', 'n']
  else if c = '\\' ∨ c = '"' then ['\\', c]
  else if isGraphemeExtender c then codePoint c
  else if isPrintable c then [c]
  else codePoint c

/-- A text between quotes. -/
def quote (s : Text) : Text := ['"'] ++ s.flatMap showChar ++ ['"']

end ShellExpansion.Quoted
