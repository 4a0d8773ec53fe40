import ShellExpansion.Unicode.Alphabetic
import ShellExpansion.Unicode.Numeric
import ShellExpansion.Unicode.DecimalDigit
import ShellExpansion.Unicode.WordMark
import ShellExpansion.Unicode.WhiteSpace
import ShellExpansion.Unicode.Cased
import ShellExpansion.Unicode.CaseIgnorable
import ShellExpansion.Unicode.GraphemeExtend
import ShellExpansion.Unicode.Unprintable

/-!
# Classes of characters

The questions that the rest of the library asks about a character, each answered from the table of
a Unicode property. The classes that decide how a template is read answer for ASCII without a
table.
-/

namespace ShellExpansion.Unicode

/-- Letters and numbers of every script. -/
def isAlphanumeric (c : Char) : Bool :=
  if c.toNat < 128 then c.isAlphanum
  else alphabetic.contains c.toNat || numeric.contains c.toNat

/-- Decimal digits of every script. -/
def isDecimalDigit (c : Char) : Bool :=
  if c.toNat < 128 then c.isDigit else decimalDigit.contains c.toNat

/-- What words are made of: letters, digits, marks, connecting punctuation and join controls. -/
def isWordChar (c : Char) : Bool :=
  if c.toNat < 128 then c.isAlphanum || c == '_'
  else alphabetic.contains c.toNat || decimalDigit.contains c.toNat || wordMark.contains c.toNat

/-- White space of every script. -/
def isWhiteSpace (c : Char) : Bool := whiteSpace.contains c.toNat

/-- Letters that have a case. -/
def isCased (c : Char) : Bool := cased.contains c.toNat

/-- Characters that the case of a word's letters looks past. -/
def isCaseIgnorable (c : Char) : Bool := caseIgnorable.contains c.toNat

/-- Characters drawn on the one before them. -/
def isGraphemeExtender (c : Char) : Bool := graphemeExtend.contains c.toNat

/-- Characters that can be shown as they are. -/
def isPrintable (c : Char) : Bool := !unprintable.contains c.toNat

end ShellExpansion.Unicode
