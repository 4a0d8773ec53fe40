import ShellExpansion.Text
import ShellExpansion.Unicode.Classes

/-!
# Whole numbers in text

Signed decimal numbers of 64 bits, as the offset and the length of a slice are written, and the
decimal digits of a count.
-/

namespace ShellExpansion.Integer

open Unicode

/-- A text without the white space at both ends. -/
def trim (s : Text) : Text :=
  ((s.dropWhile isWhiteSpace).reverse.dropWhile isWhiteSpace).reverse

/-- The number that decimal digits write, after the digits that gave `high`. -/
def digitsFrom? (high : Nat) : Text → Option Nat
  | [] => some high
  | c :: s => if c.isDigit then digitsFrom? (high * 10 + (c.toNat - '0'.toNat)) s else none

/-- A natural number: one digit at least, and nothing but digits. -/
def natural? : Text → Option Nat
  | [] => none
  | c :: s => digitsFrom? 0 (c :: s)

/-- A number with an optional sign. -/
def signed? : Text → Option Int
  | '-' :: s => (natural? s).map fun n => -(n : Int)
  | '+' :: s => (natural? s).map fun n => (n : Int)
  | s => (natural? s).map fun n => (n : Int)

/-- Whether a number fits in 64 bits with a sign. -/
def fits64 (n : Int) : Bool := Int64.minValue.toInt ≤ n && n ≤ Int64.maxValue.toInt

/-- A number of 64 bits with a sign; one that does not fit is none. -/
def int64? (s : Text) : Option Int64 := ((signed? s).filter fits64).map Int64.ofInt

/-- The decimal digits of a number. -/
def decimal (n : Nat) : Text := Nat.toDigits 10 n

end ShellExpansion.Integer
