import ShellExpansion.Text.Integer

/-!
# Slices of a value

`${v:offset}` and `${v:offset:length}`, counted in characters. A negative offset counts from the
end; a negative length is an end counted from the end. An index that is not a number of 64 bits
leaves the value as it is, but a start before the value empties it before the length is looked at.

All places are numbers of 64 bits, so that a sum has to stay inside them. A number of one sign plus
a size does; the sum of a start and a length is held at the greatest number.
-/

namespace ShellExpansion.Slice

/-- An index as it is written: white space around it does not count, and nothing counts as zero. -/
def index? (s : Text) : Option Int64 :=
  match Integer.trim s with
  | [] => some 0
  | digits => Integer.int64? digits

/-- The smaller of two places. -/
def earlier (a b : Int64) : Int64 := if a ≤ b then a else b

/-- The sum of two numbers, or the bound nearest to it. -/
def addHeld (a b : Int64) : Int64 := Int64.ofIntClamp (a.toInt + b.toInt)

/-- Where a slice with the given offset starts in a value of `size` characters. -/
def start (size offset : Int64) : Int64 := if offset < 0 then offset + size else earlier offset size

/-- Where a slice with the given length ends. -/
def finish (size start length : Int64) : Int64 :=
  if length < 0 then length + size else earlier (addHeld start length) size

/-- The characters of a value from one place up to another. -/
def between (value : Text) (first last : Int64) : Text :=
  if last ≤ first then []
  else (value.drop first.toNatClampNeg).take (last - first).toNatClampNeg

/-- The slice of a value with the offset and the length as they are written. -/
def slice (value offset : Text) (length : Option Text) : Text :=
  match index? offset with
  | none => value
  | some offset =>
    let size := Int64.ofNat value.length
    let first := start size offset
    if first < 0 then []
    else
      match length with
      | none => between value first size
      | some length =>
        match index? length with
        | none => value
        | some length => between value first (finish size first length)

end ShellExpansion.Slice
