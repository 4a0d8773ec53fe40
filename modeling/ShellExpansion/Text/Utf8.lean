import ShellExpansion.Text

/-!
# UTF-8

Bytes to text and back. Bytes need not be well formed: `decodeHead` splits off either a character or
the longest part that could have begun one. `decode?` insists that there are characters only, and
`repair` puts U+FFFD for every other part.
-/

namespace ShellExpansion.Utf8

/-- A string of bytes. -/
abbrev Bytes := List UInt8

/-! ## Encoding -/

/-- The bytes of a character. -/
def encodeChar (c : Char) : Bytes :=
  let n := c.toNat
  if n < 0x80 then [.ofNat n]
  else if n < 0x800 then [.ofNat (0xC0 + n / 0x40), .ofNat (0x80 + n % 0x40)]
  else if n < 0x10000 then
    [.ofNat (0xE0 + n / 0x1000), .ofNat (0x80 + n / 0x40 % 0x40), .ofNat (0x80 + n % 0x40)]
  else
    [.ofNat (0xF0 + n / 0x40000), .ofNat (0x80 + n / 0x1000 % 0x40),
      .ofNat (0x80 + n / 0x40 % 0x40), .ofNat (0x80 + n % 0x40)]

/-- The bytes of a text. -/
def encode (s : Text) : Bytes := s.flatMap encodeChar

/-- How many bytes a text takes. -/
def size (s : Text) : Nat := (encode s).length

/-! ## Decoding -/

/-- Whether a byte lies in a range; a missing byte lies in none. -/
def within (low high : Nat) : Bytes → Bool
  | [] => false
  | b :: _ => low ≤ b.toNat && b.toNat ≤ high

/-- The six bits that a byte adds to a code point. -/
def low6 (b : UInt8) : Nat := b.toNat % 0x40

/-- The last byte of a character whose earlier bytes gave `high`. -/
def decodeLast (high : Nat) : Bytes → Option Char × Bytes
  | [] => (none, [])
  | b :: s => if within 0x80 0xBF (b :: s) then (some (.ofNat (high * 0x40 + low6 b)), s) else (none, b :: s)

/-- The last two bytes of a character, the first of them in the given range. -/
def decodeLastTwo (low high : Nat) (lead : Nat) : Bytes → Option Char × Bytes
  | [] => (none, [])
  | b :: s => if within low high (b :: s) then decodeLast (lead * 0x40 + low6 b) s else (none, b :: s)

/-- The last three bytes of a character, the first of them in the given range. -/
def decodeLastThree (low high : Nat) (lead : Nat) : Bytes → Option Char × Bytes
  | [] => (none, [])
  | b :: s =>
    if within low high (b :: s) then decodeLastTwo 0x80 0xBF (lead * 0x40 + low6 b) s
    else (none, b :: s)

/-- The character that starts with byte `b`, or none where the bytes are ill formed, and what is
left after the character or after the longest part that could have begun one. -/
def decodeHead (b : UInt8) (s : Bytes) : Option Char × Bytes :=
  let n := b.toNat
  if n < 0x80 then (some (.ofNat n), s)
  else if n < 0xC2 then (none, s)
  else if n < 0xE0 then decodeLast (n - 0xC0) s
  else if n = 0xE0 then decodeLastTwo 0xA0 0xBF 0 s
  else if n = 0xED then decodeLastTwo 0x80 0x9F 0xD s
  else if n < 0xF0 then decodeLastTwo 0x80 0xBF (n - 0xE0) s
  else if n = 0xF0 then decodeLastThree 0x90 0xBF 0 s
  else if n < 0xF4 then decodeLastThree 0x80 0xBF (n - 0xF0) s
  else if n = 0xF4 then decodeLastThree 0x80 0x8F 4 s
  else (none, s)

theorem length_decodeLast (high : Nat) (s : Bytes) : (decodeLast high s).2.length ≤ s.length := by
  unfold decodeLast; split
  · simp
  · split <;> simp

theorem length_decodeLastTwo (low high lead : Nat) (s : Bytes) :
    (decodeLastTwo low high lead s).2.length ≤ s.length := by
  unfold decodeLastTwo; split
  · simp
  · split
    · exact Nat.le_succ_of_le (length_decodeLast _ _)
    · simp

theorem length_decodeLastThree (low high lead : Nat) (s : Bytes) :
    (decodeLastThree low high lead s).2.length ≤ s.length := by
  unfold decodeLastThree; split
  · simp
  · split
    · exact Nat.le_succ_of_le (length_decodeLastTwo _ _ _ _)
    · simp

theorem length_decodeHead (b : UInt8) (s : Bytes) : (decodeHead b s).2.length ≤ s.length := by
  have three := length_decodeLastThree
  have two := length_decodeLastTwo
  have one := length_decodeLast
  grind [decodeHead]

/-- The parts of a string of bytes: characters, and none for every ill-formed part. -/
def parts : Bytes → List (Option Char)
  | [] => []
  | b :: s =>
    (decodeHead b s).1 :: parts (decodeHead b s).2
termination_by s => s.length
decreasing_by exact Nat.lt_succ_of_le (length_decodeHead b s)

/-- The text that well-formed bytes encode. -/
def decode? (s : Bytes) : Option Text := (parts s).mapM id

/-- The text of any bytes, with U+FFFD for each ill-formed part. -/
def repair (s : Bytes) : Text := (parts s).map (·.getD '\uFFFD')

end ShellExpansion.Utf8
