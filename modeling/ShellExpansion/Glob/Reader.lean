import ShellExpansion.Glob.Pattern

/-!
# Reading patterns

Every text is a pattern. A `[` that does not begin a complete bracket expression stands for itself,
and so does a backslash at the end.
-/

namespace ShellExpansion.Glob

/-! ## Bracket expressions -/

/-- A character of a bracket expression: any but the closing bracket, or any after a backslash. -/
def readEndpoint? : Text → Option (Endpoint × Text)
  | '\\' :: c :: s => some (⟨true, c⟩, s)
  | ']' :: _ => none
  | c :: s => some (⟨false, c⟩, s)
  | [] => none

/-- A named class. -/
def readClass? (s : Text) : Option (ClassName × Text) :=
  ClassName.all.findSome? fun cls =>
    if cls.spelling.isPrefixOf s then some (cls, s.drop cls.spelling.length) else none

/-- A member: a class if one is there, else a range, else a character. -/
def readMember? (s : Text) : Option (Member × Text) :=
  match readClass? s with
  | some (cls, rest) => some (.named cls, rest)
  | none =>
    match readEndpoint? s with
    | none => none
    | some (first, '-' :: rest) =>
      match readEndpoint? rest with
      | some (last, rest') => some (.range first last, rest')
      | none => some (.single first, '-' :: rest)
    | some (first, rest) => some (.single first, rest)

theorem length_readEndpoint?_lt {s rest : Text} {e : Endpoint}
    (h : readEndpoint? s = some (e, rest)) : rest.length < s.length := by
  unfold readEndpoint? at h
  split at h <;> cases h <;> rw [List.length_cons] <;> grind

theorem length_readClass?_lt {s rest : Text} {cls : ClassName}
    (h : readClass? s = some (cls, rest)) : rest.length < s.length := by
  unfold readClass? at h
  obtain ⟨cls', -, hcls⟩ := List.exists_of_findSome?_eq_some h
  split at hcls
  · rename_i hpre
    cases hcls
    have hle := (List.isPrefixOf_iff_prefix.1 hpre).length_le
    have hpos : 0 < cls.spelling.length := by simp [ClassName.spelling]
    rw [List.length_drop]
    omega
  · cases hcls

theorem length_readMember?_lt {s rest : Text} {m : Member}
    (h : readMember? s = some (m, rest)) : rest.length < s.length := by
  unfold readMember? at h
  split at h
  · rename_i hc; cases h; exact length_readClass?_lt hc
  · split at h
    · cases h
    · rename_i hfirst
      have h1 := length_readEndpoint?_lt hfirst
      split at h
      · rename_i hlast
        have h2 := length_readEndpoint?_lt hlast
        cases h
        simp at h1
        omega
      · cases h; exact h1
    · rename_i hfirst; cases h; exact length_readEndpoint?_lt hfirst

/-- As many members as there are, and what is left. -/
def readMembers (s : Text) : List Member × Text :=
  match h : readMember? s with
  | none => ([], s)
  | some (m, rest) =>
    have := length_readMember?_lt h
    let (members, rest') := readMembers rest
    (m :: members, rest')
termination_by s.length

/-- Whether a bracket expression is inverted, and its text past the sign. -/
def readInversion : Text → Bool × Text
  | '!' :: s => (true, s)
  | '^' :: s => (true, s)
  | s => (false, s)

/-- The bracket expression whose opening bracket stands before the text. -/
def readBracket? (s : Text) : Option (Piece × Text) :=
  let (inverted, body) := readInversion s
  match readMembers body with
  | (m :: members, ']' :: rest) => some (.bracket inverted (m :: members), rest)
  | _ => none

theorem length_readMembers_le (s : Text) : (readMembers s).2.length ≤ s.length := by
  fun_induction readMembers s with
  | case1 => simp
  | case2 s m rest h hlt members rest' heq ih =>
    simp only [heq] at ih
    exact Nat.le_trans ih (Nat.le_of_lt hlt)

theorem length_readInversion_le (s : Text) : (readInversion s).2.length ≤ s.length := by
  unfold readInversion; split <;> simp

theorem length_readBracket?_lt {s rest : Text} {p : Piece}
    (h : readBracket? s = some (p, rest)) : rest.length < s.length := by
  unfold readBracket? at h
  simp only at h
  split at h
  · rename_i m members rest' heq
    cases h
    have h1 := length_readMembers_le (readInversion s).2
    have h2 := length_readInversion_le s
    rw [heq] at h1
    simp at h1
    omega
  · cases h

/-! ## Patterns -/

/-- The pieces of a pattern. -/
def read : Text → List Piece
  | [] => []
  | '\\' :: c :: s => .literal c :: read s
  | '?' :: s => .any :: read s
  | '*' :: s => .many :: read s
  | '[' :: s =>
    match h : readBracket? s with
    | some (piece, rest) =>
      have := length_readBracket?_lt h
      piece :: read rest
    | none => .literal '[' :: read s
  | c :: s => .literal c :: read s
termination_by s => s.length

/-- The regular expression of a pattern, anchored at the start or at the end if asked for. -/
def regex (atStart atEnd : Bool) (pattern : Text) : Text :=
  (if atStart then ['^'] else []) ++ (read pattern).flatMap Piece.regex
    ++ (if atEnd then ['$'] else [])

end ShellExpansion.Glob
