import ShellExpansion.Proofs.Glob.Brackets

/-!
# Bracket expressions of letters and digits

A bracket expression is plain if it holds named classes, and characters and ranges of letters and
digits without backslashes.  Plain bracket expressions are unambiguous (`Piece.IsPlain.isUnambiguous`):
no member of them can be taken for an operator of the set expression, and two members never form a
range.
-/

namespace ShellExpansion.Glob

/-- A letter or a digit of ASCII, without a backslash. -/
def Endpoint.IsPlain (e : Endpoint) : Prop := e.escaped = false ∧ e.char.isAlphanum = true

/-- A named class, or letters and digits. -/
def Member.IsPlain : Member → Prop
  | named _ => True
  | range first last => first.IsPlain ∧ last.IsPlain
  | single e => e.IsPlain

/-- A piece that is no bracket expression, or one with plain members. -/
def Piece.IsPlain : Piece → Prop
  | bracket _ members => ∀ m ∈ members, m.IsPlain
  | _ => True

/-- A piece that is no bracket expression, or an unambiguous one. -/
def Piece.IsUnambiguous : Piece → Prop
  | bracket inverted members => Glob.IsUnambiguous inverted members
  | _ => True

theorem Endpoint.IsPlain.token {e : Endpoint} (h : e.IsPlain) : e.token = .plain e.char := by
  have hopen : e.char ≠ '[' := by
    intro hc
    have halnum := h.2
    rw [hc] at halnum
    cases halnum
  simp [Endpoint.token, h.1, hopen]

theorem Endpoint.IsPlain.ne {e : Endpoint} (h : e.IsPlain) {c : Char} (hc : c.isAlphanum = false) :
    e ≠ ⟨false, c⟩ := by
  rintro rfl
  have halnum := h.2
  rw [hc] at halnum
  cases halnum

theorem Endpoint.IsPlain.isLiteral {e : Endpoint} (h : e.IsPlain) : e.IsLiteral := by
  intro hescaped
  rw [h.1] at hescaped
  cases hescaped

theorem Member.IsPlain.isLiteral {m : Member} (h : m.IsPlain) : m.IsLiteral := by
  cases m with
  | named cls => trivial
  | range first last =>
    exact ⟨⟨h.1.isLiteral, h.1.ne (by decide)⟩, h.2.isLiteral, h.2.ne (by decide)⟩
  | single e => exact Endpoint.IsPlain.isLiteral h

/-- A plain member begins with no sign. -/
theorem Member.IsPlain.first?_ne {m : Member} (h : m.IsPlain) {c : Char}
    (hc : c.isAlphanum = false) : m.first? ≠ some ⟨false, c⟩ := by
  intro hfirst
  cases m with
  | named cls => cases hfirst
  | range first last => exact h.1.ne hc (Option.some.inj hfirst)
  | single e => exact Endpoint.IsPlain.ne h hc (Option.some.inj hfirst)

theorem readApart_of_isPlain {members : List Member} (h : ∀ m ∈ members, m.IsPlain) :
    ReadApart members := by
  induction members with
  | nil => trivial
  | cons m members ih =>
    obtain ⟨-, hmembers⟩ := List.forall_mem_cons.1 h
    refine ⟨?_, ih hmembers⟩
    cases m with
    | named cls => exact id
    | range first last => exact id
    | single e =>
      cases members with
      | nil => exact id
      | cons next more =>
        have hnext := (List.forall_mem_cons.1 hmembers).1
        rintro (⟨he, hfirst⟩ | ⟨rfl, -⟩)
        · simp only [operatorSigns, List.mem_cons, List.not_mem_nil, or_false] at he
          rcases he with rfl | rfl | rfl <;> exact hnext.first?_ne (by decide) hfirst
        · exact hnext.first?_ne (by decide) rfl

theorem Piece.IsPlain.isUnambiguous {piece : Piece} (h : piece.IsPlain) : piece.IsUnambiguous := by
  cases piece with
  | literal c => trivial
  | any => trivial
  | many => trivial
  | bracket inverted members =>
    have hwritten : ∀ m ∈ written members, m.IsPlain := fun m hm => h m (List.mem_filter.1 hm).1
    refine ⟨fun m hm => (hwritten m hm).isLiteral, fun _ m hm => ?_, readApart_of_isPlain ?_⟩
    · exact (hwritten m (List.mem_of_mem_head? hm)).first?_ne (by decide)
    · exact fun m hm => hwritten m ((List.dropWhile_sublist _).subset hm)

end ShellExpansion.Glob
