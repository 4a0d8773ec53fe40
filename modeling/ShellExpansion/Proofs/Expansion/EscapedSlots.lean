import ShellExpansion.Proofs.Expansion.Alone
import ShellExpansion.Proofs.Template.Escaping

/-!
# Every text can be written in every slot

With a backslash before each of its escapable characters (`escaping escapable w`) a text can be put
into any slot of an expansion.  Nothing of it ends the slot, starts an expansion or makes the
operator in front of it longer, so the slot stands for the text again.

* `head?_ne_of_escaping` : the backslashes do not bring another character to the front.
* `braced_word`, `braced_pattern`, `braced_replacement`, `braced_offset`, `braced_slice` : one
  derivation for each layout.
* `evaluate_default_escaped` : a missing value is replaced by the text.
* `escaped_slots` : **every text can be written in every slot.**
-/

namespace ShellExpansion

open Grammar

/-- A character other than a backslash is at the front only if it is at the front of the text. -/
theorem head?_ne_of_escaping {marked : List Char} {c : Char} {w : Text} (hc : c ≠ '\\')
    (hw : w.head? ≠ some c) : (escaping marked w).head? ≠ some c := by
  intro hhead
  obtain ⟨s, hs⟩ := List.head?_eq_some_iff.1 hhead
  rcases escaping_eq_cons hs with ⟨w', rfl, -⟩ | ⟨d, w', rfl, -⟩
  · exact hw rfl
  · exact hc rfl

namespace Template

variable {limit depth : Nat} {name : Text} {op : Operator}

/-- `${name…}` with an operator and what stands in its slots. -/
def applying (name : Text) (op : Operator) (slots : Text) : Text :=
  '$' :: '{' :: name ++ op.spelling ++ slots ++ ['}']

/-- With these slots the operator has these texts for words: alone the expansion is a template, and
wherever it stands within the limit it ends at its brace, whatever follows. -/
structure ReadsAs (limit : Nat) (name : Text) (op : Operator) (slots : Text) (words : List Text) :
    Prop where
  /-- Alone it is a template. -/
  alone : parse limit (applying name op slots)
    = .ok (.expansion name (some op) (words.map .text) 0 (applying name op slots))
  /-- Inside other expansions, and in front of any text, it ends at the same brace. -/
  inside : ∀ depth, depth ≤ limit → Parser.ReadsBraced limit depth (applying name op slots)
    (.expansion name (some op) (words.map .text) depth (applying name op slots))

theorem ReadsAs.of_braced {slots : Text} {words : List Text}
    (h : ∀ depth, Braced limit depth (applying name op slots)
      (.expansion name (some op) (words.map .text) depth (applying name op slots))) :
    ReadsAs limit name op slots words where
  alone := (h 0).parse_eq
  inside depth hdepth := (h depth).reads hdepth

/-! ## One derivation for each layout -/

/-- The slot of an operator with one word.  The sign of a trim must not be doubled by the text. -/
theorem braced_word (hname : IsName name) (hop : op ∈ wordOperators) {w : Text}
    (hshort : ∀ side, op = .trim side .shortest → w.head? ≠ some side.mark) (depth : Nat) :
    Braced limit depth (applying name op (escaping escapable w))
      (.expansion name (some op) ([w].map .text) depth
        (applying name op (escaping escapable w))) := by
  have hslot : Items limit .word (depth + 1) (escaping escapable w) ['}'] _ :=
    items_escaping_escapable (by decide) w
  have hlongest : IsLongest wordOperators op (escaping escapable w ++ ['}']) := by
    refine isLongest_word_iff.2 ⟨hop, fun side hside => ?_⟩
    by_cases hne : escaping escapable w = []
    · rw [hne]
      cases side <;> decide
    · rw [List.head?_append_of_ne_nil _ hne]
      exact head?_ne_of_escaping (by cases side <;> decide) (hshort side hside)
  have hbraced := Braced.word hname hlongest hslot
  rwa [Node.ofPieces_map_text] at hbraced

/-- A replacement whose operator is more than a slash, without its second slot. -/
theorem braced_pattern (hname : IsName name) (hop : op ∈ replaceOperators)
    (hfirst : op ≠ .replace .first) (w : Text) (depth : Nat) :
    Braced limit depth (applying name op (escaping escapable w))
      (.expansion name (some op) ([w, []].map .text) depth
        (applying name op (escaping escapable w))) := by
  have hslot : Items limit .pattern (depth + 1) (escaping escapable w) ['}'] _ :=
    items_escaping_escapable (by decide) w
  have hlongest : IsLongest replaceOperators op (escaping escapable w ++ ['}']) :=
    isLongest_replace_iff.2 ⟨hop, fun heq => absurd heq hfirst⟩
  have hbraced := Braced.pattern hname hlongest hslot
  rwa [Node.ofPieces_map_text] at hbraced

/-- The same with its second slot. -/
theorem braced_replacement (hname : IsName name) (hop : op ∈ replaceOperators)
    (hfirst : op ≠ .replace .first) (w w' : Text) (depth : Nat) :
    Braced limit depth (applying name op (escaping escapable w ++ '/' :: escaping escapable w'))
      (.expansion name (some op) ([w, w'].map .text) depth
        (applying name op (escaping escapable w ++ '/' :: escaping escapable w'))) := by
  have hpattern : Items limit .pattern (depth + 1) (escaping escapable w) ['/'] _ :=
    items_escaping_escapable (by decide) w
  have hword : Items limit .word (depth + 1) (escaping escapable w') ['}'] _ :=
    items_escaping_escapable (by decide) w'
  have hlongest : IsLongest replaceOperators op
      (escaping escapable w ++ '/' :: escaping escapable w' ++ ['}']) :=
    isLongest_replace_iff.2 ⟨hop, fun heq => absurd heq hfirst⟩
  have hbraced := Braced.replacement hname hlongest hpattern hword
  rw [Node.ofPieces_map_text, Node.ofPieces_map_text] at hbraced
  simpa [applying] using hbraced

/-- The offset of a slice is not empty and does not make the colon part of another operator. -/
theorem head?_offset {w : Text} (hfirst : ∀ c ∈ w.head?, c ∉ ['=', '-', '?', '+']) :
    ∀ c ∈ (escaping escapable w).head?, c ∉ ['=', '-', '?', '+'] := by
  intro c hc hmem
  refine head?_ne_of_escaping ?_ (fun hw => hfirst c hw hmem) hc
  rintro rfl
  exact absurd hmem (by decide)

theorem braced_offset (hname : IsName name) {w : Text} (hne : w ≠ [])
    (hfirst : ∀ c ∈ w.head?, c ∉ ['=', '-', '?', '+']) (depth : Nat) :
    Braced limit depth (applying name .slice (escaping escapable w))
      (.expansion name (some .slice) ([w].map .text) depth
        (applying name .slice (escaping escapable w))) := by
  have hslot : Items limit .field (depth + 1) (escaping escapable w) ['}'] _ :=
    items_escaping_escapable (by decide) w
  have hbraced := Braced.offset hname (head?_offset hfirst) (mt escaping_eq_nil hne) hslot
  rw [Node.ofPieces_map_text] at hbraced
  simpa [applying, Operator.spelling] using hbraced

theorem braced_slice (hname : IsName name) {w : Text} (hne : w ≠ [])
    (hfirst : ∀ c ∈ w.head?, c ∉ ['=', '-', '?', '+']) (w' : Text) (depth : Nat) :
    Braced limit depth (applying name .slice (escaping escapable w ++ ':' :: escaping escapable w'))
      (.expansion name (some .slice) ([w, w'].map .text) depth
        (applying name .slice (escaping escapable w ++ ':' :: escaping escapable w'))) := by
  have hoffset : Items limit .field (depth + 1) (escaping escapable w) [':'] _ :=
    items_escaping_escapable (by decide) w
  have hlength : Items limit .field (depth + 1) (escaping escapable w') ['}'] _ :=
    items_escaping_escapable (by decide) w'
  have hbraced :=
    Braced.slice hname (head?_offset hfirst) (mt escaping_eq_nil hne) hoffset hlength
  rw [Node.ofPieces_map_text, Node.ofPieces_map_text] at hbraced
  simpa [applying, Operator.spelling] using hbraced

/-! ## Evaluation -/

/-- A caller who has no value for the variable gets the text. -/
theorem evaluate_default_escaped [Engine] {σ : Type} (hname : IsName name) (w : Text)
    {resolve : Text → σ → Option Text × σ} {caller : σ} (hunset : (resolve name caller).1 = none) :
    (evaluateWith limit (.standard resolve)
      (applying name (.default .unsetOrEmpty) (escaping escapable w)) caller).1 = .ok w := by
  have hreads : ReadsAs limit name (.default .unsetOrEmpty) (escaping escapable w) [w] :=
    .of_braced (braced_word hname (by decide) nofun)
  rw [evaluateWith_of_parse hreads.alone, execute_alone, Node.expandAll_map_text]
  have hvalue : (Run.valueOf (.standard resolve) name none { caller }).1 = none := hunset
  simp only [hvalue]
  rfl

/-- **Every text can be written in every slot.**  Let `w` and `w'` be texts, each written with a
backslash before each of its escapable characters.  As the word of an operator, as the pattern or the
word of a replacement, and as the offset or the length of a slice they stand for themselves, and the
expansion ends at the brace that follows.  The offset alone must not be empty, nor begin with a sign
that the colon would take for itself; the sign of a trim that is written once must not be doubled. -/
theorem escaped_slots [Engine] (limit : Nat) {name : Text} (hname : IsName name) (w w' : Text) :
    (∀ op ∈ wordOperators, (∀ side, op = .trim side .shortest → w.head? ≠ some side.mark) →
      ReadsAs limit name op (escaping escapable w) [w]) ∧
    (∀ op ∈ replaceOperators, op ≠ .replace .first →
      ReadsAs limit name op (escaping escapable w) [w, []] ∧
        ReadsAs limit name op (escaping escapable w ++ '/' :: escaping escapable w') [w, w']) ∧
    (w ≠ [] → (∀ c ∈ w.head?, c ∉ ['=', '-', '?', '+']) →
      ReadsAs limit name .slice (escaping escapable w) [w] ∧
        ReadsAs limit name .slice (escaping escapable w ++ ':' :: escaping escapable w') [w, w']) ∧
    ∀ (σ : Type) (resolve : Text → σ → Option Text × σ) (caller : σ),
      (resolve name caller).1 = none →
        (evaluateWith limit (.standard resolve)
          ('$' :: '{' :: name ++ [':', '-'] ++ escaping escapable w ++ ['}']) caller).1 = .ok w := by
  refine ⟨fun op hop hshort => ?_, fun op hop hfirst => ⟨?_, ?_⟩, fun hne hfirst => ⟨?_, ?_⟩, ?_⟩
  · exact .of_braced (braced_word hname hop hshort)
  · exact .of_braced (braced_pattern hname hop hfirst w)
  · exact .of_braced (braced_replacement hname hop hfirst w w')
  · exact .of_braced (braced_offset hname hne hfirst)
  · exact .of_braced (braced_slice hname hne hfirst w')
  · intro σ resolve caller hunset
    exact evaluate_default_escaped hname w hunset

attribute [local instance] Engine.standard

theorem escaped_slots_signs :
    IsName ['x'] ∧ escaping escapable ['}', '$', '{', ':'] = ['\\', '}', '\\', '$', '{', '\\', ':'] ∧
      ReadsAs 64 ['x'] (.trim .start .longest) ['\\', '}', '\\', '$', '{', '\\', ':']
        [['}', '$', '{', ':']] ∧
      ReadsAs 64 ['x'] (.replace .everywhere) ['\\', '}', '\\', '$', '{', '\\', ':', '/', '\\', '/']
        [['}', '$', '{', ':'], ['/']] ∧
      ReadsAs 64 ['x'] .slice ['\\', '}', '\\', '$', '{', '\\', ':', ':', '\\', '/']
        [['}', '$', '{', ':'], ['/']] ∧
      (evaluateWith 64 (pureMapping fun _ => none)
        ['$', '{', 'x', ':', '-', '\\', '}', '\\', '$', '{', '\\', ':', '}'] ()).1
          = .ok ['}', '$', '{', ':'] := by
  have hname : IsName ['x'] := isName_singleton (by cbv)
  obtain ⟨hword, hreplace, hslice, heval⟩ :=
    escaped_slots 64 hname ['}', '$', '{', ':'] ['/']
  have hfirst : ∀ c ∈ ['}', '$', '{', ':'].head?, c ∉ ['=', '-', '?', '+'] := by
    rintro c ⟨⟩
    decide
  exact ⟨hname, by decide, hword (.trim .start .longest) (by decide) (by rintro side ⟨⟩),
    (hreplace (.replace .everywhere) (by decide) (by decide)).2,
    (hslice (by decide) hfirst).2, heval Unit _ () rfl⟩

end Template

end ShellExpansion
