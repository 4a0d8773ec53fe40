import ShellExpansion.Proofs.Expansion.Alone
import ShellExpansion.Proofs.Glob.Escaping
import ShellExpansion.Proofs.Template.Escaping
import ShellExpansion.Proofs.Value.Trimming

/-!
# Patterns in which every sign is escaped

In a template two readers take backslashes away: that of the slot, and after it that of the pattern.
A text in which every character with a meaning has a backslash before it
(`escaping (escapable ++ signs) w`) should trim itself.  But the first reader takes the backslashes
before the backslashes of the text away, and the second one then takes those of the text for its own.
`Kept` says for which texts this makes no difference.

* `Trim.trim_of_kept`, `Trim.kept_of_trim` : which patterns trim their text and nothing else.
* `Template.evaluate_escaped_iff` : **an escaped text is trimmed literally if and only if it stays
  what it is.**
* `Template.evaluate_escaped_backslash` : a backslash before a letter is lost.
-/

namespace ShellExpansion

open Glob Grammar

namespace Trim

variable {fits : Text → Prop} {w value : Text}

/-! ## Trimming a text -/

/-- The value without a text that it starts with. -/
theorem trims_text (w value : Text) :
    Trims (· = w) .start .longest value
      (if w <+: value then value.drop w.length else value) := by
  split
  · rename_i hprefix
    obtain ⟨rest, rfl⟩ := hprefix
    rw [List.drop_left]
    refine .inl ⟨w, rfl, rfl, ?_⟩
    rintro other - - rfl
    exact Nat.le_refl _
  · rename_i hprefix
    refine .inr ⟨?_, rfl⟩
    rintro part rest hcut rfl
    exact hprefix ⟨rest, hcut.symm⟩

/-- A value that fits as a whole is taken off as a whole. -/
theorem trims_whole (h : fits value) : Trims fits .start .longest value [] := by
  refine .inl ⟨value, (List.append_nil value).symm, h, fun other rest hcut _ => ?_⟩
  have hlength := congrArg List.length hcut
  rw [List.length_append] at hlength
  exact (by omega : other.length ≤ value.length)

/-- Of a value only the value itself leaves nothing behind. -/
theorem fits_of_trims_nil (h : Trims fits .start .longest value []) (hne : value ≠ []) :
    fits value := by
  rcases h with ⟨part, hpart⟩ | ⟨-, heq⟩
  · have hcut : value = part ++ [] := hpart.cut
    rw [List.append_nil] at hcut
    exact hcut ▸ hpart.fit
  · exact absurd heq.symm hne

variable [Engine]

/-- The pattern matches something, so the engine does not give it up. -/
theorem trim_of_kept (hkept : Kept w) (value : Text) :
    (trim value .start .longest (escaping signs w)).result
      = .ok (if w <+: value then value.drop w.length else value) := by
  obtain ⟨steps, hsteps, hsplits⟩ := compile_of_kept hkept
  have hfits : SplitsBy Step.Takes steps = (· = w) := funext fun value => propext (hsplits value)
  have htrims := trimmed_spec steps value .start .longest
  rw [hfits] at htrims
  rw [htrims.unique (trims_text w value)]
  refine (result_trim hsteps value .start .longest).resolve_right ?_
  rintro ⟨-, part, rest, -, hgives⟩
  rw [not_givesUp_of_splitsBy hsteps ((hsplits w).2 rfl)] at hgives
  cases hgives

/-- Where a trim changes the value the pattern compiles. -/
theorem compile_of_trim {pattern result : Text}
    (h : (trim value .start .longest pattern).result = .ok result) (hne : result ≠ value) :
    ∃ steps, compile pattern = .ok steps := by
  rw [trim] at h
  split at h
  · exact absurd (Except.ok.inj h).symm hne
  · exact Replace.exists_steps h

/-- A pattern that takes off the text and nothing else, whatever the value, is that of a text that
stays what it is. -/
theorem kept_of_trim
    (h : ∀ value, (trim value .start .longest (escaping signs w)).result
      = .ok (if w <+: value then value.drop w.length else value)) : Kept w := by
  by_contra hkept
  have hne : w ≠ [] := by
    rintro rfl
    exact hkept kept_nil
  have hself : (trim w .start .longest (escaping signs w)).result = .ok [] := by
    rw [h, if_pos List.prefix_rfl, List.drop_length]
  obtain ⟨steps, hsteps⟩ := compile_of_trim hself hne.symm
  have htrims : ∀ value, Trims (SplitsBy Step.Takes steps) .start .longest value
      (if w <+: value then value.drop w.length else value) := by
    intro value
    rw [eq_trimmed_of_result hsteps (h value)]
    exact trimmed_spec steps value .start .longest
  have hw : SplitsBy Step.Takes steps w := by
    refine fits_of_trims_nil ?_ hne
    have htrimsw := htrims w
    rwa [if_pos List.prefix_rfl, List.drop_length] at htrimsw
  -- another text that the pattern matches would be trimmed as well
  obtain ⟨other, hother, hnil, hsplits⟩ := exists_other hkept hsteps hw
  have hrest := (htrims other).unique (trims_whole hsplits)
  split at hrest
  · rename_i hprefix
    obtain ⟨rest, rfl⟩ := hprefix
    rw [List.drop_left] at hrest
    exact hother (by rw [← hrest, List.append_nil])
  · exact hnil hrest.symm

end Trim

namespace Template

variable {name w value result : Text}

/-- The backslashes before the signs of a pattern are left to the pattern. -/
theorem parse_escaped (hname : IsName name) (w : Text) :
    parse defaultLimit (trimming .start name (escaping (escapable ++ signs) w))
      = .ok (.expansion name (some (.trim .start .longest)) ([escaping signs w].map .text) 0
          (trimming .start name (escaping (escapable ++ signs) w))) := by
  have hregion : Region.word ≠ .outside := by decide
  have hslot : Items defaultLimit .word 1 (escaping (escapable ++ signs) w) ['}'] _ :=
    items_escaping hregion (List.subset_append_left _ _) w
  have hleft : (escapable ++ signs).filter (· ∉ escapable) = signs := by decide
  rw [parse_trimming hname hslot, hleft, Node.ofPieces_map_text]
  rfl

/-- What becomes of the template is what the pattern makes of the value. -/
theorem evaluate_escaped [Engine] (hname : IsName name) (values : Text → Option Text)
    (hvalue : values name = some value) :
    evaluate values (trimming .start name (escaping (escapable ++ signs) w)) = .ok result ↔
      (Trim.trim value .start .longest (escaping signs w)).result = .ok result := by
  rw [evaluate, evaluate_alone (parse_escaped hname w), hvalue]
  exact Applied.result_ofPatternUse

/-- **An escaped text is trimmed literally if and only if it stays what it is.**  For any other text
there is a value that loses too much or too little. -/
theorem evaluate_escaped_iff [Engine] (hname : IsName name) (w : Text) :
    (∀ (values : Text → Option Text) (value : Text), values name = some value →
      evaluate values (trimming .start name (escaping (escapable ++ signs) w))
        = .ok (if w <+: value then value.drop w.length else value)) ↔ Kept w := by
  constructor
  · intro h
    refine Trim.kept_of_trim fun value => ?_
    have hvalues := h (fun _ => some value) value rfl
    exact (evaluate_escaped hname (fun _ => some value) rfl).1 hvalues
  · intro hkept values value hvalue
    exact (evaluate_escaped hname values hvalue).2 (Trim.trim_of_kept hkept value)

attribute [local instance] Engine.standard

theorem evaluate_escaped_iff_bracket :
    IsName ['v'] ∧ Kept ['*', '\\', '[', 'a'] ∧
      escaping (escapable ++ signs) ['*', '\\', '[', 'a']
        = ['\\', '*', '\\', '\\', '\\', '[', 'a'] ∧
      evaluate (fun _ => some ['*', '\\', '[', 'a', 'b'])
          ['$', '{', 'v', '#', '#', '\\', '*', '\\', '\\', '\\', '[', 'a', '}'] = .ok ['b'] := by
  have hname : IsName ['v'] := isName_singleton (by cbv)
  have hkept : Kept ['*', '\\', '[', 'a'] := by
    rw [kept_cons (by decide), kept_backslash_cons, kept_cons (by decide)]
    exact ⟨.inr ⟨rfl, by decide⟩, kept_nil⟩
  have heval :=
    (evaluate_escaped_iff hname _).2 hkept (fun _ => some ['*', '\\', '[', 'a', 'b']) _ rfl
  exact ⟨hname, hkept, by decide, heval⟩

/-- A backslash before a letter is lost, and the pattern matches the letter alone. -/
theorem evaluate_escaped_backslash :
    escaping (escapable ++ signs) ['\\', 'a'] = ['\\', '\\', 'a'] ∧
      ['\\', 'a'] <+: ['\\', 'a', 'b'] ∧
      evaluate (fun _ => some ['\\', 'a', 'b']) ['$', '{', 'v', '#', '#', '\\', '\\', 'a', '}']
        = .ok ['\\', 'a', 'b'] := by
  have hname : IsName ['v'] := isName_singleton (by cbv)
  have htrim : (Trim.trim ['\\', 'a', 'b'] .start .longest (escaping signs ['\\', 'a'])).result
      = .ok ['\\', 'a', 'b'] := by
    decide +kernel
  exact ⟨by decide, by decide, (evaluate_escaped hname (fun _ => some ['\\', 'a', 'b']) rfl).2 htrim⟩

end Template

end ShellExpansion
