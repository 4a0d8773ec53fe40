import ShellExpansion.Expansion.Template
import ShellExpansion.Proofs.Value.Trimming
import Mathlib

/-!
# Why an expansion fails

A run notes every pattern that it tries.  Its events explain its result (`Explains`): they hold a
pattern that does not compile if and only if the run fails because of its regular expression, and
otherwise it can only fail because of a missing value, or because the engine gave up a pattern that
was tried.

* `apply_isExplained`, `finish_isExplained` : one operator, one expansion.
* `expand_isExplained` : a whole tree, by induction over its nodes.
* `evaluateWith_fails_iff` : **the exact condition under which a template that can be read fails for
  no other reason than a missing value.**
-/

namespace ShellExpansion

section

variable [Engine]

/-! ## Results and events -/

/-- All patterns that were tried compile. -/
def AllCompile (events : List Event) : Prop :=
  ∀ trial, .tried trial ∈ events → Glob.IsSupported trial.pattern ∧ Glob.IsValid trial.pattern

/-- The engine gives up the search for a pattern that was tried, in some value. -/
def PatternTrial.MayBeGivenUp (trial : PatternTrial) : Prop :=
  ∃ value, Glob.givesUp trial.pattern trial.regex value = true

/-- The events tell why a run fails. -/
def Blames (events : List Event) : ExpansionError → Prop
  | .requiredVariable _ _ => AllCompile events
  | .invalidRegex regex =>
    ∃ trial, .tried trial ∈ events ∧ ¬ Glob.IsValid trial.pattern ∧ regex = dotAll ++ trial.regex
  | .unsupportedRegex _ => ∃ trial, .tried trial ∈ events ∧ ¬ Glob.IsSupported trial.pattern
  | .gaveUp => AllCompile events ∧ ∃ trial, .tried trial ∈ events ∧ trial.MayBeGivenUp
  | .parse _ _ => False

/-- The events tell why the result is what it is. -/
def Explains {α : Type} (events : List Event) : Except ExpansionError α → Prop
  | .ok _ => AllCompile events
  | .error e => Blames events e

theorem allCompile_nil : AllCompile [] := nofun

theorem AllCompile.append {events events' : List Event} (h : AllCompile events)
    (h' : AllCompile events') : AllCompile (events ++ events') := by
  intro trial hmem
  exact (List.mem_append.1 hmem).elim (h trial) (h' trial)

/-- More events explain a result as well, unless they hold a pattern that does not compile where all
did before. -/
theorem Explains.extend {α : Type} {events events' : List Event} {result : Except ExpansionError α}
    (h : Explains events result) (hmem : ∀ event ∈ events, event ∈ events')
    (hcompile : AllCompile events → AllCompile events') : Explains events' result := by
  match result, h with
  | .ok _, h => exact hcompile h
  | .error (.requiredVariable _ _), h => exact hcompile h
  | .error (.invalidRegex _), ⟨trial, htrial, hinvalid, hregex⟩ =>
    exact ⟨trial, hmem _ htrial, hinvalid, hregex⟩
  | .error (.unsupportedRegex _), ⟨trial, htrial, hunsupported⟩ =>
    exact ⟨trial, hmem _ htrial, hunsupported⟩
  | .error .gaveUp, ⟨h, trial, htrial, hgives⟩ =>
    exact ⟨hcompile h, trial, hmem _ htrial, hgives⟩

/-- Events before those that explain a result do not change the explanation if all their patterns
compile. -/
theorem Explains.append {α : Type} {events earlier : List Event} {result : Except ExpansionError α}
    (h : Explains events result) (hearlier : AllCompile earlier) :
    Explains (events ++ earlier) result := by
  refine h.extend (fun event hevent => List.mem_append_left earlier hevent) fun hevents => ?_
  exact hevents.append hearlier

/-- The order of the events does not matter. -/
theorem Explains.reverse {α : Type} {events : List Event} {result : Except ExpansionError α}
    (h : Explains events result) : Explains events.reverse result := by
  refine h.extend (fun event hevent => List.mem_reverse.2 hevent) fun hevents => ?_
  intro trial htrial
  exact hevents trial (List.mem_reverse.1 htrial)

/-- An event that is no trial explains nothing. -/
theorem allCompile_singleton {event : Event} (h : ∀ trial, event ≠ .tried trial) :
    AllCompile [event] := by
  intro trial hmem
  exact absurd (List.mem_singleton.1 hmem).symm (h trial)

/-! ## Operators -/

/-- What an operator yields is explained by the patterns that it tries. -/
def Applied.IsExplained (applied : Applied) : Prop :=
  Explains (applied.trials.map Event.tried) applied.result

theorem allCompile_trials {pattern : Text}
    (h : Glob.IsSupported pattern ∧ Glob.IsValid pattern) (use : PatternUse) :
    AllCompile ((Applied.ofPatternUse pattern use).trials.map Event.tried) := by
  intro trial hmem
  rw [Applied.ofPatternUse] at hmem
  split at hmem
  · cases hmem
  · cases List.mem_singleton.1 hmem
    exact h

/-- A pattern that does not compile explains the error that it leads to. -/
theorem explains_of_fault {pattern : Text} {fault : Glob.SetFault}
    (h : Glob.compile pattern = .error fault) (regex : Text) :
    Explains [.tried ⟨pattern, regex, 1⟩]
      (.error (PatternFault.ofSetFault regex fault).error : Except ExpansionError Text) := by
  obtain ⟨pieces, inverted, members, hspells, hmem, hset⟩ := Glob.exists_bracket_of_compile h
  by_cases hfault : fault = .rangeIntoSet
  · subst hfault
    refine ⟨_, List.mem_singleton.2 rfl, fun hsupported => ?_⟩
    exact hsupported pieces hspells inverted members hmem hset
  · have hinvalid : ¬ Glob.IsValid pattern := fun hvalid =>
      hfault (hvalid pieces hspells inverted members hmem fault hset)
    cases fault with
    | rangeIntoSet => contradiction
    | _ => exact ⟨_, List.mem_singleton.2 rfl, hinvalid, rfl⟩

/-- A pattern that is used fails because it does not compile, or because its use is given up, after at
least one search. -/
theorem withPattern_isExplained (pattern : Text) (atStart atEnd : Bool)
    (edit : List Glob.Step → Except PatternFault Text × Nat)
    (hedit : ∀ steps e, (edit steps).1 = .error e → (edit steps).2 ≠ 0 ∧ e = .gaveUp ∧
      ∃ value, Glob.givesUp pattern (Glob.regex atStart atEnd pattern) value = true) :
    (Applied.ofPatternUse pattern (.withPattern atStart atEnd pattern edit)).IsExplained := by
  cases hcompile : Glob.compile pattern with
  | error fault =>
    rw [Applied.IsExplained, PatternUse.withPattern, hcompile]
    exact explains_of_fault hcompile (Glob.regex atStart atEnd pattern)
  | ok steps =>
    have huse : PatternUse.withPattern atStart atEnd pattern edit
        = ⟨(edit steps).1, Glob.regex atStart atEnd pattern, (edit steps).2⟩ := by
      rw [PatternUse.withPattern, hcompile]
    have hfails := hedit steps
    rw [huse]
    generalize edit steps = outcome at hfails ⊢
    obtain ⟨result, tries⟩ := outcome
    have hall := allCompile_trials (Glob.compile_eq_ok_iff.1 ⟨steps, hcompile⟩)
      ⟨result, Glob.regex atStart atEnd pattern, tries⟩
    cases result with
    | ok value => exact hall
    | error e =>
      obtain ⟨htries, rfl, hgives⟩ := hfails e rfl
      refine ⟨hall, ⟨pattern, Glob.regex atStart atEnd pattern, tries⟩, ?_, hgives⟩
      simp only [Applied.ofPatternUse, if_neg htries]
      exact List.mem_singleton.2 rfl

theorem untouched_isExplained (pattern value : Text) :
    (Applied.ofPatternUse pattern (.untouched value)).IsExplained := allCompile_nil

theorem apply_isExplained (op : Operator) (name : Text) (value : Option Text) (words : List Text) :
    (op.apply name value words).IsExplained := by
  cases op with
  | trim side extent =>
    rw [Operator.apply, Trim.trim]
    split
    · exact untouched_isExplained _ _
    · refine withPattern_isExplained _ _ _ _ fun steps e he => ?_
      refine ⟨Trim.tried_of_error he, ?_⟩
      obtain hok | ⟨hgaveUp, part, rest, -, hgives⟩ :=
        Trim.trimWith_spec (wordAt words 0) steps (value.getD []) side extent
      · rw [hok] at he
        cases he
      · exact ⟨Except.error.inj (he.symm.trans hgaveUp), part, hgives⟩
  | replace place =>
    rw [Operator.apply, Replace.replace]
    split
    · exact untouched_isExplained _ _
    · refine withPattern_isExplained _ _ _ _ fun steps e he => ?_
      obtain ⟨hgives, rfl⟩ := Glob.attempt_eq_error_iff.1 he
      exact ⟨Nat.one_ne_zero, rfl, value.getD [], hgives⟩
  | require test =>
    rw [Operator.apply, Applied.IsExplained]
    by_cases hmissing : test.isMissing value = true
    · simp only [if_pos hmissing]
      exact allCompile_nil
    · simp only [if_neg hmissing]
      exact allCompile_nil
  | _ => exact allCompile_nil

end

/-! ## Runs -/

section

variable {σ : Type}

theorem events_valueOf (mapping : Mapping σ) (name : Text) (given : Option Text) (run : Run σ) :
    (run.valueOf mapping name given).2.events = run.events := by
  unfold Run.valueOf
  split
  · rfl
  · cases mapping <;> rfl

theorem events_consult (mapping : Mapping σ) (request : Request) (run : Run σ) :
    (run.consult mapping request).2.events = run.events := by
  cases mapping <;> rfl

variable [Engine]

/-- A part of a run adds events that explain its result. -/
def IsExplained {α : Type} (run : Run σ) (outcome : Outcome σ α) : Prop :=
  ∃ events, outcome.2.events = events ++ run.events ∧ Explains events outcome.1

/-- A part that succeeds and the part after it. -/
theorem IsExplained.trans {α β : Type} {run run' : Run σ} {a : α} {outcome : Outcome σ β}
    (h : IsExplained run ((.ok a, run') : Outcome σ α)) (h' : IsExplained run' outcome) :
    IsExplained run outcome := by
  obtain ⟨earlier, hearlier, hcompile⟩ := h
  obtain ⟨events, hevents, hexplains⟩ := h'
  refine ⟨events ++ earlier, ?_, hexplains.append hcompile⟩
  rw [hevents, hearlier, List.append_assoc]

/-- A part that starts with the same events. -/
theorem IsExplained.of_events_eq {α : Type} {run run' : Run σ} {outcome : Outcome σ α}
    (h : IsExplained run' outcome) (heq : run'.events = run.events) : IsExplained run outcome := by
  obtain ⟨events, hevents, hexplains⟩ := h
  exact ⟨events, heq ▸ hevents, hexplains⟩

theorem isExplained_note {α : Type} (run : Run σ) (event : Event)
    (h : ∀ trial, event ≠ .tried trial) (a : α) :
    IsExplained run ((.ok a, run.note event) : Outcome σ α) :=
  ⟨[event], rfl, allCompile_singleton h⟩

theorem isExplained_ok {α : Type} (run : Run σ) (a : α) :
    IsExplained run ((.ok a, run) : Outcome σ α) :=
  ⟨[], rfl, allCompile_nil⟩

/-- The last step of an expansion is explained. -/
theorem finish_isExplained (mapping : Mapping σ) (name : Text) (op : Option Operator)
    (source : Text) (given : Option Text) (words : List Text) (run : Run σ) :
    IsExplained run (run.finish mapping name op source given words) := by
  have hevents := events_valueOf mapping name given run
  unfold Run.finish
  generalize run.valueOf mapping name given = asked at hevents ⊢
  obtain ⟨value, run'⟩ := asked
  cases op with
  | none =>
    exact (isExplained_note run' (.expanded source (value.getD [])) nofun _).of_events_eq hevents
  | some op =>
    have happlied : IsExplained run'
        ((op.apply name value words).result, run'.noteTrials (op.apply name value words).trials) :=
      ⟨_, rfl, Explains.reverse (apply_isExplained op name value words)⟩
    simp only
    cases hresult : (op.apply name value words).result with
    | error e =>
      rw [hresult] at happlied
      exact happlied.of_events_eq hevents
    | ok result =>
      rw [hresult] at happlied
      have hnote := isExplained_note
        (if op.assigns value = true
          then (run'.noteTrials (op.apply name value words).trials).assign name result
          else run'.noteTrials (op.apply name value words).trials)
        (.expanded source result) nofun result
      refine (happlied.trans (hnote.of_events_eq ?_)).of_events_eq hevents
      split <;> rfl

mutual

/-- The expansion of a tree is explained. -/
theorem expand_isExplained (mapping : Mapping σ) :
    ∀ (node : Node) (run : Run σ), IsExplained run (node.expand mapping run)
  | .text value, run => isExplained_ok run value
  | .sequence nodes, run => by
    have hnodes := expandAll_isExplained mapping nodes run
    rw [Node.expand]
    generalize Node.expandAll mapping nodes run = outcome at hnodes ⊢
    obtain ⟨_ | values, run'⟩ := outcome
    · exact hnodes
    · exact hnodes.trans (isExplained_ok run' _)
  | .expansion name op words nesting source, run => by
    have hconsult := events_consult mapping ⟨name, source, op, nesting, words.length⟩ run
    rw [Node.expand]
    generalize run.consult mapping ⟨name, source, op, nesting, words.length⟩ = consulted
      at hconsult ⊢
    obtain ⟨replacement | given, run'⟩ := consulted
    · exact (isExplained_note run' (.verbatim source replacement) nofun _).of_events_eq hconsult
    · have hwords := expandAll_isExplained mapping words run'
      simp only
      generalize Node.expandAll mapping words run' = outcome at hwords ⊢
      obtain ⟨_ | values, run''⟩ := outcome
      · exact hwords.of_events_eq hconsult
      · have hfinish := finish_isExplained mapping name op source given values run''
        exact (hwords.trans hfinish).of_events_eq hconsult

/-- The expansion of several trees is explained. -/
theorem expandAll_isExplained (mapping : Mapping σ) :
    ∀ (nodes : List Node) (run : Run σ), IsExplained run (Node.expandAll mapping nodes run)
  | [], run => isExplained_ok run []
  | node :: nodes, run => by
    have hnode := expand_isExplained mapping node run
    rw [Node.expandAll]
    generalize node.expand mapping run = outcome at hnode ⊢
    obtain ⟨_ | value, run'⟩ := outcome
    · exact hnode
    · have hnodes := expandAll_isExplained mapping nodes run'
      simp only
      generalize Node.expandAll mapping nodes run' = outcome at hnodes ⊢
      obtain ⟨_ | values, run''⟩ := outcome
      · exact hnode.trans hnodes
      · exact hnode.trans (hnodes.trans (isExplained_ok run'' _))

end

end

namespace Template

section

variable {σ : Type} [Engine]

theorem execute_isExplained (mapping : Mapping σ) (root : Node) (caller : σ) :
    Explains (execute mapping root caller).2.events (execute mapping root caller).1 := by
  obtain ⟨events, hevents, hexplains⟩ := expand_isExplained mapping root { caller }
  rw [List.append_nil] at hevents
  rw [execute, hevents]
  exact hexplains

/-- **A template that can be read has an expansion, or lacks only a required value, if and only if
every pattern that its run tries is valid and the engine gives up none of them.**  If it fails for
another reason, it fails with the regular expression of a pattern that was tried and is not valid, or
because the engine gives up the search for one.  All patterns are to be of the kind that is read. -/
theorem evaluateWith_fails_iff {limit : Nat} {input : Text} {root : Node}
    (h : parse limit input = .ok root) (mapping : Mapping σ) (caller : σ)
    {result : Except ExpansionError Text} {run : Run σ}
    (hrun : evaluateWith limit mapping input caller = (result, run))
    (hsupported : ∀ trial, .tried trial ∈ run.events → Glob.IsSupported trial.pattern) :
    (((∃ value, result = .ok value) ∨
        ∃ name detail, result = .error (.requiredVariable name detail)) ↔
      (∀ trial, .tried trial ∈ run.events → Glob.IsValid trial.pattern) ∧
        result ≠ .error .gaveUp) ∧
    ∀ e, result = .error e → (∃ name detail, e = .requiredVariable name detail) ∨
      (∃ trial, .tried trial ∈ run.events ∧ ¬ Glob.IsValid trial.pattern ∧
        e = .invalidRegex (dotAll ++ trial.regex)) ∨
      e = .gaveUp ∧ (∀ trial, .tried trial ∈ run.events → Glob.IsValid trial.pattern) ∧
        ∃ trial, .tried trial ∈ run.events ∧ trial.MayBeGivenUp := by
  have hexecute : execute mapping root caller = (result, run) := by
    rw [← hrun, evaluateWith, read, h]
    rfl
  have hexplains := execute_isExplained mapping root caller
  rw [hexecute] at hexplains
  match result, hexplains with
  | .ok value, hcompile =>
    exact ⟨iff_of_true (.inl ⟨value, rfl⟩) ⟨fun trial htrial => (hcompile trial htrial).2, nofun⟩,
      nofun⟩
  | .error (.requiredVariable name detail), hcompile =>
    refine ⟨iff_of_true (.inr ⟨name, detail, rfl⟩)
      ⟨fun trial htrial => (hcompile trial htrial).2, nofun⟩, ?_⟩
    rintro e ⟨rfl⟩
    exact .inl ⟨name, detail, rfl⟩
  | .error (.invalidRegex regex), ⟨trial, hmem, hinvalid, hregex⟩ =>
    refine ⟨iff_of_false ?_ fun hall => hinvalid (hall.1 trial hmem), ?_⟩
    · rintro (⟨value, ⟨⟩⟩ | ⟨name, detail, ⟨⟩⟩)
    · rintro e ⟨rfl⟩
      exact .inr (.inl ⟨trial, hmem, hinvalid, congrArg _ hregex⟩)
  | .error (.unsupportedRegex regex), ⟨trial, hmem, hunsupported⟩ =>
    exact absurd (hsupported trial hmem) hunsupported
  | .error .gaveUp, ⟨hcompile, hgives⟩ =>
    refine ⟨iff_of_false ?_ fun hall => hall.2 rfl, ?_⟩
    · rintro (⟨value, ⟨⟩⟩ | ⟨name, detail, ⟨⟩⟩)
    · rintro e ⟨rfl⟩
      exact .inr (.inr ⟨rfl, fun trial htrial => (hcompile trial htrial).2, hgives⟩)

end

section

attribute [local instance] Engine.standard

theorem evaluateWith_fails_iff_class :
    parse 64 ['$', '{', 'v', '#', '[', 'a', ']', '}']
        = .ok (.expansion ['v'] (some (.trim .start .shortest)) [.text ['[', 'a', ']']] 0
            ['$', '{', 'v', '#', '[', 'a', ']', '}']) ∧
      (∀ trial, .tried trial ∈ (evaluateWith 64 (pureMapping fun _ => some ['a'])
          ['$', '{', 'v', '#', '[', 'a', ']', '}'] ()).2.events →
        Glob.IsSupported trial.pattern) ∧
      (((∃ value, (evaluateWith 64 (pureMapping fun _ => some ['a'])
            ['$', '{', 'v', '#', '[', 'a', ']', '}'] ()).1 = .ok value) ∨
          ∃ name detail, (evaluateWith 64 (pureMapping fun _ => some ['a'])
            ['$', '{', 'v', '#', '[', 'a', ']', '}'] ()).1
              = .error (.requiredVariable name detail)) ↔
        (∀ trial, .tried trial ∈ (evaluateWith 64 (pureMapping fun _ => some ['a'])
            ['$', '{', 'v', '#', '[', 'a', ']', '}'] ()).2.events →
          Glob.IsValid trial.pattern) ∧
        (evaluateWith 64 (pureMapping fun _ => some ['a'])
          ['$', '{', 'v', '#', '[', 'a', ']', '}'] ()).1 ≠ .error .gaveUp) := by
  have hparse : parse 64 ['$', '{', 'v', '#', '[', 'a', ']', '}']
      = .ok (.expansion ['v'] (some (.trim .start .shortest)) [.text ['[', 'a', ']']] 0
          ['$', '{', 'v', '#', '[', 'a', ']', '}']) := by
    cbv
  have hevents : (evaluateWith 64 (pureMapping fun _ => some ['a'])
      ['$', '{', 'v', '#', '[', 'a', ']', '}'] ()).2.events
        = [.expanded ['$', '{', 'v', '#', '[', 'a', ']', '}'] [],
            .tried ⟨['[', 'a', ']'], ['^', '[', 'a', ']', '$'], 2⟩] := by
    rw [evaluateWith, read, hparse]
    decide +kernel
  have hsupported : ∀ trial, .tried trial ∈ (evaluateWith 64 (pureMapping fun _ => some ['a'])
      ['$', '{', 'v', '#', '[', 'a', ']', '}'] ()).2.events → Glob.IsSupported trial.pattern := by
    rw [hevents]
    intro trial htrial
    obtain rfl : trial = ⟨['[', 'a', ']'], ['^', '[', 'a', ']', '$'], 2⟩ := by
      simpa using htrial
    have hread : Glob.read ['[', 'a', ']'] = [.bracket false [.single ⟨false, 'a'⟩]] := by
      decide +kernel
    refine (Glob.compiles_of_isPlain fun pieces hspells => ?_).1
    rw [← Glob.spells_iff.1 hspells, hread]
    simp [Glob.Piece.IsPlain, Glob.Member.IsPlain, Glob.Endpoint.IsPlain]
  exact ⟨hparse, hsupported,
    (evaluateWith_fails_iff hparse (pureMapping fun _ => some ['a']) () rfl hsupported).1⟩

/-- A letter that means nothing after a backslash makes a pattern invalid, although the template can
be read and no value is missing. -/
theorem evaluate_unknown_escape :
    (∃ root, parse defaultLimit ['$', '{', 'v', '#', '[', '\\', 'q', ']', '}'] = .ok root) ∧
      evaluate (fun _ => some ['q']) ['$', '{', 'v', '#', '[', '\\', 'q', ']', '}']
        = .error (.invalidRegex "(?s)^[\\q]$".toList) := by
  have hparse : parse 64 ['$', '{', 'v', '#', '[', '\\', 'q', ']', '}']
      = .ok (.expansion ['v'] (some (.trim .start .shortest)) [.text ['[', '\\', 'q', ']']] 0
          ['$', '{', 'v', '#', '[', '\\', 'q', ']', '}']) := by
    cbv
  have hpieces : Glob.read ['[', '\\', 'q', ']'] = [.bracket false [.single ⟨true, 'q'⟩]] := by
    decide +kernel
  have hcompile : Glob.compile ['[', '\\', 'q', ']'] = .error (.unknownEscape 'q') := by
    rw [Glob.compile, hpieces]
    cbv
  refine ⟨⟨_, hparse⟩, ?_⟩
  rw [evaluate, evaluateWith, read, defaultLimit, hparse]
  simp only [Except.mapError, execute, Node.expand, Node.expandAll, Run.consult, Run.finish,
    pureMapping, Run.valueOf, Operator.apply, Trim.trim, PatternUse.withPattern, wordAt,
    List.getD_cons_zero, hcompile, Applied.ofPatternUse, Glob.regex, hpieces]
  cbv

end

end Template

end ShellExpansion
