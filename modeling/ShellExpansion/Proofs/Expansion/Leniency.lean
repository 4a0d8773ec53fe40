import ShellExpansion.Environment
import ShellExpansion.Glob.StandardEngine
import ShellExpansion.Proofs.Expansion.Callers
import Mathlib

/-!
# Strict and lenient values

A lenient caller has the empty text for a variable where a strict one has no value.  Only an operator
that is written without its colon can tell the two apart (`Node.NeverTestsUnset`): all others take no
value for an empty one.

* `apply_getD` : what an operator does, when it does not test for an unset variable.
* `respects_lenient` : the last step of an expansion, for a strict and for a lenient caller.
* `execute_lenient` : a whole template, for callers with any state.
* `strict_eq_lenient` : **strict and lenient resolution differ only through the operators without a
  colon**, for functions that give values and for the environment.
-/

namespace ShellExpansion

variable {σ : Type}

/-- The test by which an operator finds that a value is missing, if it asks for that. -/
def Operator.test? : Operator → Option MissingTest
  | default test | assign test | require test | alternative test => some test
  | length | lowerFirst | lowerAll | upperFirst | upperAll | slice | trim _ _ | replace _ => none

/-- An operator, or none, that does not tell an unset variable from an empty one. -/
def IgnoresUnset (op : Option Operator) : Prop := ∀ operator ∈ op, operator.test? ≠ some .unset

/-- No operator of the tree, in its words either, tells an unset variable from an empty one. -/
def Node.NeverTestsUnset (root : Node) : Prop := OperatorsIn IgnoresUnset root.expansions

/-- The caller who has the empty text where another has no value. -/
def lenient (resolve : Text → σ → Option Text × σ) : Text → σ → Option Text × σ :=
  fun name caller => (some ((resolve name caller).1.getD []), (resolve name caller).2)

/-! ## Operators -/

theorem isMissing_getD {test : MissingTest} (h : test ≠ .unset) (value : Option Text) :
    test.isMissing (some (value.getD [])) = test.isMissing value := by
  cases test with
  | unset => exact absurd rfl h
  | unsetOrEmpty => rfl

/-- An operator that does not test for an unset variable takes no value for an empty one. -/
theorem apply_getD [Engine] {op : Operator} (h : op.test? ≠ some .unset) (name : Text)
    (value : Option Text) (words : List Text) :
    op.apply name (some (value.getD [])) words = op.apply name value words := by
  have htest : ∀ test, op.test? = some test → test.isMissing (some (value.getD []))
      = test.isMissing value := by
    intro test hop
    refine isMissing_getD ?_ value
    rintro rfl
    exact h hop
  cases op with
  | default test => simp [Operator.apply, htest test rfl]
  | assign test => simp [Operator.apply, htest test rfl]
  | require test => simp [Operator.apply, htest test rfl]
  | alternative test => simp [Operator.apply, htest test rfl]
  | _ => rfl

theorem yields_getD [Engine] {op : Option Operator} (h : IgnoresUnset op) (name : Text)
    (value : Option Text) (words : List Text) :
    yields op name (some (value.getD [])) words = yields op name value words := by
  cases op with
  | none => rfl
  | some operator => simp only [yields, apply_getD (h operator rfl)]

theorem happenings_getD [Engine] {op : Option Operator} (h : IgnoresUnset op) (name source : Text)
    (value : Option Text) (words : List Text) :
    happenings op name source (some (value.getD [])) words
      = happenings op name source value words := by
  cases op with
  | none => rfl
  | some operator => simp only [happenings, apply_getD (h operator rfl)]

theorem assignment_getD {op : Option Operator} (h : IgnoresUnset op) (name : Text)
    (value : Option Text) (words : List Text) :
    assignment op name (some (value.getD [])) words = assignment op name value words := by
  rcases op with _ | operator
  · rfl
  · cases operator with
    | assign test =>
      have htest : test ≠ .unset := by
        rintro rfl
        exact h _ rfl rfl
      simp only [assignment, isMissing_getD htest]
    | _ => rfl

/-! ## Runs -/

/-- A lenient caller has the same value, or an empty one for none, and is left in the same state. -/
theorem valueOf_lenient (resolve : Text → σ → Option Text × σ) (name : Text)
    (given : Option Text) (run : Run σ) :
    ∃ value run', run.valueOf (.standard resolve) name given = (value, run') ∧
      (run.valueOf (.standard (lenient resolve)) name given = (value, run') ∨
        run.valueOf (.standard (lenient resolve)) name given = (some (value.getD []), run')) := by
  rw [valueOf_eq, valueOf_eq]
  cases run.assigned? name with
  | some value => exact ⟨some value, run, rfl, .inl rfl⟩
  | none => exact ⟨_, _, rfl, .inr rfl⟩

/-- An expansion ends alike for a caller and for the lenient one. -/
theorem finish_lenient [Engine] (resolve : Text → σ → Option Text × σ) {op : Option Operator}
    (h : IgnoresUnset op) (name source : Text) (given : Option Text) (words : List Text)
    (run : Run σ) :
    run.finish (.standard resolve) name op source given words
      = run.finish (.standard (lenient resolve)) name op source given words := by
  obtain ⟨value, run', hstrict, hlenient⟩ := valueOf_lenient resolve name given run
  rw [finish_eq, finish_eq, hstrict]
  rcases hlenient with hlenient | hlenient
  · rw [hlenient]
  · rw [hlenient]
    simp only [yields_getD h, assignment_getD h, happenings_getD h]

theorem respects_lenient [Engine] (resolve : Text → σ → Option Text × σ) :
    Respects (· = ·) (.standard resolve) (.standard (lenient resolve)) (fun _ => Eq)
      IgnoresUnset where
  decides _ _ _ _ := .proceed rfl
  consults _ _ _ hrun := hrun
  notes event _ _ hrun := congrArg (Run.note · event) hrun
  finishes name op source value value' words run run' hop hgiven hrun := by
    subst hgiven hrun
    rw [finish_lenient resolve hop]
    exact ⟨rfl, rfl⟩

/-- A template that never tests for an unset variable becomes the same for a lenient caller, with
the same assignments and the same events on the way. -/
theorem execute_lenient [Engine] {root : Node} (h : root.NeverTestsUnset)
    (resolve : Text → σ → Option Text × σ) (caller : σ) :
    Template.execute (.standard resolve) root caller
      = Template.execute (.standard (lenient resolve)) root caller := by
  obtain ⟨hresult, hrun⟩ := expand_alike (respects_lenient resolve) root { caller } { caller } h rfl
  exact Prod.ext hresult hrun

/-- The environment resolves leniently as it does strictly, with the empty text for no value. -/
theorem Environment.resolve_false (env : Environment) :
    env.resolve false = fun name => some ((env.resolve true name).getD []) := by
  funext name
  unfold Environment.resolve
  cases env.bytes? name <;> rfl

namespace Template

/-- **Strict and lenient resolution differ only through the operators without a colon.**  A template
that has none, in the words of its operators either, becomes the same whether a variable without a
value is unset or empty: it has the same text or fails with the same error.  So a text has the same
expansion with the variables of an environment in strict and in lenient resolution. -/
theorem strict_eq_lenient [Engine] :
    (∀ root : Node, root.NeverTestsUnset → ∀ values : Text → Option Text,
      execute (pureMapping values) root ()
        = execute (pureMapping fun name => some ((values name).getD [])) root ()) ∧
    ∀ input : Text, (∀ root, parse defaultLimit input = .ok root → root.NeverTestsUnset) →
      ∀ env : Environment, env.evaluate true input = env.evaluate false input := by
  have hpure : ∀ root : Node, root.NeverTestsUnset → ∀ values : Text → Option Text,
      execute (pureMapping values) root ()
        = execute (pureMapping fun name => some ((values name).getD [])) root () :=
    fun root hroot values => execute_lenient hroot (fun name caller => (values name, caller)) ()
  refine ⟨hpure, fun input hinput env => ?_⟩
  rw [Environment.evaluate, Environment.evaluate, evaluate, evaluate, evaluateWith, evaluateWith,
    read]
  cases hparse : parse defaultLimit input with
  | error fault => rfl
  | ok root =>
    rw [Environment.resolve_false]
    exact congrArg Prod.fst (hpure root (hinput root hparse) (env.resolve true))

attribute [local instance] Engine.standard

theorem strict_eq_lenient_assigned :
    ∃ root, parse defaultLimit ['$', '{', 'a', ':', '=', 'x', '}', '$', 'a'] = .ok root ∧
      root.NeverTestsUnset ∧
      execute (pureMapping fun _ => none) root () = execute (pureMapping fun _ => some []) root () ∧
      Environment.evaluate [] true ['$', '{', 'a', ':', '=', 'x', '}', '$', 'a']
        = Environment.evaluate [] false ['$', '{', 'a', ':', '=', 'x', '}', '$', 'a'] := by
  have hparse : parse defaultLimit ['$', '{', 'a', ':', '=', 'x', '}', '$', 'a']
      = .ok (.sequence [.expansion ['a'] (some (.assign .unsetOrEmpty)) [.text ['x']] 0
            ['$', '{', 'a', ':', '=', 'x', '}'], .expansion ['a'] none [] 0 ['$', 'a']]) := by
    cbv
  have hnever : Node.NeverTestsUnset (.sequence [.expansion ['a'] (some (.assign .unsetOrEmpty))
      [.text ['x']] 0 ['$', '{', 'a', ':', '=', 'x', '}'],
      .expansion ['a'] none [] 0 ['$', 'a']]) := by
    intro name op words nesting source hmem
    simp only [Node.expansions, Node.expansionsAll, List.append_nil, List.cons_append,
      List.nil_append, List.mem_cons, List.not_mem_nil, or_false, Node.expansion.injEq] at hmem
    rcases hmem with ⟨-, rfl, -⟩ | ⟨-, rfl, -⟩
    · simp [IgnoresUnset, Operator.test?]
    · simp [IgnoresUnset]
  refine ⟨_, hparse, hnever, strict_eq_lenient.1 _ hnever _, strict_eq_lenient.2 _ ?_ []⟩
  intro root hroot
  rw [hparse] at hroot
  cases hroot
  exact hnever

end Template

end ShellExpansion
