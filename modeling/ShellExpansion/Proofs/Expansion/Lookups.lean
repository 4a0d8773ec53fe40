import ShellExpansion.Glob.StandardEngine
import ShellExpansion.Proofs.Expansion.Callers
import ShellExpansion.Proofs.Template.Subtrees
import Mathlib.Data.Set.Insert
import Mathlib.Data.List.Perm.Basic

/-!
# Which variables are looked up

In standard mode the caller is asked for a value when the words of an expansion are known.  So the
names are asked for in the order in which expansions are finished, which is the post-order of the
tree (`Node.postorder`), and a name that has been assigned is not asked for again (`LooksUp`).

* `Node.postorder_perm` : the post-order has every expansion of the tree once.
* `finish_looksUp` : one expansion.
* `expand_finishes` : a whole tree, by induction over its nodes.
* `LooksUp.names` : where nothing is assigned, the names do not depend on the answers.
* `standard_looksUp` : **which names a caller is asked for, and in what order.**
-/

namespace ShellExpansion

namespace Node

/-! ## The order in which expansions are finished -/

mutual

/-- The expansions in a tree, those in its words before an expansion itself. -/
def postorder : Node → List Node
  | text _ => []
  | expansion name op words nesting source =>
    postorderAll words ++ [expansion name op words nesting source]
  | sequence nodes => postorderAll nodes

/-- The expansions in several trees. -/
def postorderAll : List Node → List Node
  | [] => []
  | node :: nodes => node.postorder ++ postorderAll nodes

end

mutual

/-- The post-order has the expansions of the tree, each of them once. -/
theorem postorder_perm : ∀ node : Node, node.postorder.Perm node.expansions
  | text _ => .refl _
  | expansion name op words nesting source => by
    rw [postorder, expansions]
    exact List.perm_append_comm.trans ((postorderAll_perm words).cons _)
  | sequence nodes => postorderAll_perm nodes

theorem postorderAll_perm : ∀ nodes : List Node, (postorderAll nodes).Perm (expansionsAll nodes)
  | [] => .refl _
  | node :: nodes => (postorder_perm node).append (postorderAll_perm nodes)

end

/-- The name of the variable of an expansion. -/
def parameter? : Node → Option Text
  | expansion name _ _ _ _ => some name
  | _ => none

/-- No operator of the tree gives a variable a value. -/
def AssignsNothing (root : Node) : Prop :=
  ∀ name test words nesting source,
    expansion name (some (.assign test)) words nesting source ∉ root.expansions

end Node

/-! ## Assigned names -/

/-- The names that have a value. -/
def assignedNames (assigned : List (Text × Text)) : Set Text :=
  {name | name ∈ assigned.map Prod.fst}

/-- The name that an expansion assigns if its variable has the given value. -/
def namesAssigned (op : Option Operator) (name : Text) (value : Option Text) : Set Text :=
  {other | other = name ∧ ∃ operator ∈ op, operator.assigns value = true}

theorem assignedNames_nil : assignedNames [] = ∅ := by
  ext name
  simp [assignedNames]

theorem assignedNames_append (assigned assigned' : List (Text × Text)) :
    assignedNames (assigned ++ assigned') = assignedNames assigned ∪ assignedNames assigned' := by
  ext name
  rw [assignedNames, List.map_append]
  exact List.mem_append

theorem assignedNames_assignment (op : Option Operator) (name : Text) (value : Option Text)
    (words : List Text) :
    assignedNames (assignment op name value words) = namesAssigned op name value := by
  rcases op with _ | op
  · simp [assignment, namesAssigned, assignedNames]
  · rw [assignment_some]
    cases hassigns : op.assigns value <;> simp [namesAssigned, assignedNames, hassigns]

theorem assigned?_eq_none_iff {σ : Type} {run : Run σ} {name : Text} :
    run.assigned? name = none ↔ name ∉ assignedNames run.assigned := by
  rw [Run.assigned?, List.lookup_eq_none_iff]
  constructor
  · intro h hmem
    obtain ⟨pair, hpair, rfl⟩ := List.mem_map.1 hmem
    simpa using h pair hpair
  · intro h pair hpair
    rw [bne_iff_ne]
    rintro rfl
    exact h (List.mem_map_of_mem hpair)

/-! ## The order of the look-ups -/

/-- The calls of a caller when these expansions are finished one after the other, `taken` being the
names that have been assigned before and `taken'` those that have been assigned in the end.  A name
that is taken is not asked for. -/
inductive LooksUp : Set Text → List Node → List (Text × Option Text) → Set Text → Prop
  | nil {taken : Set Text} : LooksUp taken [] [] taken
  | known {taken taken' : Set Text} {name : Text} {op : Option Operator} {words nodes : List Node}
      {nesting : Nat} {source : Text} {calls : List (Text × Option Text)} (hname : name ∈ taken)
      (tail : LooksUp taken nodes calls taken') :
      LooksUp taken (.expansion name op words nesting source :: nodes) calls taken'
  | asked {taken taken' : Set Text} {name : Text} {op : Option Operator} {words nodes : List Node}
      {nesting : Nat} {source : Text} {value : Option Text} {calls : List (Text × Option Text)}
      (hname : name ∉ taken)
      (tail : LooksUp (namesAssigned op name value ∪ taken) nodes calls taken') :
      LooksUp taken (.expansion name op words nesting source :: nodes) ((name, value) :: calls)
        taken'

theorem LooksUp.append {taken taken' taken'' : Set Text} {nodes nodes' : List Node}
    {calls calls' : List (Text × Option Text)} (h : LooksUp taken nodes calls taken')
    (h' : LooksUp taken' nodes' calls' taken'') :
    LooksUp taken (nodes ++ nodes') (calls ++ calls') taken'' := by
  induction h with
  | nil => exact h'
  | known hname tail ih => exact .known hname (ih h')
  | asked hname tail ih => exact .asked hname (ih h')

/-- Where nothing is assigned every name is asked for, whatever the answers are. -/
theorem LooksUp.names {taken' : Set Text} {nodes : List Node} {calls : List (Text × Option Text)}
    (h : LooksUp ∅ nodes calls taken')
    (hnodes : ∀ name test words nesting source,
      .expansion name (some (.assign test)) words nesting source ∉ nodes) :
    calls.map Prod.fst = nodes.filterMap Node.parameter? := by
  -- nothing is ever taken, which the induction has to know of every step
  generalize htaken : (∅ : Set Text) = taken at h
  induction h with
  | nil => rfl
  | known hname tail ih =>
    subst htaken
    exact absurd hname (Set.notMem_empty _)
  | @asked taken taken' name op words nodes nesting source value calls hname tail ih =>
    subst htaken
    have hnone : namesAssigned op name value ∪ ∅ = ∅ := by
      rw [Set.union_empty, Set.eq_empty_iff_forall_notMem]
      rintro other ⟨-, operator, hop, hassigns⟩
      cases hop
      cases operator with
      | assign test => exact hnodes _ _ _ _ _ List.mem_cons_self
      | _ => cases hassigns
    have htail := ih (fun _ _ _ _ _ hmem => hnodes _ _ _ _ _ (List.mem_cons_of_mem _ hmem))
      hnone.symm
    rw [List.map_cons, htail]
    rfl

variable {σ : Type} {resolve : Text → σ → Option Text × σ}

/-! ## Runs -/

section

variable [Engine]

/-- A run ends with the failure of one of these expansions: it has made the calls for those before
it and for the expansion itself, and then the operator fails. -/
inductive FailsIn (mapping : Mapping σ) (taken : Set Text) :
    List Node → List (Text × Option Text) → ExpansionError → Run σ → Prop
  | finish {before after words : List Node} {name source : Text} {op : Option Operator}
      {nesting : Nat} {calls : List (Text × Option Text)} {given : Option Text} {prev run : Run σ}
      {texts : List Text} {e : ExpansionError}
      (hlooksUp : LooksUp taken (before ++ [.expansion name op words nesting source]) calls
        (assignedNames run.assigned))
      (hfinish : prev.finish mapping name op source given texts = (.error e, run)) :
      FailsIn mapping taken (before ++ .expansion name op words nesting source :: after) calls e run

/-- A part of a run finishes these expansions, or those up to one that fails. -/
def Finishes {α : Type} (resolve : Text → σ → Option Text × σ) (run : Run σ) (nodes : List Node)
    (outcome : Outcome σ α) : Prop :=
  ∃ calls, Answers resolve run.caller calls outcome.2.caller ∧
    (∀ a, outcome.1 = .ok a →
      LooksUp (assignedNames run.assigned) nodes calls (assignedNames outcome.2.assigned)) ∧
    ∀ e, outcome.1 = .error e →
      FailsIn (.standard resolve) (assignedNames run.assigned) nodes calls e outcome.2

/-- The last step of an expansion asks for its name unless it has been assigned. -/
theorem finish_looksUp (resolve : Text → σ → Option Text × σ) (name : Text) (op : Option Operator)
    (words : List Node) (nesting : Nat) (source : Text) (given : Option Text) (texts : List Text)
    (run : Run σ) :
    ∃ calls,
      Answers resolve run.caller calls
        (run.finish (.standard resolve) name op source given texts).2.caller ∧
      LooksUp (assignedNames run.assigned) [.expansion name op words nesting source] calls
        (assignedNames (run.finish (.standard resolve) name op source given texts).2.assigned) := by
  rw [finish_eq]
  simp only [assignedNames_append, assignedNames_assignment]
  cases hassigned : run.assigned? name with
  | some value =>
    have hname : name ∈ assignedNames run.assigned := by
      by_contra hnot
      rw [assigned?_eq_none_iff.2 hnot] at hassigned
      cases hassigned
    have hvalue : run.valueOf (.standard resolve) name given = (some value, run) := by
      rw [Run.valueOf, hassigned]
    -- a name that has a value may be assigned once more, but is taken already
    have hunion : namesAssigned op name (some value) ∪ assignedNames run.assigned
        = assignedNames run.assigned := by
      refine Set.union_eq_self_of_subset_left ?_
      rintro other ⟨rfl, -⟩
      exact hname
    rw [hvalue, hunion]
    exact ⟨[], .nil, .known hname .nil⟩
  | none =>
    have hname := assigned?_eq_none_iff.1 hassigned
    have hvalue : run.valueOf (.standard resolve) name given
        = ((resolve name run.caller).1, { run with caller := (resolve name run.caller).2 }) := by
      rw [Run.valueOf, hassigned]
    rw [hvalue]
    exact ⟨_, .cons rfl .nil, .asked hname .nil⟩

/-- A part that fails ends the whole, whatever would be finished after it. -/
theorem Finishes.of_error {α β : Type} {run run' : Run σ} {nodes : List Node} {e : ExpansionError}
    (h : Finishes resolve run nodes ((.error e, run') : Outcome σ α)) (after : List Node) :
    Finishes resolve run (nodes ++ after) ((.error e, run') : Outcome σ β) := by
  obtain ⟨calls, hcalls, -, herror⟩ := h
  refine ⟨calls, hcalls, nofun, ?_⟩
  rintro _ ⟨rfl⟩
  cases herror e rfl with
  | finish hlooksUp hfinish =>
    rw [List.append_assoc]
    exact .finish hlooksUp hfinish

/-- A part that succeeds and the part after it. -/
theorem Finishes.trans {α β : Type} {run run' : Run σ} {nodes nodes' : List Node} {a : α}
    {outcome : Outcome σ β} (h : Finishes resolve run nodes ((.ok a, run') : Outcome σ α))
    (h' : Finishes resolve run' nodes' outcome) :
    Finishes resolve run (nodes ++ nodes') outcome := by
  obtain ⟨calls, hcalls, hok, -⟩ := h
  obtain ⟨calls', hcalls', hok', herror'⟩ := h'
  have hlooksUp := hok a rfl
  refine ⟨calls ++ calls', hcalls.append hcalls', fun b hb => hlooksUp.append (hok' b hb), ?_⟩
  intro e he
  cases herror' e he with
  | finish hlooksUp' hfinish =>
    rw [← List.append_assoc]
    refine .finish ?_ hfinish
    rw [List.append_assoc]
    exact hlooksUp.append hlooksUp'

theorem finishes_nil {α : Type} (run : Run σ) (a : α) :
    Finishes resolve run [] ((.ok a, run) : Outcome σ α) :=
  ⟨[], .nil, fun _ _ => .nil, nofun⟩

theorem finishes_finish (resolve : Text → σ → Option Text × σ) (name : Text) (op : Option Operator)
    (words : List Node) (nesting : Nat) (source : Text) (given : Option Text) (texts : List Text)
    (run : Run σ) :
    Finishes resolve run [.expansion name op words nesting source]
      (run.finish (.standard resolve) name op source given texts) := by
  obtain ⟨calls, hcalls, hlooksUp⟩ :=
    finish_looksUp resolve name op words nesting source given texts run
  refine ⟨calls, hcalls, fun _ _ => hlooksUp, fun e he => ?_⟩
  show FailsIn _ _ ([] ++ _) _ _ _
  exact .finish hlooksUp (Prod.ext he rfl)

mutual

/-- The expansions of a tree are finished in post-order. -/
theorem expand_finishes (resolve : Text → σ → Option Text × σ) :
    ∀ (node : Node) (run : Run σ),
      Finishes resolve run node.postorder (node.expand (.standard resolve) run)
  | .text value, run => finishes_nil run value
  | .sequence nodes, run => by
    have hnodes := expandAll_finishes resolve nodes run
    rw [Node.expand, Node.postorder]
    generalize Node.expandAll (.standard resolve) nodes run = outcome at hnodes ⊢
    obtain ⟨e | texts, run'⟩ := outcome
    · simpa using hnodes.of_error []
    · simpa using hnodes.trans (finishes_nil run' texts.flatten)
  | .expansion name op words nesting source, run => by
    have hwords := expandAll_finishes resolve words run
    rw [Node.expand, Node.postorder]
    simp only [Run.consult]
    generalize Node.expandAll (.standard resolve) words run = outcome at hwords ⊢
    obtain ⟨e | texts, run'⟩ := outcome
    · exact hwords.of_error _
    · exact hwords.trans (finishes_finish resolve name op words nesting source none texts run')

/-- The expansions of several trees are finished tree by tree. -/
theorem expandAll_finishes (resolve : Text → σ → Option Text × σ) :
    ∀ (nodes : List Node) (run : Run σ),
      Finishes resolve run (Node.postorderAll nodes) (Node.expandAll (.standard resolve) nodes run)
  | [], run => finishes_nil run []
  | node :: nodes, run => by
    have hnode := expand_finishes resolve node run
    rw [Node.expandAll, Node.postorderAll]
    generalize node.expand (.standard resolve) run = outcome at hnode ⊢
    obtain ⟨e | text, run'⟩ := outcome
    · exact hnode.of_error _
    · have hnodes := expandAll_finishes resolve nodes run'
      simp only
      generalize Node.expandAll (.standard resolve) nodes run' = outcome at hnodes ⊢
      obtain ⟨e | texts, run''⟩ := outcome
      · simpa using hnode.trans (hnodes.of_error [])
      · simpa using hnode.trans (hnodes.trans (finishes_nil run'' (text :: texts)))

end

theorem FailsIn.mapCaller {τ : Type} {g : σ → τ} {mapping : Mapping σ} {mapping' : Mapping τ}
    {taken : Set Text} {nodes : List Node} {calls : List (Text × Option Text)}
    {e : ExpansionError} {run : Run σ} (h : FailsIn mapping taken nodes calls e run)
    (hsimulates : Simulates g mapping mapping' fun _ => Eq) :
    FailsIn mapping' taken nodes calls e (run.mapCaller g) := by
  cases h with
  | finish hlooksUp hfinish => exact .finish hlooksUp (hsimulates.finish_eq hfinish)

end

namespace Template

/-- The calls that a caller writes down are those that finish the tree. -/
theorem finishes_recorded [Engine] {root : Node} {caller : σ} {result : Except ExpansionError Text}
    {run : Run (σ × List (Text × Option Text))}
    (hrun : execute (.standard (recorded resolve)) root (caller, []) = (result, run)) :
    Answers resolve caller run.caller.2 run.caller.1 ∧
      (∀ text, result = .ok text →
        LooksUp ∅ root.postorder run.caller.2 (assignedNames run.assigned)) ∧
      ∀ e, result = .error e →
        FailsIn (.standard (recorded resolve)) ∅ root.postorder run.caller.2 e run := by
  have hfinishes := expand_finishes (recorded resolve) root { caller := (caller, []) }
  rw [execute] at hrun
  rw [hrun, Finishes, assignedNames_nil] at hfinishes
  obtain ⟨calls, hcalls, hok, herror⟩ := hfinishes
  obtain ⟨hanswers, rfl⟩ := hcalls.of_recorded
  exact ⟨hanswers, hok, herror⟩

/-- In a tree that assigns nothing, every name is asked for. -/
theorem names_of_assignsNothing [Engine] {root : Node} {caller : σ} {text : Text}
    {run : Run (σ × List (Text × Option Text))} (hroot : root.AssignsNothing)
    (hrun : execute (.standard (recorded resolve)) root (caller, []) = (.ok text, run)) :
    run.caller.2.map Prod.fst = root.postorder.filterMap Node.parameter? := by
  refine ((finishes_recorded hrun).2.1 text rfl).names fun name test words nesting source hmem => ?_
  exact hroot name test words nesting source (root.postorder_perm.mem_iff.1 hmem)

/-- **Which names a caller is asked for, and in what order.**  `calls` are the calls of a run, as
the caller writes them down.

They follow the post-order of the tree, with those expansions left out whose name has been assigned
by an expansion that was finished before.  A run that fails has made the calls up to the expansion
whose operator fails.  In a tree that assigns nothing every name is asked for, so that two runs that
succeed ask for the same names in the same order, whatever they are answered. -/
theorem standard_looksUp [Engine] {root : Node} {caller last : σ}
    {calls : List (Text × Option Text)} {result : Except ExpansionError Text} {assigned : List (Text × Text)} {events : List Event}
    (hrun : execute (.standard (recorded resolve)) root (caller, [])
      = (result, ⟨(last, calls), assigned, events⟩)) :
    execute (.standard resolve) root caller = (result, ⟨last, assigned, events⟩) ∧
      Answers resolve caller calls last ∧
      (∀ text, result = .ok text → LooksUp ∅ root.postorder calls (assignedNames assigned)) ∧
      (∀ e, result = .error e →
        FailsIn (.standard resolve) ∅ root.postorder calls e ⟨last, assigned, events⟩) ∧
      (root.AssignsNothing → ∀ text, result = .ok text →
        calls.map Prod.fst = root.postorder.filterMap Node.parameter? ∧
          ∀ (τ : Type) (resolve' : Text → τ → Option Text × τ) (caller' : τ) (text' : Text)
            (run' : Run (τ × List (Text × Option Text))),
            execute (.standard (recorded resolve')) root (caller', []) = (.ok text', run') →
              run'.caller.2.map Prod.fst = calls.map Prod.fst) := by
  have hplain : execute (.standard resolve) root caller = (result, ⟨last, assigned, events⟩) :=
    (simulates_recorded_standard resolve).execute_eq hrun
  obtain ⟨hanswers, hok, herror⟩ := finishes_recorded hrun
  refine ⟨hplain, hanswers, hok, fun e he => ?_, fun hroot text htext => ?_⟩
  · exact (herror e he).mapCaller (simulates_recorded_standard resolve)
  · subst htext
    have hnames := names_of_assignsNothing hroot hrun
    refine ⟨hnames, fun τ resolve' caller' text' run' hrun' => ?_⟩
    rw [names_of_assignsNothing hroot hrun']
    exact hnames.symm

attribute [local instance] Engine.standard

theorem standard_looksUp_assigned :
    ∃ events,
      execute (.standard (recorded fun _ n => (none, n + 1)))
          (.sequence [.expansion ['a'] (some (.assign .unset)) [.expansion ['b'] none [] 1 ['$', 'b']] 0
              ['$', '{', 'a', '=', '$', 'b', '}'], .expansion ['a'] none [] 0 ['$', 'a']]) (0, [])
        = (.ok [], ⟨(2, [(['b'], none), (['a'], none)]), [(['a'], [])], events⟩) ∧
      LooksUp ∅ [.expansion ['b'] none [] 1 ['$', 'b'],
          .expansion ['a'] (some (.assign .unset)) [.expansion ['b'] none [] 1 ['$', 'b']] 0
            ['$', '{', 'a', '=', '$', 'b', '}'],
          .expansion ['a'] none [] 0 ['$', 'a']]
        [(['b'], none), (['a'], none)] (assignedNames [(['a'], [])]) := by
  have hrun : execute (.standard (recorded fun _ n => (none, n + 1)))
      (.sequence [.expansion ['a'] (some (.assign .unset)) [.expansion ['b'] none [] 1 ['$', 'b']] 0
          ['$', '{', 'a', '=', '$', 'b', '}'], .expansion ['a'] none [] 0 ['$', 'a']]) (0, [])
      = (.ok [], ⟨(2, [(['b'], none), (['a'], none)]), [(['a'], [])],
          [.expanded ['$', 'a'] [], .expanded ['$', '{', 'a', '=', '$', 'b', '}'] [],
            .expanded ['$', 'b'] []]⟩) :=
    rfl
  exact ⟨_, hrun, (standard_looksUp hrun).2.2.1 [] rfl⟩

end Template

end ShellExpansion
