import ShellExpansion.Proofs.Expansion.Lookups
import ShellExpansion.Proofs.Template.Concatenation
import Mathlib

/-!
# Expansions one after the other

The tree of two texts is made of the pieces of both, and pieces are expanded one after the other
(`execute_append`).  What the first run leaves behind is the state of the caller and the values that
it assigned; the events that it notes make no difference to the second (`Node.expand_congr`).  So two
texts are expanded as each of them is, if the caller has no memory and the first assigns nothing.

* `Node.expand_ofPieces` : merging pieces does not change what they become.
* `execute_append` : **runs one after the other**, for any caller.
* `Node.expand_assigned` : a tree without assignments leaves the assigned values as they are.
* `evaluate_append` : **reading and expanding distribute over concatenation.**
-/

namespace ShellExpansion

variable {σ : Type}

/-! ## One run after another -/

/-- The texts of two runs one after the other; the second is made only if the first does not fail. -/
def Outcome.andThen (outcome : Outcome σ Text) (next : Run σ → Outcome σ Text) : Outcome σ Text :=
  match outcome with
  | (.error e, run) => (.error e, run)
  | (.ok text, run) =>
    match next run with
    | (.error e, run) => (.error e, run)
    | (.ok text', run) => (.ok (text ++ text'), run)

theorem Outcome.andThen_nil (run : Run σ) (next : Run σ → Outcome σ Text) :
    Outcome.andThen (.ok [], run) next = next run := by
  rw [Outcome.andThen]
  rcases next run with ⟨_ | _, _⟩ <;> rfl

theorem Outcome.andThen_assoc (outcome : Outcome σ Text) (next next' : Run σ → Outcome σ Text) :
    (outcome.andThen next).andThen next' = outcome.andThen fun run => (next run).andThen next' := by
  rcases outcome with ⟨_ | text, run⟩
  · rfl
  · simp only [Outcome.andThen]
    rcases next run with ⟨_ | text', run'⟩
    · rfl
    · simp only
      rcases next' run' with ⟨_ | text'', run''⟩
      · rfl
      · simp only [List.append_assoc]

/-- Two texts may be put together before a run or in front of it. -/
theorem Outcome.andThen_append (a b : Text) (run : Run σ) (next : Run σ → Outcome σ Text) :
    Outcome.andThen (.ok (a ++ b), run) next
      = Outcome.andThen (.ok a, run) fun run => Outcome.andThen (.ok b, run) next :=
  Outcome.andThen_assoc (.ok a, run) (fun run => (.ok b, run)) next

namespace Node

/-! ## Pieces one after the other -/

section

variable [Engine] (mapping : Mapping σ)

theorem expand_sequence_nil (run : Run σ) : (sequence []).expand mapping run = (.ok [], run) := rfl

theorem expand_sequence_cons (node : Node) (nodes : List Node) (run : Run σ) :
    (sequence (node :: nodes)).expand mapping run
      = Outcome.andThen (node.expand mapping run) ((sequence nodes).expand mapping) := by
  rw [expand, expandAll]
  rcases node.expand mapping run with ⟨_ | text, run'⟩
  · rfl
  · simp only [Outcome.andThen, expand]
    rcases expandAll mapping nodes run' with ⟨_ | texts, run''⟩ <;> rfl

theorem expand_sequence_append (nodes nodes' : List Node) (run : Run σ) :
    (sequence (nodes ++ nodes')).expand mapping run
      = Outcome.andThen ((sequence nodes).expand mapping run)
          ((sequence nodes').expand mapping) := by
  induction nodes generalizing run with
  | nil => rw [List.nil_append, expand_sequence_nil, Outcome.andThen_nil]
  | cons node nodes ih =>
    rw [List.cons_append, expand_sequence_cons, expand_sequence_cons, Outcome.andThen_assoc]
    exact congrArg _ (funext ih)

/-- Two texts side by side become the same as one. -/
theorem expand_sequence_joinPiece (piece : Node) (nodes : List Node) (run : Run σ) :
    (sequence (joinPiece piece nodes)).expand mapping run
      = (sequence (piece :: nodes)).expand mapping run := by
  cases piece with
  | text a =>
    cases a with
    | nil => rw [joinPiece_text_nil, expand_sequence_cons, expand, Outcome.andThen_nil]
    | cons c a =>
      rw [joinPiece_text_cons]
      rcases nodes with _ | ⟨b | _ | _, nodes⟩
      · rfl
      · rw [expand_sequence_cons, expand_sequence_cons, expand, expand, Outcome.andThen_append]
        refine congrArg _ (funext fun run => ?_)
        rw [expand_sequence_cons, expand]
      · rfl
      · rfl
  | expansion name op words nesting source => rfl
  | sequence nodes' => rfl

theorem expand_sequence_mergeText (pieces : List Node) (run : Run σ) :
    (sequence (mergeText pieces)).expand mapping run = (sequence pieces).expand mapping run := by
  induction pieces generalizing run with
  | nil => rfl
  | cons piece pieces ih =>
    rw [mergeText_cons, expand_sequence_joinPiece, expand_sequence_cons, expand_sequence_cons]
    exact congrArg _ (funext ih)

/-- The node of a run of pieces becomes what the pieces become one after the other. -/
theorem expand_ofPieces (pieces : List Node) (run : Run σ) :
    (ofPieces pieces).expand mapping run = (sequence pieces).expand mapping run := by
  rw [← expand_sequence_mergeText, ofPieces]
  rcases mergeText pieces with _ | ⟨node, _ | ⟨node', nodes⟩⟩
  · rfl
  · have hsequence : (sequence []).expand mapping = fun run => (.ok [], run) :=
      funext (expand_sequence_nil mapping)
    rw [expand_sequence_cons, hsequence]
    simp only [Outcome.andThen]
    rcases node.expand mapping run with ⟨_ | text, run'⟩
    · rfl
    · simp only [List.append_nil]
  · rfl

end

end Node

/-! ## What a run leaves behind -/

section

variable [Engine]

/-- The states of the caller and the assigned values are the same; the events need not be. -/
def Run.SameState (run run' : Run σ) : Prop :=
  run.caller = run'.caller ∧ run.assigned = run'.assigned

theorem respects_sameState (mapping : Mapping σ) :
    Respects Run.SameState mapping mapping (fun _ => Eq) fun _ => True where
  decides request run run' hrun := by
    have hdecision : (run.consult mapping request).1 = (run'.consult mapping request).1 := by
      cases mapping with
      | standard resolve => rfl
      | advanced decide => exact congrArg (fun caller => (decide request caller).1) hrun.1
    rw [hdecision]
    exact .refl _
  consults request run run' hrun := by
    cases mapping with
    | standard resolve => exact hrun
    | advanced decide =>
      exact ⟨congrArg (fun caller => (decide request caller).2) hrun.1, hrun.2⟩
  notes event run run' hrun := hrun
  finishes name op source value value' words run run' _ hgiven hrun := by
    obtain ⟨caller, assigned, events⟩ := run
    obtain ⟨caller', assigned', events'⟩ := run'
    obtain ⟨rfl, rfl⟩ := hrun
    subst hgiven
    -- the runs differ in their events only, and these are not looked at
    have hassigned : Run.assigned? ⟨caller, assigned, events⟩ name
        = Run.assigned? ⟨caller, assigned, events'⟩ name := rfl
    rw [finish_eq, finish_eq, valueOf_eq, valueOf_eq, hassigned]
    cases Run.assigned? ⟨caller, assigned, events'⟩ name <;> exact ⟨rfl, rfl, rfl⟩

/-- What a node becomes does not depend on what has happened before, apart from the state of the
caller and the assigned values. -/
theorem Node.expand_congr (mapping : Mapping σ) (node : Node) {run run' : Run σ}
    (h : run.SameState run') : (node.expand mapping run).1 = (node.expand mapping run').1 :=
  (expand_alike (respects_sameState mapping) node run run' (fun _ _ _ _ _ _ => trivial) h).1

theorem Node.expandAll_congr (mapping : Mapping σ) (nodes : List Node) {run run' : Run σ}
    (h : run.SameState run') :
    (Node.expandAll mapping nodes run).1 = (Node.expandAll mapping nodes run').1 :=
  (expandAll_alike (respects_sameState mapping) nodes run run' (fun _ _ _ _ _ _ => trivial) h).1

/-- No operator of this kind gives a variable a value. -/
def NeverAssigns (op : Option Operator) : Prop := ∀ test, op ≠ some (.assign test)

theorem respects_assigned (mapping : Mapping σ) (assigned : List (Text × Text)) :
    Respects (fun run run' => run = run' ∧ run.assigned = assigned) mapping mapping (fun _ => Eq)
      NeverAssigns where
  decides request run run' hrun := by
    obtain ⟨rfl, -⟩ := hrun
    exact .refl _
  consults request run run' hrun := by
    obtain ⟨rfl, hassigned⟩ := hrun
    cases mapping <;> exact ⟨rfl, hassigned⟩
  notes event run run' hrun := by
    obtain ⟨rfl, hassigned⟩ := hrun
    exact ⟨rfl, hassigned⟩
  finishes name op source value value' words run run' hop hgiven hrun := by
    obtain ⟨rfl, hassigned⟩ := hrun
    subst hgiven
    refine ⟨rfl, rfl, ?_⟩
    rw [finish_eq]
    simp only [hassigned]
    rcases op with _ | op
    · rfl
    · cases op with
      | assign test => exact absurd rfl (hop test)
      | _ => rfl

omit [Engine] in
theorem Node.assignsNothing_iff {node : Node} :
    node.AssignsNothing ↔ OperatorsIn NeverAssigns node.expansions := by
  constructor
  · rintro h name op words nesting source hmem test rfl
    exact h name test words nesting source hmem
  · intro h name test words nesting source hmem
    exact h name _ words nesting source hmem test rfl

/-- A tree without assignments leaves the assigned values as they are. -/
theorem Node.expand_assigned (mapping : Mapping σ) {node : Node} (h : node.AssignsNothing)
    (run : Run σ) : (node.expand mapping run).2.assigned = run.assigned :=
  (expand_alike (respects_assigned mapping run.assigned) node run run (assignsNothing_iff.1 h)
    ⟨rfl, rfl⟩).2.2

theorem Node.expandAll_assigned (mapping : Mapping σ) {nodes : List Node}
    (h : OperatorsIn NeverAssigns (Node.expansionsAll nodes)) (run : Run σ) :
    (Node.expandAll mapping nodes run).2.assigned = run.assigned :=
  (expandAll_alike (respects_assigned mapping run.assigned) nodes run run h ⟨rfl, rfl⟩).2.2

end

namespace Template

open Grammar

/-! ## Two texts -/

/-- **Runs one after the other.**  The pieces of two trees, put together, are expanded one after the
other: the second run starts with the caller and the assignments that the first one leaves. -/
theorem execute_append [Engine] (mapping : Mapping σ) (firsts more : List Node) (caller : σ) :
    execute mapping (.ofPieces (firsts ++ more)) caller
      = Outcome.andThen (execute mapping (.ofPieces firsts) caller)
          ((Node.ofPieces more).expand mapping) := by
  have hmore : (Node.ofPieces more).expand mapping = (Node.sequence more).expand mapping :=
    funext (Node.expand_ofPieces mapping more)
  rw [execute, execute, Node.expand_ofPieces, Node.expand_ofPieces, hmore,
    Node.expand_sequence_append]

/-- Without memory and without assignments nothing of the first run matters to the second. -/
theorem execute_append_pure [Engine] (values : Text → Option Text) {firsts more : List Node}
    (h : (Node.ofPieces firsts).AssignsNothing) :
    (execute (pureMapping values) (.ofPieces (firsts ++ more)) ()).1 = do
      let text ← (execute (pureMapping values) (.ofPieces firsts) ()).1
      let text' ← (execute (pureMapping values) (.ofPieces more) ()).1
      return text ++ text' := by
  have hassigned := Node.expand_assigned (pureMapping values) h { caller := () }
  rw [execute_append, execute, execute]
  generalize (Node.ofPieces firsts).expand (pureMapping values) { caller := () } = outcome
    at hassigned ⊢
  obtain ⟨result, run⟩ := outcome
  cases result with
  | error e => rfl
  | ok text =>
    have hstate : run.SameState { caller := () } := ⟨rfl, hassigned⟩
    have hresult := Node.expand_congr (pureMapping values) (.ofPieces more) hstate
    rw [← hresult, Outcome.andThen]
    rcases (Node.ofPieces more).expand (pureMapping values) run with ⟨_ | text', run'⟩ <;> rfl

theorem evaluateWith_of_parse [Engine] {limit : Nat} {input : Text} {root : Node}
    (h : parse limit input = .ok root) (mapping : Mapping σ) (caller : σ) :
    evaluateWith limit mapping input caller = execute mapping root caller := by
  rw [evaluateWith, read, h]
  rfl

/-- **Reading and expanding distribute over concatenation.**  Let a text be read that ends neither in
a dollar nor in a reference whose name the next text would make longer.  Then both texts together are
read exactly if the next one is, and are wrong for the same reason if it is not.  Their tree is made
of the pieces of both; and if the first text assigns nothing, then, whatever the values, they become
what the first and the next become, with the first error of the two. -/
theorem evaluate_append [Engine] {limit : Nat} {a b : Text} {root : Node}
    (ha : parse limit a = .ok root)
    (hdollar : a.getLast? ≠ some '$') (hreference : EndsInReference a → ¬ NameFollows b) :
    ∃ firsts, pieces limit a = .ok firsts ∧ root = .ofPieces firsts ∧
      (∀ fault, parse limit b = .error fault →
        parse limit (a ++ b) = .error fault ∧
          ∀ values, (evaluateWith limit (pureMapping values) (a ++ b) ()).1
            = .error (.parse fault.error (a ++ b))) ∧
      ∀ root', parse limit b = .ok root' →
        ∃ more, pieces limit b = .ok more ∧ root' = .ofPieces more ∧
          parse limit (a ++ b) = .ok (.ofPieces (firsts ++ more)) ∧
          (root.AssignsNothing → ∀ values,
            (evaluateWith limit (pureMapping values) (a ++ b) ()).1 = do
              let text ← (evaluateWith limit (pureMapping values) a ()).1
              let text' ← (evaluateWith limit (pureMapping values) b ()).1
              return text ++ text') := by
  have hroot := ha
  rw [parse_eq_map_pieces] at hroot
  obtain ⟨firsts, hfirsts, rfl⟩ := Parser.except_map_eq_ok hroot
  have happend := parse_append hfirsts ⟨hdollar, hreference⟩
  refine ⟨firsts, hfirsts, rfl, ?_, ?_⟩
  · intro fault hb
    have hmore : pieces limit b = .error fault := by
      rw [parse_eq_map_pieces] at hb
      exact Parser.except_map_eq_error hb
    rw [hmore] at happend
    refine ⟨happend, fun values => ?_⟩
    rw [evaluateWith, read, happend]
    rfl
  · intro root' hb
    have hroot' := hb
    rw [parse_eq_map_pieces] at hroot'
    obtain ⟨more, hmore, rfl⟩ := Parser.except_map_eq_ok hroot'
    rw [hmore] at happend
    refine ⟨more, hmore, rfl, happend, fun hassigns values => ?_⟩
    rw [evaluateWith_of_parse happend, evaluateWith_of_parse ha, evaluateWith_of_parse hb]
    exact execute_append_pure values hassigns

attribute [local instance] Engine.standard

theorem evaluate_append_reference :
    parse 64 ['x', '$', 'y']
        = .ok (.sequence [.text ['x'], .expansion ['y'] none [] 0 ['$', 'y']]) ∧
      parse 64 ['-', '$', '{', 'z', '}']
        = .ok (.sequence [.text ['-'], .expansion ['z'] none [] 0 ['$', '{', 'z', '}']]) ∧
      ∀ values, (evaluateWith 64 (pureMapping values)
          (['x', '$', 'y'] ++ ['-', '$', '{', 'z', '}']) ()).1 = do
        let text ← (evaluateWith 64 (pureMapping values) ['x', '$', 'y'] ()).1
        let text' ← (evaluateWith 64 (pureMapping values) ['-', '$', '{', 'z', '}'] ()).1
        return text ++ text' := by
  have ha : parse 64 ['x', '$', 'y']
      = .ok (.sequence [.text ['x'], .expansion ['y'] none [] 0 ['$', 'y']]) := by
    cbv
  have hb : parse 64 ['-', '$', '{', 'z', '}']
      = .ok (.sequence [.text ['-'], .expansion ['z'] none [] 0 ['$', '{', 'z', '}']]) := by
    cbv
  have hname : isNameChar '-' = false := by decide
  have hassigns : Node.AssignsNothing
      (.sequence [.text ['x'], .expansion ['y'] none [] 0 ['$', 'y']]) := by
    intro name test words nesting source hmem
    cases List.mem_singleton.1 hmem
  obtain ⟨firsts, -, -, -, hok⟩ :=
    evaluate_append ha (by decide) fun _ => Parser.not_nameFollows_cons hname
  obtain ⟨more, -, -, -, heval⟩ := hok _ hb
  exact ⟨ha, hb, heval hassigns⟩

end Template

end ShellExpansion
