import ShellExpansion.Proofs.Expansion.Consultation

/-!
# Assigned values

A run is a sequence of moves, each of which starts, stops or finishes an expansion
(`Run.Steps mapping run moves run'`).  The only ones that change an assigned value finish an
assignment, and where a variable has an assigned value nobody else is asked for one.

* `Node.expand_steps` : a run makes the moves of its tree.
* `finish_of_assigned` : the last step of an expansion whose variable was assigned a value.
* `Run.Step.keeps`, `Run.Step.assigner` : what one move does to an assigned value.
* `Run.Steps.keeps`, `Run.Steps.assigner` : what many do, by induction on the moves.
* `assigned_values_stay` : **a value stays assigned for the rest of a run.**
-/

namespace ShellExpansion

variable {σ : Type}

/-! ## The moves of a run -/

/-- What a run does next. -/
inductive Move where
  /-- The caller takes the place of an expansion. -/
  | stop (request : Request) (text : Text)
  /-- The words of an expansion are next, and the caller has given this value before them. -/
  | start (request : Request) (given : Option Text)
  /-- An expansion ends whose words are known. -/
  | finish (name : Text) (op : Option Operator) (source : Text) (given : Option Text)
      (texts : List Text)

/-- The move finishes an assignment of this value. -/
def Move.Assigns (move : Move) (name : Text) (test : MissingTest) (value : Text) : Prop :=
  ∃ source given texts, move = .finish name (some (.assign test)) source given texts ∧
    wordAt texts 0 = value

section

variable [Engine]

namespace Run

/-- A move takes a run from one state to the next. -/
inductive Step (mapping : Mapping σ) : Run σ → Move → Run σ → Prop
  | stop {run run' : Run σ} {request : Request} {text : Text}
      (h : run.consult mapping request = (.stop text, run')) :
      Step mapping run (.stop request text) (run'.note (.verbatim request.source text))
  | start {run run' : Run σ} {request : Request} {given : Option Text}
      (h : run.consult mapping request = (.proceed given, run')) :
      Step mapping run (.start request given) run'
  | finish {run run' : Run σ} {name source : Text} {op : Option Operator} {given : Option Text}
      {texts : List Text} {result : Except ExpansionError Text}
      (h : run.finish mapping name op source given texts = (result, run')) :
      Step mapping run (.finish name op source given texts) run'

/-- Several moves, one after the other. -/
inductive Steps (mapping : Mapping σ) : Run σ → List Move → Run σ → Prop
  | nil {run : Run σ} : Steps mapping run [] run
  | cons {run run' last : Run σ} {move : Move} {moves : List Move}
      (head : Step mapping run move run') (tail : Steps mapping run' moves last) :
      Steps mapping run (move :: moves) last

section

variable {mapping : Mapping σ} {run mid last : Run σ} {moves moves' : List Move}

theorem Step.unique {move : Move} {run' run'' : Run σ} (h : Step mapping run move run')
    (h' : Step mapping run move run'') : run' = run'' := by
  cases h with
  | stop h =>
    cases h' with
    | stop h' =>
      rw [h] at h'
      cases h'
      rfl
  | start h =>
    cases h' with
    | start h' =>
      rw [h] at h'
      cases h'
      rfl
  | finish h =>
    cases h' with
    | finish h' =>
      rw [h] at h'
      cases h'
      rfl

/-- The moves determine where they lead. -/
theorem Steps.unique {last' : Run σ} (h : Steps mapping run moves last)
    (h' : Steps mapping run moves last') : last = last' := by
  induction h with
  | nil =>
    cases h' with
    | nil => rfl
  | cons head tail ih =>
    cases h' with
    | cons head' tail' =>
      cases head.unique head'
      exact ih tail'

theorem Steps.append (h : Steps mapping run moves mid) (h' : Steps mapping mid moves' last) :
    Steps mapping run (moves ++ moves') last := by
  induction h with
  | nil => exact h'
  | cons head tail ih => exact .cons head (ih h')

theorem Steps.exists_of_append (h : Steps mapping run (moves ++ moves') last) :
    ∃ mid, Steps mapping run moves mid ∧ Steps mapping mid moves' last := by
  induction moves generalizing run with
  | nil => exact ⟨run, .nil, h⟩
  | cons move moves ih =>
    cases h with
    | cons head tail =>
      obtain ⟨mid, hmoves, hmoves'⟩ := ih tail
      exact ⟨mid, .cons head hmoves, hmoves'⟩

end

end Run

namespace Node

mutual

/-- The moves that expand a node. -/
def moves (mapping : Mapping σ) : Node → Run σ → List Move
  | text _, _ => []
  | sequence nodes, run => movesAll mapping nodes run
  | expansion name op words nesting source, run =>
    match run.consult mapping (requestFor name op words nesting source) with
    | (.stop replacement, _) => [.stop (requestFor name op words nesting source) replacement]
    | (.proceed given, run) =>
      .start (requestFor name op words nesting source) given :: (movesAll mapping words run ++
        match expandAll mapping words run with
        | (.error _, _) => []
        | (.ok texts, _) => [.finish name op source given texts])

/-- The moves that expand nodes from left to right, up to the first that fails. -/
def movesAll (mapping : Mapping σ) : List Node → Run σ → List Move
  | [], _ => []
  | node :: nodes, run =>
    node.moves mapping run ++
      match node.expand mapping run with
      | (.error _, _) => []
      | (.ok _, run) => movesAll mapping nodes run

end

variable {mapping : Mapping σ}

mutual

/-- A run makes the moves of its tree. -/
theorem expand_steps : ∀ (node : Node) (run : Run σ),
    run.Steps mapping (node.moves mapping run) (node.expand mapping run).2
  | text value, run => .nil
  | sequence nodes, run => by
    have hnodes := expandAll_steps nodes run
    rw [moves, expand]
    generalize expandAll mapping nodes run = outcome at hnodes ⊢
    obtain ⟨e | texts, run'⟩ := outcome <;> exact hnodes
  | expansion name op words nesting source, run => by
    rw [moves, expand]
    rcases hconsult : run.consult mapping (requestFor name op words nesting source) with
      ⟨replacement | given, run'⟩
    · rw [requestFor] at hconsult
      rw [hconsult]
      exact .cons (.stop hconsult) .nil
    · have hwords := expandAll_steps words run'
      have hstart := Run.Step.start hconsult
      rw [requestFor] at hconsult
      rw [hconsult]
      simp only
      generalize expandAll mapping words run' = outcome at hwords ⊢
      obtain ⟨e | texts, run''⟩ := outcome
      · exact .cons hstart (hwords.append .nil)
      · exact .cons hstart (hwords.append (.cons (.finish rfl) .nil))

/-- The same for several trees. -/
theorem expandAll_steps : ∀ (nodes : List Node) (run : Run σ),
    run.Steps mapping (movesAll mapping nodes run) (expandAll mapping nodes run).2
  | [], run => .nil
  | node :: nodes, run => by
    have hnode := expand_steps node run
    rw [movesAll, expandAll]
    generalize node.expand mapping run = outcome at hnode ⊢
    obtain ⟨e | text, run'⟩ := outcome
    · exact hnode.append .nil
    · have hnodes := expandAll_steps nodes run'
      simp only
      generalize expandAll mapping nodes run' = outcome at hnodes ⊢
      obtain ⟨e | texts, run''⟩ := outcome <;> exact hnode.append hnodes

end

mutual

/-- What a run finishes are expansions of its tree. -/
theorem mem_expansions_of_finish {name source : Text} {op : Option Operator} {given : Option Text}
    {texts : List Text} : ∀ (node : Node) (run : Run σ),
      .finish name op source given texts ∈ node.moves mapping run →
        ∃ words nesting, .expansion name op words nesting source ∈ node.expansions
  | text value, run, h => by cases h
  | sequence nodes, run, h => mem_expansionsAll_of_finish nodes run h
  | expansion name' op' words nesting source', run, h => by
    rw [moves] at h
    generalize run.consult mapping (requestFor name' op' words nesting source') = consulted at h
    obtain ⟨replacement | given', run'⟩ := consulted
    · simp at h
    · simp only at h
      rcases List.mem_append.1 ((List.mem_cons.1 h).resolve_left nofun) with hwords | hfinish
      · obtain ⟨inner, depth, hmem⟩ := mem_expansionsAll_of_finish words run' hwords
        exact ⟨inner, depth, List.mem_cons_of_mem _ hmem⟩
      · generalize expandAll mapping words run' = outcome at hfinish
        obtain ⟨e | texts', run''⟩ := outcome
        · cases hfinish
        · cases List.mem_singleton.1 hfinish
          exact ⟨words, nesting, List.mem_cons_self⟩

/-- The same for several trees. -/
theorem mem_expansionsAll_of_finish {name source : Text} {op : Option Operator}
    {given : Option Text} {texts : List Text} : ∀ (nodes : List Node) (run : Run σ),
      .finish name op source given texts ∈ movesAll mapping nodes run →
        ∃ words nesting, .expansion name op words nesting source ∈ expansionsAll nodes
  | [], run, h => by cases h
  | node :: nodes, run, h => by
    rw [movesAll] at h
    rcases List.mem_append.1 h with hnode | hnodes
    · obtain ⟨words, nesting, hmem⟩ := mem_expansions_of_finish node run hnode
      exact ⟨words, nesting, List.mem_append_left _ hmem⟩
    · generalize node.expand mapping run = outcome at hnodes
      obtain ⟨e | text, run'⟩ := outcome
      · cases hnodes
      · obtain ⟨words, nesting, hmem⟩ := mem_expansionsAll_of_finish nodes run' hnodes
        exact ⟨words, nesting, List.mem_append_right _ hmem⟩

end

end Node

/-! ## One move -/

section

variable {mapping : Mapping σ} {run run' : Run σ} {name source value : Text}
  {op : Option Operator} {given : Option Text} {texts : List Text}
  {result : Except ExpansionError Text}

/-- Where a variable was assigned a value, an expansion ends with it, and the caller does not
matter. -/
theorem finish_of_assigned (h : run.assigned? name = some value) :
    run.finish mapping name op source given texts
      = (yields op name (some value) texts,
          { caller := run.caller
            assigned := assignment op name (some value) texts ++ run.assigned
            events := happenings op name source (some value) texts ++ run.events }) := by
  have hvalue : run.valueOf mapping name given = (some value, run) := by
    rw [valueOf_eq, h]
  rw [finish_eq, hvalue]

/-- The end of an expansion changes no assigned value but that of its own variable, if it is an
assignment that finds the value missing. -/
theorem finish_assigned? (other : Text)
    (h : run.finish mapping name op source given texts = (result, run')) :
    run'.assigned? other = run.assigned? other ∨
      ∃ test, op = some (.assign test) ∧ other = name ∧
        test.isMissing (run.valueOf mapping name given).1 = true ∧
        run'.assigned? other = some (wordAt texts 0) := by
  rw [finish_eq] at h
  cases h
  simp only [Run.assigned?]
  generalize (run.valueOf mapping name given).1 = value
  rcases op with _ | op
  · exact .inl rfl
  cases op with
  | assign test =>
    by_cases hmissing : test.isMissing value = true
    · have hassignment : assignment (some (.assign test)) name value texts
          = [(name, wordAt texts 0)] := if_pos hmissing
      rw [hassignment, List.singleton_append, List.lookup_cons]
      by_cases hname : other = name
      · subst hname
        exact .inr ⟨test, rfl, rfl, hmissing, by rw [beq_self_eq_true]⟩
      · rw [beq_false_of_ne hname]
        exact .inl rfl
    · have hassignment : assignment (some (.assign test)) name value texts = [] :=
        if_neg hmissing
      rw [hassignment]
      exact .inl rfl
  | _ => exact .inl rfl

omit [Engine] in
theorem consult_assigned {request : Request} {decision : Decision}
    (h : run.consult mapping request = (decision, run')) : run'.assigned = run.assigned := by
  cases mapping <;> cases h <;> rfl

/-- What one move does to the assigned values. -/
theorem Run.Step.assigned? {move : Move} (h : Run.Step mapping run move run') (name : Text) :
    run'.assigned? name = run.assigned? name ∨
      ∃ test value, move.Assigns name test value ∧ run'.assigned? name = some value ∧
        ∀ old, run.assigned? name = some old → test = .unsetOrEmpty ∧ old = [] := by
  cases h with
  | stop h =>
    left
    rw [Run.assigned?, Run.note, consult_assigned h, Run.assigned?]
  | start h =>
    left
    rw [Run.assigned?, consult_assigned h, Run.assigned?]
  | @finish _ name' source op given texts result h =>
    rcases finish_assigned? name h with hsame | ⟨test, rfl, rfl, hmissing, hvalue⟩
    · exact .inl hsame
    · refine .inr ⟨test, _, ⟨source, given, texts, rfl, rfl⟩, hvalue, fun old hold => ?_⟩
      rw [valueOf_eq, hold] at hmissing
      obtain ⟨htest, hempty⟩ := (isMissing_iff.1 hmissing).resolve_left (Option.some_ne_none old)
      exact ⟨htest, Option.some.inj hempty⟩

end

/-! ## Many moves -/

section

variable {mapping : Mapping σ} {run last : Run σ} {moves : List Move} {name value : Text}

/-- A value stays assigned.  It is another one in the end only if it was empty and `:=` has assigned
the other one. -/
theorem Run.Steps.keeps (h : Run.Steps mapping run moves last)
    (hvalue : run.assigned? name = some value) :
    ∃ value', last.assigned? name = some value' ∧
      (value' ≠ value → value = [] ∧ ∃ move ∈ moves, move.Assigns name .unsetOrEmpty value') := by
  induction h generalizing value with
  | nil => exact ⟨value, hvalue, fun h => absurd rfl h⟩
  | @cons run run' last move moves head tail ih =>
    rcases head.assigned? name with hsame | ⟨test, next, hassigns, hnext, hold⟩
    · rw [← hsame] at hvalue
      obtain ⟨value', hvalue', hchange⟩ := ih hvalue
      refine ⟨value', hvalue', fun hne => ?_⟩
      obtain ⟨hempty, move', hmem, hassigns⟩ := hchange hne
      exact ⟨hempty, move', List.mem_cons_of_mem _ hmem, hassigns⟩
    · obtain ⟨rfl, hempty⟩ := hold value hvalue
      obtain ⟨value', hvalue', hchange⟩ := ih hnext
      refine ⟨value', hvalue', fun _ => ⟨hempty, ?_⟩⟩
      by_cases hne : value' = next
      · subst hne
        exact ⟨move, List.mem_cons_self, hassigns⟩
      · obtain ⟨-, move', hmem, hassigns'⟩ := hchange hne
        exact ⟨move', List.mem_cons_of_mem _ hmem, hassigns'⟩

/-- A value that a variable has in the end and has not had before was assigned on the way. -/
theorem Run.Steps.assigner (h : Run.Steps mapping run moves last)
    (hvalue : last.assigned? name = some value) (hnone : run.assigned? name ≠ some value) :
    ∃ move ∈ moves, ∃ test, move.Assigns name test value := by
  induction h with
  | nil => exact absurd hvalue hnone
  | @cons run run' last move moves head tail ih =>
    by_cases hrun' : run'.assigned? name = some value
    · rcases head.assigned? name with hsame | ⟨test, next, hassigns, hnext, -⟩
      · exact absurd (hsame ▸ hrun') hnone
      · rw [hrun'] at hnext
        cases hnext
        exact ⟨move, List.mem_cons_self, test, hassigns⟩
    · obtain ⟨move', hmem, hassigns⟩ := ih hvalue hrun'
      exact ⟨move', List.mem_cons_of_mem _ hmem, hassigns⟩

end

end

namespace Template

/-- **A value stays assigned for the rest of a run.**  Let any run be cut at two points, whoever the
caller is and whichever the mode.  A value that a variable has been assigned at the first point is the
word of an assignment that has been finished before, and the template has an assignment of that
variable.  At the second point the variable is still assigned, with the same value unless that was
empty and `:=` has changed it in between.  And if an expansion of the variable is finished there, then
with the assigned value: it would end in the same way for any other caller, who is not asked. -/
theorem assigned_values_stay [Engine] (mapping : Mapping σ) (root : Node) (caller : σ)
    {earlier between later : List Move}
    (hmoves : root.moves mapping { caller } = earlier ++ between ++ later) :
    ∃ first second, Run.Steps mapping { caller } earlier first ∧
      Run.Steps mapping first between second ∧
      Run.Steps mapping second later (execute mapping root caller).2 ∧
      ∀ name value, first.assigned? name = some value →
        (∃ move ∈ earlier, ∃ test, move.Assigns name test value) ∧
        (∃ test words nesting source,
          .expansion name (some (.assign test)) words nesting source ∈ root.expansions) ∧
        ∃ value', second.assigned? name = some value' ∧
          (value' ≠ value →
            value = [] ∧ ∃ move ∈ between, move.Assigns name .unsetOrEmpty value') ∧
          ∀ op source given texts rest, later = .finish name op source given texts :: rest →
            ∀ (mapping' : Mapping σ) (given' : Option Text),
              second.finish mapping' name op source given' texts
                = (yields op name (some value') texts,
                    { caller := second.caller
                      assigned := assignment op name (some value') texts ++ second.assigned
                      events := happenings op name source (some value') texts
                        ++ second.events }) := by
  have hsteps : Run.Steps mapping { caller } (root.moves mapping { caller })
      (execute mapping root caller).2 := Node.expand_steps root { caller }
  rw [hmoves] at hsteps
  obtain ⟨second, hbefore, hlater⟩ := hsteps.exists_of_append
  obtain ⟨first, hearlier, hbetween⟩ := hbefore.exists_of_append
  refine ⟨first, second, hearlier, hbetween, hlater, fun name value hvalue => ?_⟩
  obtain ⟨move, hmem, test, hassigns⟩ := hearlier.assigner hvalue nofun
  obtain ⟨value', hvalue', hchange⟩ := hbetween.keeps hvalue
  refine ⟨⟨move, hmem, test, hassigns⟩, ?_, value', hvalue', hchange, ?_⟩
  · obtain ⟨source, given, texts, rfl, -⟩ := hassigns
    have hmove : .finish name (some (.assign test)) source given texts
        ∈ root.moves mapping { caller } := by
      rw [hmoves, List.append_assoc]
      exact List.mem_append_left _ hmem
    obtain ⟨words, nesting, hexpansion⟩ := Node.mem_expansions_of_finish root _ hmove
    exact ⟨test, words, nesting, source, hexpansion⟩
  · intro op source given texts rest _ mapping' given'
    exact finish_of_assigned hvalue'

attribute [local instance] Engine.standard

theorem assigned_values_stay_empty :
    ∃ earlier between later : List Move,
      Node.moves (pureMapping fun _ => none)
          (.sequence [.expansion ['v'] (some (.assign .unset)) [.text []] 0 ['$', '{', 'v', '=', '}'],
            .expansion ['v'] (some (.assign .unsetOrEmpty)) [.text ['a']] 0
              ['$', '{', 'v', ':', '=', 'a', '}'],
            .expansion ['v'] none [] 0 ['$', 'v']]) { caller := () }
        = earlier ++ between ++ later ∧
      ∃ first second, Run.Steps (pureMapping fun _ => none) { caller := () } earlier first ∧
        Run.Steps (pureMapping fun _ => none) first between second ∧
        first.assigned? ['v'] = some [] ∧ second.assigned? ['v'] = some ['a'] ∧
        ∀ (mapping' : Mapping Unit) (given' : Option Text),
          (second.finish mapping' ['v'] none ['$', 'v'] given' []).1 = .ok ['a'] := by
  let root : Node :=
    .sequence [.expansion ['v'] (some (.assign .unset)) [.text []] 0 ['$', '{', 'v', '=', '}'],
      .expansion ['v'] (some (.assign .unsetOrEmpty)) [.text ['a']] 0
        ['$', '{', 'v', ':', '=', 'a', '}'],
      .expansion ['v'] none [] 0 ['$', 'v']]
  have hmoves : root.moves (pureMapping fun _ => none) { caller := () }
      = [.start ⟨['v'], ['$', '{', 'v', '=', '}'], some (.assign .unset), 0, 1⟩ none,
          .finish ['v'] (some (.assign .unset)) ['$', '{', 'v', '=', '}'] none [[]]]
        ++ [.start ⟨['v'], ['$', '{', 'v', ':', '=', 'a', '}'], some (.assign .unsetOrEmpty), 0, 1⟩
            none,
          .finish ['v'] (some (.assign .unsetOrEmpty)) ['$', '{', 'v', ':', '=', 'a', '}'] none
            [['a']],
          .start ⟨['v'], ['$', 'v'], none, 0, 0⟩ none]
        ++ [.finish ['v'] none ['$', 'v'] none []] := rfl
  obtain ⟨first, second, hfirst, hsecond, -, hstay⟩ :=
    assigned_values_stay (pureMapping fun _ => none) root () hmoves
  obtain rfl := hfirst.unique (.cons (.start rfl) (.cons (.finish rfl) .nil))
  obtain ⟨-, -, value', hvalue', -, hfinish⟩ := hstay ['v'] [] rfl
  obtain rfl := hsecond.unique (.cons (.start rfl) (.cons (.finish rfl) (.cons (.start rfl) .nil)))
  cases hvalue'
  refine ⟨_, _, _, hmoves, _, _, hfirst, hsecond, rfl, rfl, fun mapping' given' => ?_⟩
  rw [hfinish none ['$', 'v'] none [] [] rfl mapping' given']
  rfl

end Template

end ShellExpansion
