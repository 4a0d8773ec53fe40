import ShellExpansion.Expansion.Template
import ShellExpansion.Proofs.Template.Subtrees

/-!
# Runs and their callers

A run meets its caller at two places only: before the words of an expansion (`Run.consult`) and
after them (`Run.finish`).  Two mappings that do the same at these places do the same on every tree.

* `finish_eq` : the last step of an expansion as a function of the value that its variable has.
* `Respects`, `expand_alike` : **runs that stay alike**, whatever "alike" means, carried from the two
  places to whole trees by induction over the nodes.
* `Simulates`, `expand_mapCaller` : one caller seen as another, on whole trees, and on whole
  templates by `Simulates.execute_eq`.
* `Answers`, `recorded` : the calls of a run, answered one after the other, and a caller who writes
  them down.  Writing down changes nothing (`simulates_recorded_standard`,
  `simulates_recorded_advanced`).
* `execute_advanced_eq_standard` : **the two modes agree for a caller without memory.**
-/

namespace ShellExpansion

variable {σ τ : Type}

/-! ## The last step of an expansion -/

/-- What an expansion yields if its variable has the given value. -/
def yields [Engine] (op : Option Operator) (name : Text) (value : Option Text) (words : List Text) :
    Except ExpansionError Text :=
  match op with
  | none => .ok (value.getD [])
  | some op => (op.apply name value words).result

/-- What an expansion assigns if its variable has the given value. -/
def assignment (op : Option Operator) (name : Text) (value : Option Text) (words : List Text) :
    List (Text × Text) :=
  match op with
  | some (.assign test) => if test.isMissing value then [(name, wordAt words 0)] else []
  | _ => []

/-- What happens, the latest first, when an expansion ends whose variable has the given value. -/
def happenings [Engine] (op : Option Operator) (name source : Text) (value : Option Text)
    (words : List Text) : List Event :=
  match op with
  | none => [.expanded source (value.getD [])]
  | some op =>
    let tried := ((op.apply name value words).trials.map Event.tried).reverse
    match (op.apply name value words).result with
    | .error _ => tried
    | .ok result => .expanded source result :: tried

/-- The value that the caller has for a variable once the words are known. -/
def Mapping.ask (mapping : Mapping σ) (name : Text) (given : Option Text) (caller : σ) :
    Option Text × σ :=
  match mapping with
  | .standard resolve => resolve name caller
  | .advanced _ => (given, caller)

theorem isMissing_iff {test : MissingTest} {value : Option Text} :
    test.isMissing value = true ↔ value = none ∨ test = .unsetOrEmpty ∧ value = some [] := by
  cases test <;> rcases value with _ | ⟨_ | ⟨c, value⟩⟩ <;> simp [MissingTest.isMissing]

theorem assignment_some (op : Operator) (name : Text) (value : Option Text) (words : List Text) :
    assignment (some op) name value words
      = if op.assigns value then [(name, wordAt words 0)] else [] := by
  cases op <;> rfl

/-- An operator that assigns never fails, and what it assigns is its result. -/
theorem result_of_assigns [Engine] {op : Operator} {value : Option Text} (name : Text)
    (words : List Text)
    (h : op.assigns value = true) : (op.apply name value words).result = .ok (wordAt words 0) := by
  cases op with
  | assign test => exact congrArg Except.ok (if_pos h)
  | _ => cases h

section

variable (mapping : Mapping σ) (name : Text) (op : Option Operator) (source : Text)
  (given : Option Text) (words : List Text) (run : Run σ)

/-- Only a variable that was not assigned a value is left to the caller. -/
theorem valueOf_eq :
    run.valueOf mapping name given
      = match run.assigned? name with
        | some value => (some value, run)
        | none =>
          ((mapping.ask name given run.caller).1,
            { run with caller := (mapping.ask name given run.caller).2 }) := by
  unfold Run.valueOf
  cases mapping <;> rfl

theorem valueOf_assigned : (run.valueOf mapping name given).2.assigned = run.assigned := by
  rw [valueOf_eq]
  split <;> rfl

/-- **The last step of an expansion.**  All that it does follows from the value of its variable. -/
theorem finish_eq [Engine] :
    run.finish mapping name op source given words
      = (yields op name (run.valueOf mapping name given).1 words,
          { caller := (run.valueOf mapping name given).2.caller
            assigned :=
              assignment op name (run.valueOf mapping name given).1 words ++ run.assigned
            events :=
              happenings op name source (run.valueOf mapping name given).1 words
                ++ (run.valueOf mapping name given).2.events }) := by
  have hassigned := valueOf_assigned mapping name given run
  unfold Run.finish
  generalize run.valueOf mapping name given = asked at hassigned ⊢
  obtain ⟨value, run'⟩ := asked
  rw [← hassigned]
  rcases op with _ | op
  · rfl
  rw [assignment_some, yields, happenings]
  simp only
  cases hassigns : op.assigns value with
  | true =>
    rw [result_of_assigns name words hassigns]
    rfl
  | false => cases (op.apply name value words).result <;> rfl

end

/-! ## Runs that stay alike -/

/-- Two decisions that differ only in the value that an expansion proceeds with. -/
inductive Decision.Alike (given : Option Text → Option Text → Prop) : Decision → Decision → Prop
  | stop (text : Text) : Alike given (.stop text) (.stop text)
  | proceed {value value' : Option Text} (h : given value value') :
      Alike given (.proceed value) (.proceed value')

theorem Decision.Alike.refl (decision : Decision) : Decision.Alike Eq decision decision := by
  cases decision with
  | stop text => exact .stop text
  | proceed value => exact .proceed rfl

/-- The same result, and runs that are related. -/
def Outcome.Alike {α : Type} (R : Run σ → Run τ → Prop) (outcome : Outcome σ α)
    (outcome' : Outcome τ α) : Prop :=
  outcome.1 = outcome'.1 ∧ R outcome.2 outcome'.2

/-- The operators of these expansions are all of a kind. -/
def OperatorsIn (kind : Option Operator → Prop) (expansions : List Node) : Prop :=
  ∀ name op words nesting source, .expansion name op words nesting source ∈ expansions → kind op

section

variable {kind : Option Operator → Prop} {name source : Text} {op : Option Operator}
  {words nodes : List Node} {node : Node} {nesting : Nat}

theorem OperatorsIn.operator
    (h : OperatorsIn kind (Node.expansion name op words nesting source).expansions) : kind op :=
  h _ _ _ _ _ List.mem_cons_self

theorem OperatorsIn.inside
    (h : OperatorsIn kind (Node.expansion name op words nesting source).expansions) :
    OperatorsIn kind (Node.expansionsAll words) :=
  fun _ _ _ _ _ hmem => h _ _ _ _ _ (List.mem_cons_of_mem _ hmem)

theorem OperatorsIn.head (h : OperatorsIn kind (Node.expansionsAll (node :: nodes))) :
    OperatorsIn kind node.expansions :=
  fun _ _ _ _ _ hmem => h _ _ _ _ _ (List.mem_append_left _ hmem)

theorem OperatorsIn.tail (h : OperatorsIn kind (Node.expansionsAll (node :: nodes))) :
    OperatorsIn kind (Node.expansionsAll nodes) :=
  fun _ _ _ _ _ hmem => h _ _ _ _ _ (List.mem_append_right _ hmem)

end

/-- Two mappings keep runs related wherever a run meets its caller, and so do the events in between.
The values given before the words may differ, as far as `given` allows; of the last steps only those
with an operator of the given kind matter. -/
structure Respects [Engine] (R : Run σ → Run τ → Prop) (mapping : Mapping σ) (mapping' : Mapping τ)
    (given : Text → Option Text → Option Text → Prop) (kind : Option Operator → Prop) : Prop where
  /-- The callers decide alike. -/
  decides : ∀ (request : Request) (run : Run σ) (run' : Run τ), R run run' →
    Decision.Alike (given request.name) (run.consult mapping request).1
      (run'.consult mapping' request).1
  /-- Their decisions keep runs related. -/
  consults : ∀ (request : Request) (run : Run σ) (run' : Run τ), R run run' →
    R (run.consult mapping request).2 (run'.consult mapping' request).2
  /-- Events keep runs related. -/
  notes : ∀ (event : Event) (run : Run σ) (run' : Run τ), R run run' →
    R (run.note event) (run'.note event)
  /-- Expansions whose words are known end alike. -/
  finishes : ∀ (name : Text) (op : Option Operator) (source : Text) (value value' : Option Text)
    (words : List Text) (run : Run σ) (run' : Run τ), kind op → given name value value' →
    R run run' →
    Outcome.Alike R (run.finish mapping name op source value words)
      (run'.finish mapping' name op source value' words)

section

variable [Engine] {R : Run σ → Run τ → Prop} {mapping : Mapping σ} {mapping' : Mapping τ}
  {given : Text → Option Text → Option Text → Prop} {kind : Option Operator → Prop}

mutual

/-- Related runs stay related while a node is expanded, with the same result. -/
theorem expand_alike (h : Respects R mapping mapping' given kind) :
    ∀ (node : Node) (run : Run σ) (run' : Run τ), OperatorsIn kind node.expansions → R run run' →
      Outcome.Alike R (node.expand mapping run) (node.expand mapping' run')
  | .text value, run, run', _, hrun => ⟨rfl, hrun⟩
  | .sequence nodes, run, run', hkind, hrun => by
    have hnodes := expandAll_alike h nodes run run' hkind hrun
    rw [Node.expand, Node.expand]
    generalize Node.expandAll mapping nodes run = outcome at hnodes ⊢
    generalize Node.expandAll mapping' nodes run' = outcome' at hnodes ⊢
    obtain ⟨result, run₁⟩ := outcome
    obtain ⟨result', run₁'⟩ := outcome'
    obtain ⟨rfl, hrun₁⟩ := hnodes
    cases result with
    | error e => exact ⟨rfl, hrun₁⟩
    | ok texts => exact ⟨rfl, hrun₁⟩
  | .expansion name op words nesting source, run, run', hkind, hrun => by
    have hdecides := h.decides ⟨name, source, op, nesting, words.length⟩ run run' hrun
    have hconsults := h.consults ⟨name, source, op, nesting, words.length⟩ run run' hrun
    rw [Node.expand, Node.expand]
    generalize run.consult mapping ⟨name, source, op, nesting, words.length⟩ = consulted
      at hdecides hconsults ⊢
    generalize run'.consult mapping' ⟨name, source, op, nesting, words.length⟩ = consulted'
      at hdecides hconsults ⊢
    obtain ⟨decision, run₁⟩ := consulted
    obtain ⟨decision', run₁'⟩ := consulted'
    simp only at hdecides hconsults
    cases hdecides with
    | stop text => exact ⟨rfl, h.notes _ _ _ hconsults⟩
    | @proceed value value' hgiven =>
      -- the values may differ here; they come together again only when the expansion is finished
      have hwords := expandAll_alike h words run₁ run₁' hkind.inside hconsults
      simp only
      generalize Node.expandAll mapping words run₁ = outcome at hwords ⊢
      generalize Node.expandAll mapping' words run₁' = outcome' at hwords ⊢
      obtain ⟨result, run₂⟩ := outcome
      obtain ⟨result', run₂'⟩ := outcome'
      obtain ⟨rfl, hrun₂⟩ := hwords
      cases result with
      | error e => exact ⟨rfl, hrun₂⟩
      | ok texts =>
        exact h.finishes name op source value value' texts run₂ run₂' hkind.operator hgiven hrun₂

/-- Related runs stay related while nodes are expanded, with the same results. -/
theorem expandAll_alike (h : Respects R mapping mapping' given kind) :
    ∀ (nodes : List Node) (run : Run σ) (run' : Run τ),
      OperatorsIn kind (Node.expansionsAll nodes) → R run run' →
        Outcome.Alike R (Node.expandAll mapping nodes run) (Node.expandAll mapping' nodes run')
  | [], run, run', _, hrun => ⟨rfl, hrun⟩
  | node :: nodes, run, run', hkind, hrun => by
    have hnode := expand_alike h node run run' hkind.head hrun
    rw [Node.expandAll, Node.expandAll]
    generalize node.expand mapping run = outcome at hnode ⊢
    generalize node.expand mapping' run' = outcome' at hnode ⊢
    obtain ⟨result, run₁⟩ := outcome
    obtain ⟨result', run₁'⟩ := outcome'
    obtain ⟨rfl, hrun₁⟩ := hnode
    cases result with
    | error e => exact ⟨rfl, hrun₁⟩
    | ok text =>
      have hnodes := expandAll_alike h nodes run₁ run₁' hkind.tail hrun₁
      simp only
      generalize Node.expandAll mapping nodes run₁ = outcome at hnodes ⊢
      generalize Node.expandAll mapping' nodes run₁' = outcome' at hnodes ⊢
      obtain ⟨result, run₂⟩ := outcome
      obtain ⟨result', run₂'⟩ := outcome'
      obtain ⟨rfl, hrun₂⟩ := hnodes
      cases result with
      | error e => exact ⟨rfl, hrun₂⟩
      | ok texts => exact ⟨rfl, hrun₂⟩

end

end

/-! ## One caller seen as another -/

/-- The run of another caller. -/
def Run.mapCaller (g : σ → τ) (run : Run σ) : Run τ :=
  { caller := g run.caller, assigned := run.assigned, events := run.events }

/-- What becomes of the run of another caller. -/
def Outcome.mapCaller {α : Type} (g : σ → τ) (outcome : Outcome σ α) : Outcome τ α :=
  (outcome.1, outcome.2.mapCaller g)

/-- The caller of `mapping`, seen through `g`, acts as the caller of `mapping'` does.  The values
given before the words may differ, as far as `given` allows. -/
structure Simulates [Engine] (g : σ → τ) (mapping : Mapping σ) (mapping' : Mapping τ)
    (given : Text → Option Text → Option Text → Prop) : Prop where
  /-- The callers decide alike. -/
  decides : ∀ (request : Request) (run : Run σ),
    Decision.Alike (given request.name) (run.consult mapping request).1
      ((run.mapCaller g).consult mapping' request).1
  /-- The decisions leave the callers in the same state. -/
  consults : ∀ (request : Request) (run : Run σ),
    ((run.mapCaller g).consult mapping' request).2 = (run.consult mapping request).2.mapCaller g
  /-- Expansions whose words are known end alike. -/
  finishes : ∀ (name : Text) (op : Option Operator) (source : Text) (value value' : Option Text)
    (words : List Text) (run : Run σ), given name value value' →
    (run.mapCaller g).finish mapping' name op source value' words
      = Outcome.mapCaller g (run.finish mapping name op source value words)

/-- A node is expanded alike for two callers who act alike. -/
theorem expand_mapCaller [Engine] {g : σ → τ} {mapping : Mapping σ} {mapping' : Mapping τ}
    {given : Text → Option Text → Option Text → Prop} (h : Simulates g mapping mapping' given)
    (node : Node) (run : Run σ) :
    node.expand mapping' (run.mapCaller g) = Outcome.mapCaller g (node.expand mapping run) := by
  have hrespects : Respects (fun run run' => run' = run.mapCaller g) mapping mapping' given
      fun _ => True :=
    { decides := by
        rintro request run _ rfl
        exact h.decides request run
      consults := by
        rintro request run _ rfl
        exact h.consults request run
      notes := by
        rintro event run _ rfl
        rfl
      finishes := by
        rintro name op source value value' words run _ - hgiven rfl
        rw [h.finishes name op source value value' words run hgiven]
        exact ⟨rfl, rfl⟩ }
  obtain ⟨hresult, hrun⟩ :=
    expand_alike hrespects node run (run.mapCaller g) (fun _ _ _ _ _ _ => trivial) rfl
  exact Prod.ext hresult.symm hrun

section

variable {g : σ → τ} {mapping : Mapping σ} {mapping' : Mapping τ} {name : Text}
  {given given' : Option Text}

/-- An assigned value comes first in any case, so variables have the same value if the callers
have. -/
theorem valueOf_mapCaller
    (h : ∀ caller, mapping'.ask name given' (g caller)
      = ((mapping.ask name given caller).1, g (mapping.ask name given caller).2))
    (run : Run σ) :
    (run.mapCaller g).valueOf mapping' name given'
      = ((run.valueOf mapping name given).1, (run.valueOf mapping name given).2.mapCaller g) := by
  have hassigned : (run.mapCaller g).assigned? name = run.assigned? name := rfl
  have hask : mapping'.ask name given' (run.mapCaller g).caller
      = ((mapping.ask name given run.caller).1, g (mapping.ask name given run.caller).2) :=
    h run.caller
  rw [valueOf_eq, valueOf_eq, hassigned, hask]
  cases run.assigned? name <;> rfl

/-- Expansions end alike if the callers have the same value for their variables. -/
theorem finish_mapCaller [Engine]
    (h : ∀ caller, mapping'.ask name given' (g caller)
      = ((mapping.ask name given caller).1, g (mapping.ask name given caller).2))
    (op : Option Operator) (source : Text) (words : List Text) (run : Run σ) :
    (run.mapCaller g).finish mapping' name op source given' words
      = Outcome.mapCaller g (run.finish mapping name op source given words) := by
  rw [finish_eq, finish_eq, valueOf_mapCaller h]
  rfl

end

/-- A step that ends one caller's expansion ends the other's. -/
theorem Simulates.finish_eq [Engine] {g : σ → τ} {mapping : Mapping σ} {mapping' : Mapping τ}
    (h : Simulates g mapping mapping' fun _ => Eq) {name source : Text} {op : Option Operator}
    {given : Option Text} {words : List Text} {run run' : Run σ}
    {result : Except ExpansionError Text}
    (hfinish : run.finish mapping name op source given words = (result, run')) :
    (run.mapCaller g).finish mapping' name op source given words = (result, run'.mapCaller g) := by
  rw [h.finishes name op source given given words run rfl, hfinish]
  rfl

/-- What a template becomes for one caller, it becomes for the other. -/
theorem Simulates.execute_eq [Engine] {g : σ → τ} {mapping : Mapping σ} {mapping' : Mapping τ}
    {given : Text → Option Text → Option Text → Prop} (h : Simulates g mapping mapping' given)
    {root : Node} {caller : σ} {result : Except ExpansionError Text} {run : Run σ}
    (hrun : Template.execute mapping root caller = (result, run)) :
    Template.execute mapping' root (g caller) = (result, run.mapCaller g) := by
  have hsame := expand_mapCaller h root { caller }
  rw [Template.execute] at hrun
  rw [hrun] at hsame
  exact hsame

/-! ## Callers who write down their calls -/

section

variable {α β : Type}

/-- The calls of `f` are answered one after the other: each answer is what `f` says in the state
that the call before it has left. -/
inductive Answers (f : α → σ → β × σ) : σ → List (α × β) → σ → Prop
  | nil {s : σ} : Answers f s [] s
  | cons {a : α} {b : β} {s s' s'' : σ} {calls : List (α × β)} (head : f a s = (b, s'))
      (tail : Answers f s' calls s'') : Answers f s ((a, b) :: calls) s''

theorem Answers.append {f : α → σ → β × σ} {s s' s'' : σ} {calls calls' : List (α × β)}
    (h : Answers f s calls s') (h' : Answers f s' calls' s'') :
    Answers f s (calls ++ calls') s'' := by
  induction h with
  | nil => exact h'
  | cons head tail ih => exact .cons head (ih h')

theorem Answers.exists_of_append {f : α → σ → β × σ} {calls calls' : List (α × β)} {s s'' : σ}
    (h : Answers f s (calls ++ calls') s'') :
    ∃ s', Answers f s calls s' ∧ Answers f s' calls' s'' := by
  induction calls generalizing s with
  | nil => exact ⟨s, .nil, h⟩
  | cons call calls ih =>
    cases h with
    | cons head tail =>
      obtain ⟨s', hcalls, hcalls'⟩ := ih tail
      exact ⟨s', .cons head hcalls, hcalls'⟩

/-- The caller who adds every call and its answer to a list. -/
def recorded (f : α → σ → β × σ) : α → σ × List (α × β) → β × (σ × List (α × β)) :=
  fun a state => ((f a state.1).1, (f a state.1).2, state.2 ++ [(a, (f a state.1).1)])

/-- The list that such a caller keeps is the list of the calls. -/
theorem Answers.of_recorded {f : α → σ → β × σ} {state state' : σ × List (α × β)}
    {calls : List (α × β)} (h : Answers (recorded f) state calls state') :
    Answers f state.1 calls state'.1 ∧ state'.2 = state.2 ++ calls := by
  induction h with
  | nil => exact ⟨.nil, (List.append_nil _).symm⟩
  | cons head tail ih =>
    cases head
    refine ⟨.cons rfl ih.1, ?_⟩
    rw [ih.2, List.append_assoc, List.singleton_append]

end

theorem simulates_recorded_standard [Engine] (resolve : Text → σ → Option Text × σ) :
    Simulates Prod.fst (.standard (recorded resolve)) (.standard resolve) fun _ => Eq where
  decides _ _ := .proceed rfl
  consults _ _ := rfl
  finishes name op source value value' words run hgiven := by
    subst hgiven
    refine finish_mapCaller (fun _ => ?_) op source words run
    rfl

theorem simulates_recorded_advanced [Engine] (decide : Request → σ → Decision × σ) :
    Simulates Prod.fst (.advanced (recorded decide)) (.advanced decide) fun _ => Eq where
  decides request run := .refl (decide request run.caller.1).1
  consults _ _ := rfl
  finishes name op source value value' words run hgiven := by
    subst hgiven
    refine finish_mapCaller (fun _ => ?_) op source words run
    rfl

/-! ## The two modes -/

namespace Template

/-- The values of a caller without memory may be asked for after the words or given before them: an
assigned value comes first in either case. -/
theorem simulates_advanced_standard [Engine] (values : Text → Option Text) :
    Simulates (id : σ → σ) (.standard fun name caller => (values name, caller))
      (.advanced fun request caller => (.proceed (values request.name), caller))
      fun name value value' => value = none ∧ value' = values name where
  decides _ _ := .proceed ⟨rfl, rfl⟩
  consults _ _ := rfl
  finishes name op source value value' words run hgiven := by
    obtain ⟨rfl, rfl⟩ := hgiven
    refine finish_mapCaller (fun _ => ?_) op source words run
    rfl

/-- **The two modes agree.**  A caller whose values depend on the name alone gets the same from
both: the same text or the same error, with the same assignments and the same events on the way. -/
theorem execute_advanced_eq_standard [Engine] (values : Text → Option Text) (root : Node)
    (caller : σ) :
    execute (.advanced fun request caller => (.proceed (values request.name), caller)) root caller
      = execute (.standard fun name caller => (values name, caller)) root caller :=
  expand_mapCaller (simulates_advanced_standard values) root { caller }

end Template

end ShellExpansion
