import ShellExpansion.Glob.StandardEngine
import ShellExpansion.Proofs.Expansion.Callers
import ShellExpansion.Proofs.Template.Subtrees

/-!
# What a mapping is consulted about

In advanced mode the mapping decides about every expansion before its words are looked at.  What it
is asked, and what becomes of its decisions, is said without a run: `Settles node calls settled`
goes through a tree in pre-order, with one call for each expansion that is inside no stopped one, and
`settled` is the tree in which every stopped expansion has become the text that was given for it.

* `exists_settles` : from any state the mapping settles every tree.
* `Settles.made` : a run makes these calls, or those up to the expansion that fails.
* `Settles.replays` : its result is the result of the settled tree.
* `advanced_consults` : **where the mapping is consulted, and what its decisions do.**
-/

namespace ShellExpansion

/-- A call of a mapping: what it was told about an expansion, and what it decided. -/
abbrev Call := Request × Decision

/-- What a mapping is told about an expansion. -/
def requestFor (name : Text) (op : Option Operator) (words : List Node) (nesting : Nat)
    (source : Text) : Request :=
  ⟨name, source, op, nesting, words.length⟩

/-! ## The order of the calls -/

mutual

/-- The calls about a tree in pre-order, and the tree with what they decide: nothing is called for
inside a stopped expansion, and its text takes its place. -/
inductive Settles : Node → List Call → Node → Prop
  | text {value : Text} : Settles (.text value) [] (.text value)
  | sequence {nodes settled : List Node} {calls : List Call} (h : SettlesAll nodes calls settled) :
      Settles (.sequence nodes) calls (.sequence settled)
  | stopped {name : Text} {op : Option Operator} {words : List Node} {nesting : Nat}
      {source text : Text} :
      Settles (.expansion name op words nesting source)
        [(requestFor name op words nesting source, .stop text)] (.text text)
  | expanded {name : Text} {op : Option Operator} {words settled : List Node} {nesting : Nat}
      {source : Text} {value : Option Text} {calls : List Call}
      (h : SettlesAll words calls settled) :
      Settles (.expansion name op words nesting source)
        ((requestFor name op words nesting source, .proceed value) :: calls)
        (.expansion name op settled nesting source)

/-- The calls about several trees, one tree after the other. -/
inductive SettlesAll : List Node → List Call → List Node → Prop
  | nil : SettlesAll [] [] []
  | cons {node settled : Node} {nodes settleds : List Node} {calls calls' : List Call}
      (head : Settles node calls settled) (tail : SettlesAll nodes calls' settleds) :
      SettlesAll (node :: nodes) (calls ++ calls') (settled :: settleds)

end

mutual

/-- An expansion of a tree, and the calls about the tree before the one about it. -/
inductive Reaches (target : Node) : Node → List Call → Prop
  | here : Reaches target target []
  | item {nodes : List Node} {before : List Call} (h : ReachesAll target nodes before) :
      Reaches target (.sequence nodes) before
  | word {name : Text} {op : Option Operator} {words : List Node} {nesting : Nat} {source : Text}
      {value : Option Text} {before : List Call} (h : ReachesAll target words before) :
      Reaches target (.expansion name op words nesting source)
        ((requestFor name op words nesting source, .proceed value) :: before)

/-- An expansion of one of several trees, and the calls before the one about it. -/
inductive ReachesAll (target : Node) : List Node → List Call → Prop
  | head {node : Node} {nodes : List Node} {before : List Call} (h : Reaches target node before) :
      ReachesAll target (node :: nodes) before
  | tail {node settled : Node} {nodes : List Node} {calls before : List Call}
      (head : Settles node calls settled) (h : ReachesAll target nodes before) :
      ReachesAll target (node :: nodes) (calls ++ before)

end

/-- A run that has made these calls ends with the failure of an expansion: its own call is made, and
the calls about its words, and then its operator fails. -/
inductive FailsAfter [Engine] {σ : Type} (mapping : Mapping σ) (reaches : Node → List Call → Prop) :
    List Call → ExpansionError → Run σ → Prop
  | finish {name : Text} {op : Option Operator} {words settled : List Node} {nesting : Nat}
      {source : Text} {given : Option Text} {before inside : List Call} {prev run : Run σ}
      {texts : List Text} {e : ExpansionError}
      (hreaches : reaches (.expansion name op words nesting source) before)
      (hinside : SettlesAll words inside settled)
      (hfinish : prev.finish mapping name op source given texts = (.error e, run)) :
      FailsAfter mapping reaches
        (before ++ (requestFor name op words nesting source, .proceed given) :: inside) e run

/-- The values that a list of calls gives to variables. -/
def givenValues (calls : List Call) : List (Option Text) :=
  calls.filterMap fun call =>
    match call.2 with
    | .stop _ => none
    | .proceed value => some value

/-- The mapping that stops nothing and gives the values of a list, one after the other. -/
def replay : Mapping (List (Option Text)) :=
  .advanced fun _ values => (.proceed values.head?.join, values.tail)

theorem givenValues_append (calls calls' : List Call) :
    givenValues (calls ++ calls') = givenValues calls ++ givenValues calls' :=
  List.filterMap_append

variable {σ : Type} {decide : Request → σ → Decision × σ}

/-! ## Every tree can be settled -/

mutual

/-- The decisions of a mapping settle every tree. -/
theorem exists_settles (decide : Request → σ → Decision × σ) :
    ∀ (node : Node) (s : σ), ∃ calls settled last,
      Settles node calls settled ∧ Answers decide s calls last
  | .text value, s => ⟨[], .text value, s, .text, .nil⟩
  | .sequence nodes, s => by
    obtain ⟨calls, settled, last, hsettles, hanswers⟩ := exists_settlesAll decide nodes s
    exact ⟨calls, _, last, .sequence hsettles, hanswers⟩
  | .expansion name op words nesting source, s => by
    rcases hdecide : decide (requestFor name op words nesting source) s with ⟨text | value, s'⟩
    · exact ⟨_, _, s', .stopped, .cons hdecide .nil⟩
    · obtain ⟨calls, settled, last, hsettles, hanswers⟩ := exists_settlesAll decide words s'
      exact ⟨_, _, last, .expanded hsettles, .cons hdecide hanswers⟩

/-- The decisions of a mapping settle several trees. -/
theorem exists_settlesAll (decide : Request → σ → Decision × σ) :
    ∀ (nodes : List Node) (s : σ), ∃ calls settled last,
      SettlesAll nodes calls settled ∧ Answers decide s calls last
  | [], s => ⟨[], [], s, .nil, .nil⟩
  | node :: nodes, s => by
    obtain ⟨calls, settled, s', hnode, hanswers⟩ := exists_settles decide node s
    obtain ⟨calls', settleds, last, hnodes, hanswers'⟩ := exists_settlesAll decide nodes s'
    exact ⟨_, _, last, .cons hnode hnodes, hanswers.append hanswers'⟩

end

/-! ## One expansion -/

section

variable {name source : Text} {op : Option Operator} {words : List Node} {nesting : Nat}
  {run : Run σ} {s : σ}

theorem consult_advanced (request : Request) :
    run.consult (.advanced decide) request
      = ((decide request run.caller).1, { run with caller := (decide request run.caller).2 }) :=
  rfl

/-- A stopped expansion is its text, and nothing else happens. -/
theorem expand_of_stop [Engine] {text : Text}
    (h : decide (requestFor name op words nesting source) run.caller = (.stop text, s)) :
    (Node.expansion name op words nesting source).expand (.advanced decide) run
      = (.ok text, { run with caller := s }.note (.verbatim source text)) := by
  rw [requestFor] at h
  simp only [Node.expand, consult_advanced, h]

/-- An expansion that proceeds expands its words and applies its operator. -/
theorem expand_of_proceed [Engine] {value : Option Text}
    (h : decide (requestFor name op words nesting source) run.caller = (.proceed value, s)) :
    (Node.expansion name op words nesting source).expand (.advanced decide) run
      = match Node.expandAll (.advanced decide) words { run with caller := s } with
        | (.error e, run) => (.error e, run)
        | (.ok texts, run) => run.finish (.advanced decide) name op source value texts := by
  rw [requestFor] at h
  rewrite [Node.expand, consult_advanced, h]
  rfl

theorem valueOf_advanced (given : Option Text) :
    run.valueOf (.advanced decide) name given = ((run.assigned? name).or given, run) := by
  rw [valueOf_eq]
  cases run.assigned? name <;> rfl

end

/-! ## The calls of a run -/

section

variable [Engine]

/-- Of the calls that settle a tree, a run makes all if it succeeds, and otherwise those up to the
expansion that fails. -/
def Makes {α : Type} (decide : Request → σ → Decision × σ) (reaches : Node → List Call → Prop)
    (start : σ) (all : List Call) (last : σ) (outcome : Outcome σ α) : Prop :=
  ∃ calls more, all = calls ++ more ∧ Answers decide start calls outcome.2.caller ∧
    Answers decide outcome.2.caller more last ∧ (∀ a, outcome.1 = .ok a → more = []) ∧
    ∀ e, outcome.1 = .error e → FailsAfter (.advanced decide) reaches calls e outcome.2

theorem FailsAfter.prepend {mapping : Mapping σ} {reaches reaches' : Node → List Call → Prop}
    {calls first : List Call} {e : ExpansionError} {run : Run σ}
    (h : FailsAfter mapping reaches calls e run)
    (hreaches : ∀ target before, reaches target before → reaches' target (first ++ before)) :
    FailsAfter mapping reaches' (first ++ calls) e run := by
  cases h with
  | finish hreaches' hinside hfinish =>
    rw [← List.append_assoc]
    exact .finish (hreaches _ _ hreaches') hinside hfinish

theorem FailsAfter.mapCaller {τ : Type} {g : σ → τ} {mapping : Mapping σ} {mapping' : Mapping τ}
    {reaches : Node → List Call → Prop} {calls : List Call} {e : ExpansionError} {run : Run σ}
    (h : FailsAfter mapping reaches calls e run)
    (hsimulates : Simulates g mapping mapping' fun _ => Eq) :
    FailsAfter mapping' reaches calls e (run.mapCaller g) := by
  cases h with
  | finish hreaches hinside hfinish =>
    exact .finish hreaches hinside (hsimulates.finish_eq hfinish)

/-- A part of a run that succeeds makes all of its calls. -/
theorem Makes.of_ok {α : Type} {reaches : Node → List Call → Prop} {start last : σ}
    {all : List Call} {a : α} {run : Run σ}
    (h : Makes decide reaches start all last ((.ok a, run) : Outcome σ α)) :
    Answers decide start all run.caller ∧ run.caller = last := by
  obtain ⟨calls, more, rfl, hcalls, hmore, hok, -⟩ := h
  obtain rfl := hok a rfl
  cases hmore
  rw [List.append_nil]
  exact ⟨hcalls, rfl⟩

theorem makes_all {α : Type} {reaches : Node → List Call → Prop} {start : σ} {all : List Call}
    {outcome : Outcome σ α} (hall : Answers decide start all outcome.2.caller)
    (herror : ∀ e, outcome.1 = .error e → FailsAfter (.advanced decide) reaches all e outcome.2) :
    Makes decide reaches start all outcome.2.caller outcome :=
  ⟨all, [], (List.append_nil _).symm, hall, .nil, fun _ _ => rfl, herror⟩

/-- A part that fails ends the whole, whatever was called for before and would be called for after
it. -/
theorem Makes.of_error {α β : Type} {reaches reaches' : Node → List Call → Prop}
    {start mid last last' : σ} {first all rest : List Call} {e : ExpansionError} {run : Run σ}
    (h : Makes decide reaches mid all last ((.error e, run) : Outcome σ α))
    (hfirst : Answers decide start first mid) (hrest : Answers decide last rest last')
    (hreaches : ∀ target before, reaches target before → reaches' target (first ++ before)) :
    Makes decide reaches' start (first ++ all ++ rest) last' ((.error e, run) : Outcome σ β) := by
  obtain ⟨calls, more, rfl, hcalls, hmore, -, herror⟩ := h
  refine ⟨first ++ calls, more ++ rest, by simp, hfirst.append hcalls, hmore.append hrest, nofun,
    ?_⟩
  rintro _ ⟨rfl⟩
  exact (herror e rfl).prepend hreaches

mutual

/-- A run makes the calls that settle its tree. -/
theorem Settles.made {node settled : Node} {all : List Call} :
    Settles node all settled → ∀ (run : Run σ) (last : σ), Answers decide run.caller all last →
      Makes decide (Reaches · node) run.caller all last (node.expand (.advanced decide) run)
  | .text, run, last, hanswers => by
    cases hanswers
    exact makes_all .nil nofun
  | .sequence hnodes, run, last, hanswers => by
    have hmade := hnodes.made run last hanswers
    rw [Node.expand]
    generalize Node.expandAll (.advanced decide) _ run = outcome at hmade ⊢
    obtain ⟨e | texts, run'⟩ := outcome
    · simpa using hmade.of_error .nil .nil fun _ _ => .item
    · obtain ⟨hall, rfl⟩ := hmade.of_ok
      exact makes_all hall nofun
  | .stopped, run, last, hanswers => by
    obtain _ | ⟨hdecide, _ | _⟩ := hanswers
    rw [expand_of_stop hdecide]
    exact makes_all (.cons hdecide .nil) nofun
  | @Settles.expanded name op words settled nesting source value calls hwords, run, last,
      hanswers => by
    obtain _ | ⟨hdecide, htail⟩ := hanswers
    rename_i s
    have hmade := hwords.made { run with caller := s } last htail
    rw [expand_of_proceed hdecide]
    generalize Node.expandAll (.advanced decide) words { run with caller := s } = outcome
      at hmade ⊢
    have hcall : Answers decide run.caller
        [(requestFor name op words nesting source, .proceed value)] s := .cons hdecide .nil
    obtain ⟨e | texts, run'⟩ := outcome
    · simpa using hmade.of_error hcall .nil fun _ _ => .word
    · -- an operator calls for nothing, so all calls have been made whether it fails or not
      obtain ⟨hall, rfl⟩ := hmade.of_ok
      simp only
      have hcaller : (run'.finish (.advanced decide) name op source value texts).2.caller
          = run'.caller := by
        rw [finish_eq, valueOf_advanced]
      rw [← hcaller] at hall ⊢
      refine makes_all (.cons hdecide hall) fun e he => ?_
      show FailsAfter _ _ ([] ++ _) _ _
      exact .finish .here hwords (Prod.ext he rfl)

/-- The same for several trees. -/
theorem SettlesAll.made {nodes settled : List Node} {all : List Call} :
    SettlesAll nodes all settled → ∀ (run : Run σ) (last : σ), Answers decide run.caller all last →
      Makes decide (ReachesAll · nodes) run.caller all last
        (Node.expandAll (.advanced decide) nodes run)
  | .nil, run, last, hanswers => by
    cases hanswers
    exact makes_all .nil nofun
  | @SettlesAll.cons node settled nodes _ calls calls' hnode hnodes, run, last, hanswers => by
    obtain ⟨mid, hfirst, hrest⟩ := hanswers.exists_of_append
    have hmade := hnode.made run mid hfirst
    rw [Node.expandAll]
    generalize node.expand (.advanced decide) run = outcome at hmade ⊢
    obtain ⟨e | text, run'⟩ := outcome
    · exact hmade.of_error .nil hrest fun _ _ => .head
    · obtain ⟨hall, rfl⟩ := hmade.of_ok
      have hmade' := hnodes.made run' last hrest
      simp only
      generalize Node.expandAll (.advanced decide) nodes run' = outcome at hmade' ⊢
      obtain ⟨e | texts, run''⟩ := outcome
      · simpa using hmade'.of_error hall .nil fun _ _ => .tail hnode
      · obtain ⟨hall', rfl⟩ := hmade'.of_ok
        exact makes_all (hall.append hall') nofun

end

/-! ## The settled tree -/

/-- A run on the settled tree has the result of the run on the tree itself, and assigns the same. -/
def Replays {α : Type} (outcome : Outcome σ α) (rest : List (Option Text))
    (again : Outcome (List (Option Text)) α) : Prop :=
  again.1 = outcome.1 ∧ again.2.assigned = outcome.2.assigned ∧
    ∀ a, outcome.1 = .ok a → again.2.caller = rest

mutual

/-- The settled tree, with the values that were given, has the result of the tree. -/
theorem Settles.replays {node settled : Node} {calls : List Call} :
    Settles node calls settled → ∀ (run : Run σ) (last : σ), Answers decide run.caller calls last →
      ∀ (rest : List (Option Text)) (start : Run (List (Option Text))),
        start.caller = givenValues calls ++ rest → start.assigned = run.assigned →
          Replays (node.expand (.advanced decide) run) rest (settled.expand replay start)
  | .text, run, last, _, rest, start, hcaller, hassigned => ⟨rfl, hassigned, fun _ _ => hcaller⟩
  | .sequence hnodes, run, last, hanswers, rest, start, hcaller, hassigned => by
    have hreplays := hnodes.replays run last hanswers rest start hcaller hassigned
    rw [Node.expand, Node.expand]
    generalize Node.expandAll (.advanced decide) _ run = outcome at hreplays ⊢
    generalize Node.expandAll replay _ start = again at hreplays ⊢
    obtain ⟨result, run'⟩ := outcome
    obtain ⟨result', start'⟩ := again
    obtain ⟨rfl, hassigned', hrest⟩ := hreplays
    cases result' with
    | error e => exact ⟨rfl, hassigned', nofun⟩
    | ok texts => exact ⟨rfl, hassigned', fun _ _ => hrest texts rfl⟩
  | .stopped, run, last, hanswers, rest, start, hcaller, hassigned => by
    obtain _ | ⟨hdecide, _ | _⟩ := hanswers
    rw [expand_of_stop hdecide]
    exact ⟨rfl, hassigned, fun _ _ => hcaller⟩
  | @Settles.expanded name op words settled nesting source value calls hwords, run, last, hanswers,
      rest, start, hcaller, hassigned => by
    obtain _ | ⟨hdecide, htail⟩ := hanswers
    rename_i s
    have hvalue : (fun (_ : Request) (values : List (Option Text)) =>
        ((.proceed values.head?.join, values.tail) : Decision × List (Option Text)))
          (requestFor name op settled nesting source) start.caller
        = (.proceed value, givenValues calls ++ rest) := by
      rw [hcaller]
      rfl
    have hreplays := hwords.replays { run with caller := s } last htail rest
      { start with caller := givenValues calls ++ rest } rfl hassigned
    rw [expand_of_proceed hdecide, replay, expand_of_proceed hvalue, ← replay]
    generalize Node.expandAll (.advanced decide) words { run with caller := s } = outcome
      at hreplays ⊢
    generalize Node.expandAll replay settled { start with caller := givenValues calls ++ rest }
      = again at hreplays ⊢
    obtain ⟨result, run'⟩ := outcome
    obtain ⟨result', start'⟩ := again
    obtain ⟨rfl, hassigned', hrest⟩ := hreplays
    simp only at hassigned'
    cases result' with
    | error e => exact ⟨rfl, hassigned', nofun⟩
    | ok texts =>
      simp only
      -- what the words have assigned is the same in both runs and comes before the value given
      have hsame : (start'.valueOf replay name value).1
          = (run'.valueOf (.advanced decide) name value).1 := by
        rw [replay, valueOf_advanced, valueOf_advanced, Run.assigned?, Run.assigned?, hassigned']
      have hleft : (start'.valueOf replay name value).2.caller = start'.caller := by
        rw [replay, valueOf_advanced]
      rw [finish_eq, finish_eq, hsame]
      exact ⟨rfl, congrArg (_ ++ ·) hassigned', fun _ _ => hleft.trans (hrest texts rfl)⟩

/-- The same for several trees. -/
theorem SettlesAll.replays {nodes settled : List Node} {calls : List Call} :
    SettlesAll nodes calls settled → ∀ (run : Run σ) (last : σ),
      Answers decide run.caller calls last →
        ∀ (rest : List (Option Text)) (start : Run (List (Option Text))),
          start.caller = givenValues calls ++ rest → start.assigned = run.assigned →
            Replays (Node.expandAll (.advanced decide) nodes run) rest
              (Node.expandAll replay settled start)
  | .nil, run, last, _, rest, start, hcaller, hassigned => ⟨rfl, hassigned, fun _ _ => hcaller⟩
  | @SettlesAll.cons node settled nodes settleds calls calls' hnode hnodes, run, last, hanswers,
      rest, start, hcaller, hassigned => by
    -- the first tree, if it succeeds, has made all of its calls, and the rest starts where it stops
    obtain ⟨mid, hfirst, htail⟩ := hanswers.exists_of_append
    have hmade := hnode.made run mid hfirst
    rw [givenValues_append, List.append_assoc] at hcaller
    have hreplays := hnode.replays run mid hfirst _ start hcaller hassigned
    rw [Node.expandAll, Node.expandAll]
    generalize node.expand (.advanced decide) run = outcome at hmade hreplays ⊢
    generalize settled.expand replay start = again at hreplays ⊢
    obtain ⟨result, run'⟩ := outcome
    obtain ⟨result', start'⟩ := again
    obtain ⟨rfl, hassigned', hrest⟩ := hreplays
    cases result' with
    | error e => exact ⟨rfl, hassigned', nofun⟩
    | ok text =>
      obtain ⟨-, rfl⟩ := hmade.of_ok
      have hreplays' := hnodes.replays run' last htail rest start' (hrest text rfl) hassigned'
      simp only
      generalize Node.expandAll (.advanced decide) nodes run' = outcome at hreplays' ⊢
      generalize Node.expandAll replay settleds start' = again at hreplays' ⊢
      obtain ⟨result, run''⟩ := outcome
      obtain ⟨result', start''⟩ := again
      obtain ⟨rfl, hassigned'', hrest'⟩ := hreplays'
      cases result' with
      | error e => exact ⟨rfl, hassigned'', nofun⟩
      | ok texts => exact ⟨rfl, hassigned'', fun _ _ => hrest' texts rfl⟩

end

end

/-! ## A mapping that stops everything -/

namespace Node

mutual

/-- What a mapping is told about the expansions of a tree that are inside no other one. -/
def outermost : Node → List Request
  | text _ => []
  | expansion name op words nesting source => [requestFor name op words nesting source]
  | sequence nodes => outermostAll nodes

/-- What a mapping is told about the outermost expansions of several trees. -/
def outermostAll : List Node → List Request
  | [] => []
  | node :: nodes => node.outermost ++ outermostAll nodes

end

mutual

/-- A tree without expansions is the text that it was read from, whoever is asked. -/
theorem expand_of_expansions_eq_nil [Engine] (mapping : Mapping σ) :
    ∀ (node : Node) (run : Run σ), node.expansions = [] →
      node.expand mapping run = (.ok node.render, run)
  | text value, run, _ => rfl
  | sequence nodes, run, h => by
    obtain ⟨texts, hnodes, hrender⟩ := expandAll_of_expansionsAll_eq_nil mapping nodes run h
    rw [expand, hnodes]
    exact congrArg (fun text => (Except.ok text, run)) hrender

theorem expandAll_of_expansionsAll_eq_nil [Engine] (mapping : Mapping σ) :
    ∀ (nodes : List Node) (run : Run σ), expansionsAll nodes = [] →
      ∃ texts, expandAll mapping nodes run = (.ok texts, run) ∧ texts.flatten = renderAll nodes
  | [], run, _ => ⟨[], rfl, rfl⟩
  | node :: nodes, run, h => by
    obtain ⟨hnode, hnodes⟩ := List.append_eq_nil_iff.1 h
    obtain ⟨texts, hall, hrender⟩ := expandAll_of_expansionsAll_eq_nil mapping nodes run hnodes
    refine ⟨node.render :: texts, ?_, ?_⟩
    · simp only [expandAll, expand_of_expansions_eq_nil mapping node run hnode, hall]
    · rw [List.flatten_cons, hrender, renderAll]

end

end Node

mutual

/-- If every expansion is stopped with its own source, the outermost ones are called for, and the
settled tree is the text that the tree was read from. -/
theorem Settles.of_stops {node settled : Node} {calls : List Call} :
    Settles node calls settled → (∀ call ∈ calls, call.2 = .stop call.1.source) →
      calls.map Prod.fst = node.outermost ∧ settled.expansions = [] ∧
        settled.render = node.render
  | .text, _ => ⟨rfl, rfl, rfl⟩
  | .sequence hnodes, hstops => hnodes.of_stops hstops
  | .stopped, hstops => by
    have hstop := hstops _ List.mem_cons_self
    refine ⟨rfl, rfl, ?_⟩
    exact Decision.stop.inj hstop
  | .expanded hwords, hstops => by
    have hstop := hstops _ List.mem_cons_self
    cases hstop

/-- The same for several trees. -/
theorem SettlesAll.of_stops {nodes settled : List Node} {calls : List Call} :
    SettlesAll nodes calls settled → (∀ call ∈ calls, call.2 = .stop call.1.source) →
      calls.map Prod.fst = Node.outermostAll nodes ∧ Node.expansionsAll settled = [] ∧
        Node.renderAll settled = Node.renderAll nodes
  | .nil, _ => ⟨rfl, rfl, rfl⟩
  | .cons hnode hnodes, hstops => by
    obtain ⟨hhead, htail⟩ := List.forall_mem_append.1 hstops
    obtain ⟨hcalls, hempty, hrender⟩ := hnode.of_stops hhead
    obtain ⟨hcalls', hempty', hrender'⟩ := hnodes.of_stops htail
    refine ⟨?_, ?_, ?_⟩
    · rw [List.map_append, hcalls, hcalls', Node.outermostAll]
    · rw [Node.expansionsAll, hempty, hempty', List.append_nil]
    · rw [Node.renderAll, hrender, hrender', Node.renderAll]

end

namespace Template

/-- **Where a mapping is consulted, and what its decisions do.**  `calls` are the calls of a run, as
the caller writes them down.

The calls, and those that would have followed had the run not failed, settle the tree: the mapping
is called for in pre-order, once for every expansion that is inside no stopped one, and is told its
source and its nesting.  The run has the result, and assigns the values, of a run on the settled
tree, where each stopped expansion is the text that was given for it.  A run that fails has made the
calls up to the expansion whose operator fails, and those about its words.  If everything is stopped
with its own source, the outermost expansions are called for, and the result is the text that the
tree was read from. -/
theorem advanced_consults [Engine] {root : Node} {caller last : σ} {calls : List Call}
    {result : Except ExpansionError Text} {assigned : List (Text × Text)} {events : List Event}
    (hrun : execute (.advanced (recorded decide)) root (caller, [])
      = (result, ⟨(last, calls), assigned, events⟩)) :
    execute (.advanced decide) root caller = (result, ⟨last, assigned, events⟩) ∧
      Answers decide caller calls last ∧
      (∃ more final settled, Answers decide last more final ∧ Settles root (calls ++ more) settled ∧
        (∀ text, result = .ok text → more = []) ∧
        ∃ run, execute replay settled (givenValues (calls ++ more)) = (result, run) ∧
          run.assigned = assigned) ∧
      (∀ e, result = .error e →
        FailsAfter (.advanced decide) (Reaches · root) calls e ⟨last, assigned, events⟩) ∧
      ((∀ call ∈ calls, call.2 = .stop call.1.source) →
        calls.map Prod.fst = root.outermost ∧ result = .ok root.render) := by
  have hplain : execute (.advanced decide) root caller = (result, ⟨last, assigned, events⟩) :=
    (simulates_recorded_advanced decide).execute_eq hrun
  obtain ⟨all, settled, final, hsettles, hanswers⟩ :=
    exists_settles (recorded decide) root (caller, [])
  have hmade := hsettles.made { caller := (caller, []) } final hanswers
  have hreplays := hsettles.replays { caller } final.1 hanswers.of_recorded.1 []
    { caller := givenValues all } (List.append_nil _).symm rfl
  rw [execute] at hrun hplain
  rw [hrun] at hmade
  rw [hplain] at hreplays
  obtain ⟨calls', more, rfl, hcalls, hmore, hok, herror⟩ := hmade
  -- the calls that were made are those that were written down
  obtain rfl : calls = calls' := hcalls.of_recorded.2
  have hfails : ∀ e, result = .error e →
      FailsAfter (.advanced decide) (Reaches · root) calls e ⟨last, assigned, events⟩ := by
    intro e he
    exact (herror e he).mapCaller (simulates_recorded_advanced decide)
  refine ⟨hplain, hcalls.of_recorded.1, ⟨more, final.1, settled, hmore.of_recorded.1, hsettles, hok,
    _, Prod.ext hreplays.1 rfl, hreplays.2.1⟩, hfails, fun hstops => ?_⟩
  cases result with
  | error e =>
    exfalso
    cases hfails e rfl with
    | finish => cases hstops _ (List.mem_append_right _ List.mem_cons_self)
  | ok text =>
    obtain rfl := hok text rfl
    rw [List.append_nil] at hsettles hreplays
    obtain ⟨hrequests, hempty, hrender⟩ := hsettles.of_stops hstops
    refine ⟨hrequests, ?_⟩
    calc
      Except.ok text = (settled.expand replay { caller := givenValues calls }).1 := hreplays.1.symm
      _ = .ok settled.render := by rw [Node.expand_of_expansions_eq_nil replay settled _ hempty]
      _ = .ok root.render := by rw [hrender]

attribute [local instance] Engine.standard

theorem advanced_consults_stopped :
    ∃ events,
      execute (.advanced (recorded fun request n => (.stop request.source, n + 1)))
          (.sequence [.text ['x'],
            .expansion ['a'] (some (.default .unset)) [.expansion ['b'] none [] 1 ['$', 'b']] 0
              ['$', '{', 'a', '-', '$', 'b', '}']]) (0, [])
        = (.ok ['x', '$', '{', 'a', '-', '$', 'b', '}'],
            ⟨(1, [(⟨['a'], ['$', '{', 'a', '-', '$', 'b', '}'], some (.default .unset), 0, 1⟩,
              .stop ['$', '{', 'a', '-', '$', 'b', '}'])]), [], events⟩) ∧
      [(⟨['a'], ['$', '{', 'a', '-', '$', 'b', '}'], some (.default .unset), 0, 1⟩ : Request)]
        = (Node.sequence [.text ['x'],
            .expansion ['a'] (some (.default .unset)) [.expansion ['b'] none [] 1 ['$', 'b']] 0
              ['$', '{', 'a', '-', '$', 'b', '}']]).outermost := by
  have hrun : execute (.advanced (recorded fun request n => (.stop request.source, n + 1)))
      (.sequence [.text ['x'],
        .expansion ['a'] (some (.default .unset)) [.expansion ['b'] none [] 1 ['$', 'b']] 0
          ['$', '{', 'a', '-', '$', 'b', '}']]) (0, [])
      = (.ok ['x', '$', '{', 'a', '-', '$', 'b', '}'],
          ⟨(1, [(⟨['a'], ['$', '{', 'a', '-', '$', 'b', '}'], some (.default .unset), 0, 1⟩,
            .stop ['$', '{', 'a', '-', '$', 'b', '}'])]), [],
            [.verbatim ['$', '{', 'a', '-', '$', 'b', '}'] ['$', '{', 'a', '-', '$', 'b', '}']]⟩) :=
    rfl
  exact ⟨_, hrun, ((advanced_consults hrun).2.2.2.2 (List.forall_mem_singleton.2 rfl)).1⟩

end Template

end ShellExpansion
