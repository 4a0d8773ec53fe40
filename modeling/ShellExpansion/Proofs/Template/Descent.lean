import ShellExpansion.Proofs.Template.Scanning
import ShellExpansion.Proofs.Template.WellFormed
import ShellExpansion.Template.Descent

/-!
# Reading with a scanner, and without one

The readers of `Descent` guard against tokens that cannot come.  They come to the same result as the
readers of `Parser`, which do not, so that no guard is ever needed.

* `Scanner.Leaves` : what is left of the input; kept by a scan (`Leaves.scanFor`).
* `Agrees` : two readers come to the same value and leave the same text, or fail alike; kept by
  everything that is done with a result (`Agrees.bind`, `Agrees.lift`).
* `announced?_of_operator`, `announced?_of_mixedCase`, `announced?_of_nothing` : the characters that
  announce a family let an operator of this family be scanned.
* `piecesAgree` : every region, by induction on the length of the text.
* `parse_raises_no_alarm` : **no alarm is ever raised, and text without braces is a template.**
-/

namespace ShellExpansion

open Grammar

/-- How a reader with a scanner tells of a fault in an input. -/
def Stop.ofFault (input : Text) (fault : Fault) : Stop := ⟨.error fault.error, fault.offset input⟩

namespace Scanner

/-- The cursor stands in front of a text that the input ends with. -/
def Leaves (scanner : Scanner) (input rest : Text) : Prop :=
  ∃ before, input = before ++ rest ∧ scanner.StandsBetween before rest

/-- The last token is a dollar and a brace, and a text follows them. -/
def Opens (scanner : Scanner) (input s : Text) : Prop :=
  scanner.Leaves input s ∧
    ∃ before, input = before ++ '$' :: '{' :: s ∧ scanner.start = Utf8.size before

section

variable {scanner : Scanner} {input s rest : Text}

theorem Leaves.rest_eq (h : scanner.Leaves input rest) : scanner.rest = rest := by
  obtain ⟨before, -, hstands⟩ := h
  exact hstands.rest_eq

/-- A scanner tells of a fault by its cursor. -/
theorem Leaves.stop_eq (h : scanner.Leaves input rest) (error : ParseError) :
    (⟨.error error, scanner.cursor⟩ : Stop) = .ofFault input ⟨error, rest⟩ := by
  obtain ⟨before, rfl, hstands⟩ := h
  simp only [Stop.ofFault, Fault.offset, Utf8.size_append, hstands.cursor, Nat.add_sub_cancel]

theorem leaves_new (input : Text) : (new input).Leaves input input := ⟨[], rfl, rfl, rfl⟩

/-- A scan finds the token that the text starts with, and leaves what follows it. -/
theorem Leaves.scanFor {kinds : TokenKinds} {accept : Acceptance} {kind : TokenKind} {next : Scanner}
    (h : scanner.Leaves input s) (hscan : Descent.scanFor kinds accept scanner = (kind, next)) :
    ∃ token rest, Token.scan kinds accept s = (token, rest) ∧ kind = token.kind ∧
      next.text = token.text ∧ next.Leaves input rest ∧ next.unread.Leaves input s ∧
      (kind = .opening → next.Opens input rest) := by
  obtain ⟨before, rfl, hstands⟩ := h
  have hconfigured : (scanner.configure kinds accept).StandsBetween before s :=
    ⟨hstands.input, hstands.cursor⟩
  obtain ⟨token, span, after, rfl, hspans, htoken, hkind, htext, hstart, hafter⟩ := hconfigured.scan
  simp only [show (scanner.configure kinds accept).scan = (kind, next) from hscan] at *
  have hcursor : next.start = Utf8.size before := hstart.trans hstands.cursor
  have hleaves : next.Leaves (before ++ (span ++ after)) after :=
    ⟨before ++ span, (List.append_assoc _ _ _).symm, hafter⟩
  refine ⟨token, after, htoken, hkind, htext, hleaves, ⟨before, rfl, ?_, hcursor⟩, ?_⟩
  · exact hafter.input.trans (List.append_assoc _ _ _)
  · rintro rfl
    refine ⟨hleaves, before, ?_, hcursor⟩
    cases hspans <;> cases hkind
    rfl

/-- A scan that finds text leaves less of it. -/
theorem Leaves.scanFor_lt {kinds : TokenKinds} {accept : Acceptance} {kind : TokenKind} {next : Scanner}
    (h : scanner.Leaves input s) (hscan : Descent.scanFor kinds accept scanner = (kind, next))
    (he : kind ≠ .ending) (hi : kind ≠ .illegal) :
    ∃ token rest, Token.scan kinds accept s = (token, rest) ∧ kind = token.kind ∧
      next.text = token.text ∧ rest.length < s.length ∧ next.Leaves input rest ∧
      (kind = .opening → next.Opens input rest) := by
  obtain ⟨token, rest, htoken, rfl, htext, hleaves, -, hopens⟩ := h.scanFor hscan
  have hlt : rest.length < s.length := by
    refine Token.length_scan_lt htoken (fun heq => he ?_) fun heq => hi ?_
    · rw [heq, Token.kind]
    · rw [heq, Token.kind]
  exact ⟨token, rest, htoken, rfl, htext, hlt, hleaves, hopens⟩

end

end Scanner

/-! ## What scans find -/

namespace Token

section

variable {kinds : TokenKinds} {accept : Acceptance} {s rest : Text} {token : Token} {closing : Bool}

theorem kind_of_afterDollar? (h : afterDollar? kinds s = some (token, rest)) :
    token.kind ∈ [.opening, .dollars, .reference] := by
  unfold afterDollar? at h
  split at h
  · cases h
  · split at h <;> cases h
    decide
  · split at h
    · split at h <;> cases h <;> exact List.mem_of_elem_eq_true rfl
    · cases h
  · split at h <;> cases h
    exact List.mem_of_elem_eq_true rfl

theorem kind_scanText (kinds : TokenKinds) (accept : Acceptance) (s : Text) :
    (scanText kinds accept s).1.kind ∈ [.run, .illegal] := by
  unfold scanText
  split
  · split <;> simp [kind]
  · simp [kind]

/-- A scan finds the end, what a dollar starts, a closing brace if it is looked for, or text. -/
theorem scan_cases (kinds : TokenKinds) (accept : Acceptance) (s : Text) :
    scan kinds accept s = (.ending, s) ∨
      (scan kinds accept s).1.kind ∈ [.opening, .dollars, .reference] ∨
      kinds.closing = true ∧ (scan kinds accept s).1 = .closing ∨
      s ≠ [] ∧ scan kinds accept s = scanText kinds accept s := by
  unfold scan
  split
  · exact .inl rfl
  · rename_i t
    cases hdollar : afterDollar? kinds t with
    | none => exact .inr (.inr (.inr ⟨List.cons_ne_nil _ _, rfl⟩))
    | some found => exact .inr (.inl (kind_of_afterDollar? hdollar))
  · split
    · rename_i hclosing
      exact .inr (.inr (.inl ⟨hclosing, rfl⟩))
    · exact .inr (.inr (.inr ⟨List.cons_ne_nil _ _, rfl⟩))
  · rename_i hnil _ _
    exact .inr (.inr (.inr ⟨hnil, rfl⟩))

/-- A closing brace is found only where it is looked for. -/
theorem kind_scan_ne_closing (hkinds : kinds.closing = false) (accept : Acceptance) (s : Text) :
    (scan kinds accept s).1.kind ≠ .closing := by
  intro hkind
  rcases scan_cases kinds accept s with hend | hdollar | ⟨hclosing, -⟩ | ⟨-, htext⟩
  · rw [hend] at hkind
    cases hkind
  · rw [hkind] at hdollar
    exact absurd hdollar (by decide)
  · rw [hkinds] at hclosing
    cases hclosing
  · have hmem := kind_scanText kinds accept s
    rw [← htext, hkind] at hmem
    exact absurd hmem (by decide)

/-- Outside of every expansion each character starts a token. -/
theorem kind_scan_outside_ne_illegal (s : Text) :
    (scan Region.outside.kinds Region.outside.accepts s).1.kind ≠ .illegal := by
  intro hkind
  rcases scan_cases Region.outside.kinds Region.outside.accepts s with
    hend | hdollar | ⟨-, hclosing⟩ | ⟨hne, htext⟩
  · rw [hend] at hkind
    cases hkind
  · rw [hkind] at hdollar
    exact absurd hdollar (by decide)
  · rw [hclosing] at hkind
    cases hkind
  · obtain ⟨c, t, rfl⟩ := List.exists_cons_of_ne_nil hne
    have hstop : ¬ stopsRun Region.outside.kinds Region.outside.accepts 0 c t = true := by
      simp [Parser.stopsRun_iff, ends]
    rw [htext, scanText, if_pos (show Region.outside.kinds.run = true from rfl),
      Parser.scanRun_char hstop (by simp)] at hkind
    cases hkind

/-! ## Runs without escapes and dollars -/

theorem afterDollar?_letters (closing : Bool) (s : Text) :
    afterDollar? { run := true, closing } s = none := by
  unfold afterDollar?
  split <;> rfl

theorem scanRun_letters (closing : Bool) (accept : Acceptance) (index : Nat) (c : Char) (s : Text) :
    scanRun { run := true, closing } accept index (c :: s) =
      if accept c index then
        (c :: (scanRun { run := true, closing } accept (index + 1) s).1,
          (scanRun { run := true, closing } accept (index + 1) s).2)
      else ([], c :: s) := by
  have hstop : ∀ t, stopsRun { run := true, closing } accept index c t = !accept c index := by
    intro t
    simp [stopsRun, afterDollar?_letters]
  cases s with
  | nil => cases haccept : accept c index <;> simp [scanRun, hstop, haccept]
  | cons d s => cases haccept : accept c index <;> simp [scanRun, hstop, haccept]

theorem scan_letters {c : Char} (hc : c = '}' → closing = false) (accept : Acceptance) (s : Text) :
    scan { run := true, closing } accept (c :: s)
      = scanText { run := true, closing } accept (c :: s) := by
  unfold scan
  split
  · contradiction
  · rename_i heq
    cases heq
    rw [afterDollar?_letters, Option.getD_none]
  · rename_i heq
    cases heq
    rw [if_neg (by simp [hc rfl])]
  · rfl

/-- A run of letters is found as far as it is accepted. -/
theorem scanRun_accepted {run rest : Text} {index : Nat}
    (hrun : ∀ p ∈ run.zipIdx index, accept p.1 p.2 = true)
    (hrest : ∀ c ∈ rest.head?, accept c (index + run.length) = false) :
    scanRun { run := true, closing } accept index (run ++ rest) = (run, rest) := by
  induction run generalizing index with
  | nil =>
    cases rest with
    | nil => rfl
    | cons c rest => simp [scanRun_letters, show accept c index = false from hrest c rfl]
  | cons c run ih =>
    rw [List.zipIdx_cons] at hrun
    have hc : accept c index = true := hrun (c, index) List.mem_cons_self
    have hmore := ih (fun p hp => hrun p (List.mem_cons_of_mem _ hp))
      (by rwa [Nat.add_right_comm, Nat.add_assoc])
    rw [List.cons_append, scanRun_letters, if_pos hc, hmore]

theorem scan_accepted {c : Char} {run rest : Text} (hc : c = '}' → closing = false)
    (hrun : ∀ p ∈ (c :: run).zipIdx, accept p.1 p.2 = true)
    (hrest : ∀ d ∈ rest.head?, accept d (c :: run).length = false) :
    scan { run := true, closing } accept (c :: run ++ rest) = (.run (c :: run), rest) := by
  have hread : scanRun { run := true, closing } accept 0 (c :: run ++ rest) = (c :: run, rest) :=
    scanRun_accepted hrun (by rwa [Nat.zero_add])
  rw [List.cons_append] at hread ⊢
  rw [scan_letters hc, scanText, if_pos rfl, hread]

/-- The letters of a name are taken as far as they go. -/
theorem scanRun_name (index : Nat) (s : Text) :
    scanRun { run := true } (fun c _ => isNameChar c) index s
      = (s.takeWhile isNameChar, s.dropWhile isNameChar) := by
  induction s generalizing index with
  | nil => rfl
  | cons c s ih =>
    rw [scanRun_letters, ih]
    cases hc : isNameChar c <;> simp [hc]

theorem scan_name (s : Text) :
    scan { run := true } (fun c _ => isNameChar c) s =
      if s.takeWhile isNameChar = [] then (if s = [] then .ending else .illegal, s)
      else (.run (s.takeWhile isNameChar), s.dropWhile isNameChar) := by
  cases s with
  | nil => rfl
  | cons c s =>
    rw [scan_letters (fun _ => rfl), scanText, if_pos rfl, scanRun_name]
    cases hc : isNameChar c <;> simp [hc]

end

end Token

/-! ## The families of operators -/

namespace Operator.Family

section

variable {op : Operator} {s t : Text}

/-- A scan takes an operator as a whole. -/
theorem scan_spelling {family : Family}
    (hrun : ∀ p ∈ op.spelling.zipIdx, family.accepts p.1 p.2 = true)
    (hrest : ∀ c ∈ t.head?, family.accepts c op.spelling.length = false) :
    Token.scan { run := true } family.accepts (op.spelling ++ t) = (.run op.spelling, t) := by
  obtain ⟨c, spelling, hcons⟩ := List.exists_cons_of_ne_nil op.spelling_ne_nil
  rw [hcons] at hrun hrest ⊢
  exact Token.scan_accepted (fun _ => rfl) hrun hrest

/-- A case sign that is an operator is not followed by another. -/
theorem casing_rejects {sign : Char} (hsign : sign = ',' ∨ sign = '^')
    (h : find (sign :: t) = .operator op t) :
    ∀ c ∈ t.head?, casing.accepts c 1 = false := by
  intro c hc
  obtain ⟨t, rfl⟩ := List.head?_eq_some_iff.1 hc
  cases haccept : casing.accepts c 1 with
  | false => rfl
  | true =>
    have hc : c = ',' ∨ c = '^' := by simpa [accepts] using haccept
    rcases hsign with rfl | rfl <;> rcases hc with rfl | rfl <;> simp [find] at h

/-- An operator is of the family that its first two characters announce. -/
theorem announced?_of_operator (h : find s = .operator op t) :
    ∃ family, announced? s.head? s.tail.head? = some family ∧
      Token.scan { run := true } family.accepts s = (.run op.spelling, t) ∧
      family.operators.find? (·.spelling = op.spelling) = some op := by
  obtain rfl := eq_append_of_find h
  have hlongest := find_eq_operator h
  cases op with
  | length => simp [Operator.layout, caseOperators] at hlongest
  | lowerFirst =>
    exact ⟨.casing, rfl, scan_spelling (by decide) (casing_rejects (.inl rfl) h), rfl⟩
  | upperFirst =>
    exact ⟨.casing, rfl, scan_spelling (by decide) (casing_rejects (.inr rfl) h), rfl⟩
  | lowerAll | upperAll =>
    exact ⟨.casing, rfl, scan_spelling (by decide) (by simp [accepts, spelling]), rfl⟩
  | slice =>
    obtain ⟨-, hsign⟩ := hlongest
    refine ⟨.slice, ?_, scan_spelling (by decide) (by simp [accepts, spelling]), rfl⟩
    have hnone : t.head?.any isTestSign = false := by
      cases hhead : t.head? with
      | none => rfl
      | some c => simpa [isTestSign, and_assoc] using hsign c hhead
    simp [announced?, spelling, hnone]
  | trim side extent =>
    obtain ⟨-, hshort⟩ := isLongest_word_iff.1 hlongest
    refine ⟨.trim side, ?_, scan_spelling ?_ ?_, ?_⟩
    case refine_3 =>
      cases extent with
      | longest => simp [accepts, spelling]
      | shortest =>
        intro c hc
        have hne : c ≠ side.mark := fun heq => hshort side rfl (heq ▸ hc)
        simp [accepts, hne]
    all_goals cases side <;> cases extent
    all_goals first | rfl | decide
  | replace place =>
    obtain ⟨-, hfirst⟩ := isLongest_replace_iff.1 hlongest
    refine ⟨.replace, rfl, scan_spelling ?_ ?_, ?_⟩
    case refine_2 =>
      cases place with
      | first =>
        intro c hc
        simpa [accepts, spelling, MatchPlace.mark, and_assoc] using hfirst rfl c hc
      | start | finish | everywhere => simp [accepts, spelling, MatchPlace.mark]
    all_goals cases place <;> decide
  | default test | assign test | require test | alternative test =>
    refine ⟨.test test, ?_, scan_spelling ?_ ?_, ?_⟩
    all_goals cases test
    all_goals first | rfl | decide | simp [accepts, spelling, MissingTest.mark]

/-- Two case signs that differ are scanned together, and are no operator. -/
theorem announced?_of_mixedCase (h : find s = .mixedCase t) :
    ∃ pair, announced? s.head? s.tail.head? = some .casing ∧
      Token.scan { run := true } casing.accepts s = (.run pair, t) ∧
      casing.operators.find? (·.spelling = pair) = none := by
  have hscan : ∀ c d, (∀ p ∈ [c, d].zipIdx, casing.accepts p.1 p.2 = true) →
      Token.scan { run := true } casing.accepts (c :: d :: t) = (.run [c, d], t) := by
    intro c d haccepts
    exact Token.scan_accepted (fun _ => rfl) haccepts (by simp [accepts])
  unfold find at h
  split at h <;> cases h
  · exact ⟨[',', '^'], rfl, hscan ',' '^' (by decide), by decide⟩
  · exact ⟨['^', ','], rfl, hscan '^' ',' (by decide), by decide⟩

/-- The characters that an operator starts with. -/
def signs : List Char := [':', '-', '=', '?', '+', ',', '^', '/', '#', '%']

theorem not_mem_signs_of_nothing (h : find s = .nothing) : ∀ c ∈ s.head?, c ∉ signs := by
  intro c hc hsign
  obtain ⟨t, rfl⟩ := List.head?_eq_some_iff.1 hc
  unfold find at h
  split at h <;> cases h
  rename_i hcolon hminus hequals hquestion hplus _ _ hcomma _ _ hcaret _ _ _ hslash _ hhash _
    hpercent
  simp only [signs, List.mem_cons, List.not_mem_nil, or_false] at hsign
  rcases hsign with rfl | rfl | rfl | rfl | rfl | rfl | rfl | rfl | rfl | rfl
  exacts [hcolon t rfl, hminus t rfl, hequals t rfl, hquestion t rfl, hplus t rfl, hcomma t rfl,
    hcaret t rfl, hslash t rfl, hhash t rfl, hpercent t rfl]

/-- Where there is no operator, none is announced. -/
theorem announced?_of_nothing (h : find s = .nothing) :
    announced? s.head? s.tail.head? = none := by
  have hsigns := not_mem_signs_of_nothing h
  unfold announced?
  split
  all_goals simp_all [signs, isTestSign]

end

end Operator.Family

namespace Descent

open Operator Scanner ShellExpansion.Parser

/-! ## Readers that agree -/

/-- A reader with a scanner comes to the value that a reader without one comes to, as far as `view`
shows, and leaves the same text; or both fail in the same way. -/
inductive Agrees {α β : Type} {scanner : Scanner} (input : Text) (view : α → β) :
    Result α scanner → Except Fault (β × Text) → Prop
  | ok {onward : Onward α scanner} {rest : Text} (h : onward.next.Leaves input rest) :
      Agrees input view (.ok onward) (.ok (view onward.value, rest))
  | error {fault : Fault} : Agrees input view (.error (.ofFault input fault)) (.error fault)

section

variable {α β γ δ : Type} {scanner later next : Scanner} {input s t rest : Text}
  {x : Result α scanner} {y : Except Fault (β × Text)} {view : α → β} {view' : γ → δ}

theorem Agrees.of_ok {b : β} (h : Agrees input view x (.ok (b, rest))) :
    ∃ onward, x = .ok onward ∧ view onward.value = b ∧ onward.next.Leaves input rest := by
  generalize hy : (.ok (b, rest) : Except Fault (β × Text)) = y at h
  cases h with
  | @ok onward rest h =>
    cases hy
    exact ⟨onward, rfl, rfl, h⟩
  | error => cases hy

theorem Agrees.bind {f : Onward α scanner → Result γ later} {g : β × Text → Except Fault (δ × Text)}
    (h : Agrees input view x y)
    (hrest : ∀ onward rest, y = .ok (view onward.value, rest) → onward.next.Leaves input rest →
      Agrees input view' (f onward) (g (view onward.value, rest))) :
    Agrees input view' (x >>= f) (y.bind g) := by
  cases h with
  | ok h => exact hrest _ _ rfl h
  | error => exact .error

theorem Agrees.lift {x : Result α later} (h : Agrees input view x y)
    (hle : later.rest.length ≤ scanner.rest.length) {f : α → γ} {g : β → δ}
    (hfg : ∀ a, view' (f a) = g (view a)) :
    Agrees input view' (x >>= fun onward => pure (onward.lift hle f) : Result γ scanner)
      (y.map fun found => (g found.1, found.2)) := by
  cases h with
  | @ok onward rest h =>
    show Agrees input view' (.ok (onward.lift hle f)) (.ok (g (view onward.value), rest))
    rw [← hfg]
    exact .ok h
  | error => exact .error

theorem Agrees.bind_error {f : Onward α scanner → Result γ later} {fault : Fault}
    (h : Agrees input view x (.error fault)) : Agrees input view' (x >>= f) (.error fault) :=
  h.bind (g := fun _ => .error fault) fun _ _ hok => by cases hok

/-- A reading from a later place is one from here. -/
theorem Agrees.lift_id {x : Result α later} (h : Agrees input view x y)
    {hle : Onward α later → later.rest.length ≤ scanner.rest.length} :
    Agrees input view
      (x >>= fun onward => pure (onward.lift (hle onward) id) : Result α scanner) y := by
  cases h with
  | ok h => exact .ok h
  | error => exact .error

/-! ## Runs -/

theorem runOf_of_run {accept : Acceptance} {text : Text} (hs : scanner.Leaves input s)
    (hscan : Token.scan { run := true } accept s = (.run text, rest)) (failure : StopReason) :
    Agrees input id (runOf accept failure scanner) (.ok (text, rest)) := by
  unfold runOf
  split
  · rename_i next h
    obtain ⟨token, rest', htoken, -, htext, hleaves, -⟩ := hs.scanFor h
    rw [hscan] at htoken
    cases htoken
    obtain rfl : next.text = text := htext
    exact .ok hleaves
  · rename_i kind next hne h
    obtain ⟨token, rest', htoken, hkind, -⟩ := hs.scanFor h
    rw [hscan] at htoken
    cases htoken
    exact (hne hkind).elim

theorem nameOf_agrees (hs : scanner.Leaves input s) (error : ParseError) :
    Agrees input id (nameOf (.error error) scanner)
      (if s.takeWhile isNameChar = [] then .error ⟨error, s⟩
        else .ok (s.takeWhile isNameChar, s.dropWhile isNameChar)) := by
  have hscan := Token.scan_name s
  split
  · rename_i hname
    rw [if_pos hname] at hscan
    unfold nameOf runOf
    split
    · rename_i next h
      obtain ⟨token, rest, htoken, hkind, -⟩ := hs.scanFor h
      rw [hscan] at htoken
      cases htoken
      split at hkind <;> cases hkind
    · rename_i next _ h
      obtain ⟨token, rest, htoken, -, -, hleaves, -⟩ := hs.scanFor h
      rw [hscan] at htoken
      cases htoken
      rw [hleaves.stop_eq]
      exact .error
  · rename_i hname
    rw [if_neg hname] at hscan
    exact runOf_of_run hs hscan _

/-! ## Operators -/

theorem operatorOf_of_operator {op : Operator} (hs : scanner.Leaves input s)
    (hfind : find s = .operator op t) :
    ∃ family, Family.announced? s.head? s.tail.head? = some family ∧
      Agrees input id (operatorOf family scanner) (.ok (op, t)) := by
  obtain ⟨family, hannounced, hscan, hop⟩ := Family.announced?_of_operator hfind
  refine ⟨family, hannounced, ?_⟩
  obtain ⟨token, hrun, hvalue, hleaves⟩ := (runOf_of_run hs hscan family.failure).of_ok
  rw [← hvalue] at hop
  simp only [operatorOf, hrun, bind, Except.bind]
  rw [show family.operators.find? (·.spelling = token.value) = some op from hop]
  exact .ok hleaves

theorem operatorOf_of_mixedCase (hs : scanner.Leaves input s) (hfind : find s = .mixedCase t) :
    Family.announced? s.head? s.tail.head? = some .casing ∧
      operatorOf .casing scanner = .error (.ofFault input ⟨.badSubstitution, t⟩) := by
  obtain ⟨pair, hannounced, hscan, hpair⟩ := Family.announced?_of_mixedCase hfind
  refine ⟨hannounced, ?_⟩
  obtain ⟨token, hrun, hvalue, hleaves⟩ := (runOf_of_run hs hscan Family.casing.failure).of_ok
  rw [← hvalue] at hpair
  simp only [operatorOf, hrun, bind, Except.bind]
  rw [show Family.casing.operators.find? (·.spelling = token.value) = none from hpair]
  exact congrArg Except.error (hleaves.stop_eq .badSubstitution)

/-! ## Closing braces -/

theorem closeBrace_agrees (hs : scanner.Leaves input s) :
    Agrees input id (closeBrace scanner) (outcome (Parser.closeBrace s)) := by
  have hscan := Parser.scan_closing (fun _ _ => true) s
  rw [closeBrace_eq]
  unfold closeBrace
  split
  · rename_i next h
    obtain ⟨token, rest, htoken, hkind, -, hleaves, -⟩ := hs.scanFor h
    rw [htoken] at hscan
    split at hscan <;> cases hscan <;> cases hkind
    exact .ok hleaves
  · rename_i next h
    obtain ⟨token, rest, htoken, hkind, -, hleaves, -⟩ := hs.scanFor h
    rw [htoken] at hscan
    split at hscan <;> cases hscan <;> cases hkind
    rw [hleaves.stop_eq]
    exact .error
  · rename_i kind next hclosing hending h
    obtain ⟨token, rest, htoken, hkind, -, hleaves, -⟩ := hs.scanFor h
    rw [htoken] at hscan
    split at hscan <;> cases hscan
    · exact (hending hkind).elim
    · exact (hclosing hkind).elim
    · rw [hleaves.stop_eq]
      exact .error

/-! ## Expansions that are closed -/

theorem fitsArity_of_hasArity {count : Nat} {op : Option Operator} (h : Node.HasArity count op) :
    fitsArity op count = true := by
  cases op with
  | none => rfl
  | some op => simpa [fitsArity, Node.HasArity] using h

variable {opener : Scanner} {depth : Nat} {name : Text} {op : Option Operator} {args : List Node}

/-- The source of an expansion is cut out of the input. -/
theorem finish_eq (hopener : opener.Opens input s) (hnext : next.Leaves input rest)
    (hle : rest.length ≤ s.length) (harity : Node.HasArity args.length op) :
    finish depth name op args opener.start next = .ok (braced depth s rest name op args) := by
  obtain ⟨-, before, hopens, hstart⟩ := hopener
  obtain ⟨before', hinput, hstands⟩ := hnext
  obtain ⟨body, rfl⟩ : rest <:+ s :=
    List.suffix_of_suffix_length_le ⟨before', hinput.symm⟩
      ⟨before ++ ['$', '{'], by simp [hopens]⟩ hle
  have hbody : before' = before ++ '$' :: '{' :: body := by
    refine (List.append_left_inj rest).1 ?_
    rw [← hinput, hopens]
    simp
  have hsource : Utf8.between? opener.start next.cursor next.input = some ('$' :: '{' :: body) := by
    rw [hstart, hstands.cursor, hstands.input, hbody, Utf8.size_append, List.append_assoc]
    exact Utf8.between?_append before ('$' :: '{' :: body) rest
  rw [finish, if_pos (fitsArity_of_hasArity harity), hsource, braced, Text.read_append,
    Option.getD_some]

/-- The closing brace ends an expansion as it does without a scanner. -/
theorem closed_agrees (hopener : opener.Opens input s) (hscanner : scanner.Leaves input t)
    (hle : t.length ≤ s.length) (harity : Node.HasArity args.length op) :
    Agrees input id (closed depth name op args opener.start scanner)
      ((outcome (Parser.closeBrace t)).map fun brace =>
        (braced depth s brace.2 name op args, brace.2)) := by
  refine (closeBrace_agrees hscanner).bind (g := fun brace =>
    .ok (braced depth s brace.2 name op args, brace.2)) ?_
  rintro brace rest - hleaves
  have hrest : rest.length ≤ s.length := by
    have hbrace := brace.rest_le
    rw [hleaves.rest_eq, hscanner.rest_eq] at hbrace
    exact Nat.le_trans hbrace hle
  simp only [finish_eq hopener hleaves hrest harity, bind, Except.bind]
  exact .ok hleaves

end

/-! ## Regions -/

/-- Every region of the text is read alike by both readers. -/
def PiecesAgree (limit : Nat) (input s : Text) : Prop :=
  ∀ region depth (scanner : Scanner), scanner.Leaves input s →
    Agrees input Node.mergeText (pieces limit region depth scanner) (merged limit region depth s)

section

variable {limit depth : Nat} {scanner : Scanner} {input s t rest : Text} {sign : Char}
  {alarm : Alarm}

theorem separator_of_sign (hs : scanner.Leaves input (sign :: t)) (hsign : sign ≠ '}')
    (alarm : Alarm) : Agrees input id (separator sign alarm scanner) (.ok (true, t)) := by
  have hscan : Token.scan { run := true, closing := true }
      (fun c index => c == sign && index == 0) ([sign] ++ t) = (.run [sign], t) :=
    Token.scan_accepted (fun heq => absurd heq hsign) (by simp) (by simp)
  unfold separator
  split
  all_goals
    rename_i h
    obtain ⟨token, rest, htoken, hkind, -, hleaves, -⟩ := hs.scanFor h
    cases hscan.symm.trans htoken
  · exact .ok hleaves
  · cases hkind
  · cases hkind
  · rename_i hrun _ _
    exact (hrun hkind).elim

theorem separator_of_brace (hs : scanner.Leaves input ('}' :: t)) (sign : Char) (alarm : Alarm) :
    Agrees input id (separator sign alarm scanner) (.ok (false, '}' :: t)) := by
  unfold separator
  split
  all_goals
    rename_i h
    obtain ⟨token, rest, htoken, hkind, -, -, hunread, -⟩ := hs.scanFor h
    cases htoken
  · cases hkind
  · exact .ok hunread
  · cases hkind
  · rename_i hclosing _
    exact (hclosing hkind).elim

theorem separator_of_end (hs : scanner.Leaves input []) (sign : Char) (alarm : Alarm) :
    Agrees input id (separator sign alarm scanner) (.error ⟨.missingClosingBrace, []⟩) := by
  unfold separator
  split
  all_goals
    rename_i h
    obtain ⟨token, rest, htoken, hkind, -, hleaves, -⟩ := hs.scanFor h
    cases htoken
  · cases hkind
  · cases hkind
  · rw [hleaves.stop_eq]
    exact .error
  · rename_i hending
    exact (hending hkind).elim

/-- What is read after the first of two words: the second word if there is a separator, and nothing
more in front of a closing brace. -/
def separated (limit : Nat) (region : Region) (depth : Nat) (sign : Char)
    (f : List Node → List Node) (alone : List Node) : Text → Except Fault (List Node × Text)
  | [] => .error ⟨.missingClosingBrace, []⟩
  | c :: t =>
    if c = sign then (merged limit region depth t).map fun found => (f found.1, found.2)
    else .ok (alone, c :: t)

theorem separated_agrees {scanner later : Scanner} (region : Region) (depth : Nat) (sign : Char)
    (alarm : Alarm) (f : List Node → List Node) (alone : List Node)
    (hs : ∀ t, t.length ≤ s.length → PiecesAgree limit input t)
    (hscanner : later.Leaves input s) (hsign : sign ≠ '}')
    (hends : ∀ c ∈ s.head?, c = sign ∨ c = '}') (hf : ∀ nodes, f nodes = f (Node.mergeText nodes))
    (hle : ∀ mark : Onward Bool later, mark.next.rest.length ≤ scanner.rest.length) :
    Agrees input id
      (do
        let mark ← separator sign alarm later
        if mark.value then
          let more ← pieces limit region depth mark.next
          return more.lift (hle mark) f
        else return ⟨alone, mark.next, hle mark⟩ : Result (List Node) scanner)
      (separated limit region depth sign f alone s) := by
  rcases s with _ | ⟨c, t⟩
  · exact (separator_of_end hscanner sign alarm).bind (g := fun _ => .ok (alone, [])) nofun
  · rw [separated]
    rcases hends c rfl with rfl | rfl
    · obtain ⟨mark, hmark, hvalue, hleaves⟩ := (separator_of_sign hscanner hsign alarm).of_ok
      rw [hmark, if_pos rfl]
      show Agrees input id (if mark.value = true then _ else _) _
      rw [if_pos (show mark.value = true from hvalue)]
      exact (hs t (Nat.le_succ _) region depth mark.next hleaves).lift (hle mark) hf
    · obtain ⟨mark, hmark, hvalue, hleaves⟩ := (separator_of_brace hscanner sign alarm).of_ok
      rw [hmark, if_neg hsign.symm]
      show Agrees input id (if mark.value = true then _ else _) _
      rw [if_neg (by simpa using hvalue)]
      exact .ok hleaves

theorem words_agrees (hs : ∀ t, t.length ≤ s.length → PiecesAgree limit input t)
    (hscanner : scanner.Leaves input s) (layout : Layout) (depth : Nat) :
    Agrees input id (words limit layout depth scanner)
      (outcome (Parser.words limit layout depth s)) := by
  -- where a word ends is known from its grammar, so that only a separator or a brace can follow
  have hends : ∀ {region rest nodes}, merged limit region (depth + 1) s = .ok (nodes, rest) →
      (∀ t, t.length ≤ rest.length → PiecesAgree limit input t) ∧ Ends region rest := by
    intro region rest nodes hread
    obtain ⟨text, -, rfl, -, hends, -⟩ := isDerived limit s _ _ _ _ hread
    exact ⟨fun t ht => hs t (by rw [List.length_append]; omega), hends⟩
  rw [words_eq]
  cases layout with
  | bare =>
    rw [words]
    exact .ok hscanner
  | word =>
    rw [words]
    refine Agrees.lift (g := fun nodes => [Node.ofPieces nodes])
      (hs s le_rfl .word (depth + 1) scanner hscanner) (Nat.le_refl _) ?_
    intro word
    exact congrArg (fun node => [node]) (Node.ofPieces_mergeText word).symm
  | fields =>
    rw [words]
    refine (hs s le_rfl .field (depth + 1) scanner hscanner).bind ?_
    rintro offset rest hread hleaves
    obtain ⟨hrest, hends⟩ := hends hread
    simp only [Node.ofPieces_mergeText]
    split
    · rw [hleaves.stop_eq]
      exact .error
    · have hagrees := separated_agrees .field (depth + 1) ':' .afterOffset
        (fun nodes => [.ofPieces offset.value, .ofPieces nodes]) [.ofPieces offset.value] hrest
        hleaves (by decide) (by simpa [Ends, ends] using hends) (by simp [Node.ofPieces_mergeText])
        (fun mark => Nat.le_trans mark.rest_le offset.rest_le)
      rcases rest with _ | ⟨c, t⟩
      · exact hagrees
      · obtain rfl | rfl : c = ':' ∨ c = '}' := by simpa [Ends, ends] using hends
        · exact hagrees
        · exact hagrees
  | replacement =>
    rw [words]
    refine (hs s le_rfl .pattern (depth + 1) scanner hscanner).bind ?_
    rintro pattern rest hread hleaves
    obtain ⟨hrest, hends⟩ := hends hread
    simp only [Node.ofPieces_mergeText]
    have hagrees := separated_agrees .word (depth + 1) '/' .afterPattern
      (fun nodes => [.ofPieces pattern.value, .ofPieces nodes]) [.ofPieces pattern.value, .text []]
      hrest hleaves (by decide) (by simpa [Ends, ends] using hends)
      (by simp [Node.ofPieces_mergeText]) (fun mark => Nat.le_trans mark.rest_le pattern.rest_le)
    rcases rest with _ | ⟨c, t⟩
    · exact hagrees
    · obtain rfl | rfl : c = '/' ∨ c = '}' := by simpa [Ends, ends] using hends
      · exact hagrees
      · exact hagrees

/-! ## Expansions -/

theorem hasArity_of_words {op : Operator} {args : List Node}
    (h : outcome (Parser.words limit op.layout depth s) = .ok (args, rest)) :
    Node.HasArity args.length (some op) := by
  rw [hasArity_iff]
  rw [words_eq] at h
  cases hlayout : op.layout <;> simp only [hlayout] at h ⊢
  · cases h
    rfl
  · obtain ⟨word, -, heq⟩ := except_map_eq_ok h
    cases heq
    rfl
  · obtain ⟨offset, -, h⟩ := except_bind_eq_ok h
    split at h
    · cases h
    · split at h
      · obtain ⟨length, -, heq⟩ := except_map_eq_ok h
        cases heq
        exact .inr rfl
      · cases h
        exact .inl rfl
      · cases h
      · cases h
  · obtain ⟨pattern, -, h⟩ := except_bind_eq_ok h
    split at h
    · obtain ⟨word, -, heq⟩ := except_map_eq_ok h
      cases heq
      rfl
    · cases h
      rfl
    · cases h
    · cases h

theorem expansion_hash_agrees (hopens : scanner.Opens input ('#' :: t)) (hdepth : depth ≤ limit) :
    Agrees input id (expansion limit depth scanner)
      (outcome (Parser.expansion limit depth ('#' :: t))) := by
  have hpeek : scanner.peek = some '#' := by rw [peek, hopens.1.rest_eq, List.head?_cons]
  have hscan : Token.scan { run := true } (fun c index => c == '#' && index == 0) (['#'] ++ t)
      = (.run ['#'], t) := Token.scan_accepted (fun _ => rfl) (by simp) (by simp)
  obtain ⟨hash, hrun, -, hhash⟩ := (runOf_of_run hopens.1 hscan (.error .badSubstitution)).of_ok
  rw [expansion, if_neg (Nat.not_lt.2 hdepth), if_pos hpeek, expansion_hash hdepth, hrun]
  have hname := nameOf_agrees hhash .badSubstitution
  split
  · rename_i hempty
    rw [if_pos hempty] at hname
    exact hname.bind_error
  · rename_i hne
    rw [if_neg hne] at hname
    obtain ⟨name, hread, hvalue, hafter⟩ := hname.of_ok
    rw [← show name.value = t.takeWhile isNameChar from hvalue]
    show Agrees input id (nameOf _ hash.next >>= _) _
    rw [hread]
    have hle : (t.dropWhile isNameChar).length ≤ ('#' :: t).length :=
      Nat.le_succ_of_le (Token.length_dropWhile_le _ _)
    exact (closed_agrees hopens hafter hle (hasArity_iff.2 rfl)).lift_id

theorem expansion_named_agrees (hs : ∀ t, t.length < s.length → PiecesAgree limit input t)
    (hopens : scanner.Opens input s) (hdepth : depth ≤ limit) (hhash : s.head? ≠ some '#') :
    Agrees input id (expansion limit depth scanner)
      (outcome (Parser.expansion limit depth s)) := by
  have hpeek : scanner.peek ≠ some '#' := by rwa [peek, hopens.1.rest_eq]
  rw [expansion, if_neg (Nat.not_lt.2 hdepth), if_neg hpeek, expansion_named hdepth hhash]
  have hname := nameOf_agrees hopens.1 .variableName
  split
  · rename_i hempty
    rw [if_pos hempty] at hname
    exact hname.bind_error
  · rename_i hne
    rw [if_neg hne] at hname
    obtain ⟨name, hread, hvalue, hafter⟩ := hname.of_ok
    -- the scanner looks two characters ahead, of a rest that is the same for both readers
    have hannounced : Operator.Family.announced? name.next.peek name.next.peekTwo
        = Operator.Family.announced? (s.dropWhile isNameChar).head?
          (s.dropWhile isNameChar).tail.head? := by
      rw [peek, peekTwo, hafter.rest_eq]
    rw [← show name.value = s.takeWhile isNameChar from hvalue, hread]
    show Agrees input id (Except.bind (.ok name) _) _
    simp only [Except.bind, hannounced]
    cases hfind : find (s.dropWhile isNameChar) with
    | operator op t =>
      obtain ⟨family, hfamily, hop⟩ := operatorOf_of_operator hafter hfind
      rw [hfamily]
      obtain ⟨token, hoperator, hvalue, hwords⟩ := hop.of_ok
      obtain rfl : token.value = op := hvalue
      have hlt : t.length < s.length :=
        Nat.lt_trans (length_lt_of_find hfind) (length_dropWhile_lt hne)
      show Agrees input id (operatorOf family name.next >>= _) _
      rw [hoperator]
      refine (words_agrees (fun u hu => hs u (Nat.lt_of_le_of_lt hu hlt)) hwords token.value.layout
        depth).bind ?_
      intro args rest hargs hclose
      have hle : rest.length ≤ s.length := by
        have hrest := args.rest_le
        rw [hclose.rest_eq, hwords.rest_eq] at hrest
        exact Nat.le_trans hrest (Nat.le_of_lt hlt)
      exact (closed_agrees hopens hclose hle (hasArity_of_words hargs)).lift_id
    | mixedCase t =>
      obtain ⟨hcasing, hoperator⟩ := operatorOf_of_mixedCase hafter hfind
      rw [hcasing]
      show Agrees input id (operatorOf .casing name.next >>= _) _
      rw [hoperator]
      exact .error
    | nothing =>
      rw [Family.announced?_of_nothing hfind]
      have hscan := Parser.scan_closing (fun c _ => isNameChar c) (s.dropWhile isNameChar)
      have hle : (s.dropWhile isNameChar).length ≤ s.length := Token.length_dropWhile_le _ _
      generalize s.dropWhile isNameChar = after at hscan hle hafter
      simp only
      split
      · rename_i next h
        obtain ⟨token, rest, htoken, hkind, -, hleaves, -⟩ := hafter.scanFor h
        rw [htoken] at hscan
        split at hscan <;> cases hscan <;> cases hkind
        have harity : Node.HasArity ([] : List Node).length none := rfl
        rw [finish_eq hopens hleaves (Nat.le_trans (Nat.le_succ _) hle) harity]
        exact .ok hleaves
      · rename_i kind next hne h
        obtain ⟨token, rest, htoken, hkind, -, hleaves, -⟩ := hafter.scanFor h
        rw [htoken] at hscan
        split at hscan <;> cases hscan
        · rw [hleaves.stop_eq]
          exact .error
        · exact (hne hkind).elim
        · rename_i hbrace
          rw [hleaves.stop_eq]
          split
          · rename_i heq
            cases heq
            exact (hbrace rfl).elim
          · exact .error

theorem expansion_agrees (hs : ∀ t, t.length < s.length → PiecesAgree limit input t)
    (hopens : scanner.Opens input s) (depth : Nat) :
    Agrees input id (expansion limit depth scanner)
      (outcome (Parser.expansion limit depth s)) := by
  by_cases hdepth : limit < depth
  · rw [expansion, if_pos hdepth, expansion_of_lt hdepth, hopens.1.stop_eq]
    exact .error
  · have hdepth : depth ≤ limit := Nat.le_of_not_lt hdepth
    by_cases hhash : s.head? = some '#'
    · obtain ⟨t, rfl⟩ := List.head?_eq_some_iff.1 hhash
      exact expansion_hash_agrees hopens hdepth
    · exact expansion_named_agrees hs hopens hdepth hhash

end

/-! ## Pieces -/

section

variable {limit depth : Nat} {region : Region} {scanner next : Scanner} {input s rest : Text}

theorem dollarText_eq {scanner : Scanner} (h : scanner.text = ['$']) :
    dollarText scanner = .ok (.text ['$']) := if_pos h

/-- Pieces end at a token that may stand there, and leave the text as it is. -/
theorem alarmAt?_eq_none {token : Token}
    (hscan : Token.scan region.kinds region.accepts s = (token, rest))
    (hkind : token.kind ∉ [.run, .dollars, .reference, .opening]) :
    (token = .ending ∨ token = .illegal) ∧ rest = s ∧ alarmAt? region token.kind = none := by
  have hkinds : region.kinds.closing = false := rfl
  have hclosing := Token.kind_scan_ne_closing hkinds region.accepts s
  obtain ⟨span, hspan, hspans⟩ := Token.scan_spans region.kinds region.accepts s
  rw [hscan] at hspan hspans hclosing
  cases hspans with
  | ending => exact ⟨.inl rfl, hspan.symm, by cases region <;> rfl⟩
  | illegal _ =>
    refine ⟨.inr rfl, hspan.symm, ?_⟩
    cases region with
    | outside =>
      have hillegal := Token.kind_scan_outside_ne_illegal s
      rw [hscan] at hillegal
      exact absurd rfl hillegal
    | word | field | pattern => rfl
  | closing => exact absurd rfl hclosing
  | run | opening | reference | dollars | dollar => simp [Token.kind] at hkind

/-- **Every region is read alike with a scanner and without one.** -/
theorem piecesAgree (limit : Nat) (input s : Text) : PiecesAgree limit input s := by
  induction hn : s.length using Nat.strong_induction_on generalizing s with
  | h n ih =>
    subst hn
    have ih' : ∀ t, t.length < s.length → PiecesAgree limit input t :=
      fun t ht => ih t.length ht t rfl
    intro region depth scanner hs
    rw [pieces, merged_eq]
    split
    · rename_i next h
      obtain ⟨token, rest, htoken, hkind, htext, hlt, hleaves, -⟩ :=
        hs.scanFor_lt h (by decide) (by decide)
      rw [htoken]
      cases token <;> cases hkind
      obtain rfl : next.text = _ := htext
      exact (ih' rest hlt region depth next hleaves).lift _ (Node.mergeText_cons _)
    · rename_i next h
      obtain ⟨token, rest, htoken, hkind, htext, hlt, hleaves, -⟩ :=
        hs.scanFor_lt h (by decide) (by decide)
      rw [htoken]
      cases token <;> cases hkind
      rw [dollarText_eq htext]
      exact (ih' rest hlt region depth next hleaves).lift _ (Node.mergeText_cons _)
    · rename_i next h
      obtain ⟨token, rest, htoken, hkind, htext, hlt, hleaves, -⟩ :=
        hs.scanFor_lt h (by decide) (by decide)
      rw [htoken]
      cases token <;> cases hkind
      obtain rfl : next.text = _ := htext
      exact (ih' rest hlt region depth next hleaves).lift _ (Node.mergeText_cons _)
    · rename_i next h
      obtain ⟨token, rest, htoken, hkind, htext, hlt, -, hopens⟩ :=
        hs.scanFor_lt h (by decide) (by decide)
      rw [htoken]
      cases token <;> cases hkind
      refine (expansion_agrees (fun t ht => ih' t (Nat.lt_trans ht hlt)) (hopens rfl) depth).bind ?_
      intro node rest' hread hafter
      have hlt' : rest'.length < s.length := by
        have hle := node.rest_le
        rw [hafter.rest_eq, (hopens rfl).1.rest_eq] at hle
        exact Nat.lt_of_le_of_lt hle hlt
      exact (ih' rest' hlt' region depth node.next hafter).lift _ (Node.mergeText_cons _)
    · -- the other tokens end the region; those that are guarded against are never found
      rename_i kind next hrun hdollars hreference hopening h
      obtain ⟨token, rest, htoken, rfl, -, hleaves, -⟩ := hs.scanFor h
      have hkind : token.kind ∉ [.run, .dollars, .reference, .opening] := by
        simp only [List.mem_cons, List.not_mem_nil, or_false, not_or]
        exact ⟨hrun, hdollars, hreference, hopening⟩
      obtain ⟨hend, rfl, halarm⟩ := alarmAt?_eq_none htoken hkind
      rw [htoken]
      simp only [halarm]
      rcases hend with rfl | rfl <;> exact .ok hleaves

end

end Descent

/-! ## Whole texts -/

namespace Template

/-- A text in which no dollar stands in front of a brace is a template. -/
theorem isTemplate_of_no_opening (limit : Nat) {input : Text} (h : ¬ ['$', '{'] <:+: input) :
    IsTemplate limit input := by
  induction hn : input.length using Nat.strong_induction_on generalizing input with
  | h n ih =>
    subst hn
    rcases exists_item .outside 0 input with
      hends | ⟨item, next, node, hitem, rfl⟩ | ⟨t, rfl⟩
    · obtain rfl : input = [] := by
        cases input with
        | nil => rfl
        | cons c t => exact absurd (hends c rfl) List.not_mem_nil
      exact ⟨[], .nil⟩
    · have hlt : next.length < (item ++ next).length := by
        have hpos := List.length_pos_iff.2 hitem.ne_nil
        rw [List.length_append]
        omega
      have hopening : ¬ ['$', '{'] <:+: next :=
        fun hnext => h (hnext.trans (List.suffix_append item next).isInfix)
      obtain ⟨nodes, hnodes⟩ := ih next.length hlt hopening rfl
      exact ⟨node :: nodes, .plain (by rwa [List.append_nil]) hnodes⟩
    · exact absurd ⟨[], t, rfl⟩ h

end Template

namespace Descent

/-- A text is read with a scanner as it is read without one. -/
theorem parse_eq_mapError (limit : Nat) (input : Text) :
    parse limit input = (Template.parse limit input).mapError (.ofFault input) := by
  have hagrees := piecesAgree limit input input .outside 0 (.new input) (Scanner.leaves_new input)
  rw [Template.parse_eq_map, parse]
  generalize Parser.merged limit .outside 0 input = found at hagrees
  generalize pieces limit .outside 0 (.new input) = result at hagrees
  cases hagrees with
  | ok h => exact congrArg Except.ok (Node.ofPieces_mergeText _).symm
  | error => rfl

/-- **No alarm is raised, and text without braces is a template.**  Reading with a scanner gives the
tree, or tells of the fault, that reading without guards gives; so no guard is ever needed.  And no
text is refused in which no dollar stands in front of a brace. -/
theorem parse_raises_no_alarm (limit : Nat) (input : Text) :
    parse limit input = (Template.parse limit input).mapError (.ofFault input) ∧
      (∀ alarm offset, parse limit input ≠ .error ⟨.alarm alarm, offset⟩) ∧
      (¬ ['$', '{'] <:+: input →
        ∃ root, parse limit input = .ok root ∧ Template.parse limit input = .ok root) := by
  refine ⟨parse_eq_mapError limit input, fun alarm offset => ?_, fun hopening => ?_⟩
  · rw [parse_eq_mapError]
    cases Template.parse limit input <;> exact nofun
  · obtain ⟨nodes, hnodes⟩ := Template.isTemplate_of_no_opening limit hopening
    have hroot : Template.parse limit input = .ok (.ofPieces nodes) :=
      Template.parse_eq_ok_iff.2 ⟨nodes, hnodes, rfl⟩
    refine ⟨.ofPieces nodes, ?_, hroot⟩
    rw [parse_eq_mapError, hroot]
    rfl

/-- A closing brace, an opening one and a dollar at the end are text. -/
theorem parse_raises_no_alarm_braces :
    ¬ ['$', '{'] <:+: ['$', '}', '{', '\\', '$'] ∧
      ∃ root, parse 0 ['$', '}', '{', '\\', '$'] = .ok root ∧
        Template.parse 0 ['$', '}', '{', '\\', '$'] = .ok root :=
  ⟨by decide, (parse_raises_no_alarm 0 ['$', '}', '{', '\\', '$']).2.2 (by decide)⟩

end Descent

end ShellExpansion
