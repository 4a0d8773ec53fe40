import ShellExpansion.Command.Options
import ShellExpansion.Proofs.Template.Recognition
import ShellExpansion.Proofs.Text.Utf8

/-!
# Reading the arguments

What one argument does does not depend on what was read before it, but for the value that the option
before may still lack (`takes_takeArgument`).  So an option that changes nothing else can be put
between any two arguments that do not belong together.

* `Change` : what an argument asks for once the option before has its value.
* `Faithful` : the options that were given are those that are set; kept by every argument
  (`takeArgument_leads`) and by all of them (`Reads.leads`).
* `Reads` : arguments that are read to their end (`reads_iff`), one part after the other
  (`reads_append`).
* `Adds` : the same reading with `--no-config` in it; kept by every argument (`Adds.takeArgument`) and
  by all of them (`Adds.reads`).
* `readAction_insert` : **what `--no-config` changes when it is added.**
-/

namespace ShellExpansion.Command

open Utf8

/-! ## What one argument does -/

/-- What an argument asks for. -/
inductive Change where
  /-- An option with its value. -/
  | give (name : Name) (value : Bytes)
  /-- An option whose value comes next. -/
  | await (name : Name)
  /-- An option without a value. -/
  | flag (name : Name)

/-- Options that take a value get one, and no others do. -/
def Change.Fits : Change → Prop
  | .give name _ => name.takesValue = true
  | .await name => name.takesValue = true
  | .flag name => name = .strict ∨ name = .noConfig

/-- The reader after a change. -/
def Change.apply (reader : Reader) : Change → Except OptionError Reader
  | .give name value => reader.giveValue name value
  | .await name => .ok { reader with pending := some (name, none) }
  | .flag name => reader.setFlag name

/-- What a way of taking an argument comes to, whatever has been read before. -/
inductive Takes (take : Reader → Except OptionError Step) : Prop
  /-- An option settles the one before, and then changes the reader. -/
  | change (change : Change) (hfits : change.Fits) (htake : ∀ reader,
      take reader = reader.settle.bind fun settled => (change.apply settled).map .inr)
  /-- An option settles the one before, and asks at once for something other than an expansion. -/
  | action (action : Action) (haction : ∀ options, action ≠ .expand options)
      (htake : ∀ reader, take reader = reader.settle.map fun _ => .inl action)
  /-- The argument is refused. -/
  | refused (error : OptionError) (htake : ∀ reader, take reader = .error error)
  /-- The argument may be a value. -/
  | other (argument : Bytes) (htake : ∀ reader, take reader = takeOther reader argument)

theorem takes_flag {name : Name} (hname : name = .strict ∨ name = .noConfig) (long : Bool) :
    Takes fun reader => takeOption reader name long none := by
  refine .change (.flag name) hname fun reader => ?_
  rcases hname with rfl | rfl <;> cases h : reader.settle <;> simp [takeOption, h] <;> rfl

theorem takes_takeOption (name : Name) (long : Bool) (value : Option Bytes) :
    Takes fun reader => takeOption reader name long value := by
  cases value with
  | some value =>
    cases name with
    | strict | noConfig | help | version => exact .refused _ fun _ => rfl
    | config => exact .change (.give .config value) rfl fun _ => rfl
    | debug => exact .change (.give .debug value) rfl fun _ => rfl
  | none =>
    cases name with
    | strict => exact takes_flag (.inl rfl) long
    | noConfig => exact takes_flag (.inr rfl) long
    | config => exact .change (.await .config) rfl fun _ => rfl
    | debug => exact .change (.await .debug) rfl fun _ => rfl
    | help => exact .action (.help long) nofun fun _ => rfl
    | version => exact .action .version nofun fun _ => rfl

theorem takes_takeLetters (letters : Bytes) : Takes fun reader => takeLetters reader letters := by
  unfold takeLetters
  split
  · exact takes_takeOption .help false none
  · exact takes_takeOption .version false none
  · exact .refused _ fun _ => rfl
  · exact .refused _ fun _ => rfl

theorem takes_takeLong (body : Bytes) : Takes fun reader => takeLong reader body := by
  unfold takeLong
  simp only
  split
  · exact takes_takeOption _ true _
  · exact .refused _ fun _ => rfl

/-- An argument is taken in the same way whatever has been read before it. -/
theorem takes_takeArgument (argument : Bytes) : Takes fun reader => takeArgument reader argument := by
  unfold takeArgument
  split
  · split
    · exact takes_takeLong _
    · split
      · exact takes_takeLetters _
      · exact .other _ fun _ => rfl
  · exact .other argument fun _ => rfl

/-! ## The options that were given are those that are set -/

/-- The options say whether there is a settings file, and whether none is to be read, as the arguments
did; and only an option that takes a value is waiting for one. -/
structure Reader.Faithful (reader : Reader) : Prop where
  /-- `--no-config` is set exactly if it was given. -/
  noConfig : reader.options.noConfig = true ↔ .noConfig ∈ reader.given
  /-- So is `--config`. -/
  config : reader.options.configFile.isSome = true ↔ .config ∈ reader.given
  /-- An option that waits for its value takes one. -/
  pending : ∀ waiting ∈ reader.pending, waiting.1.takesValue = true

/-- A later reader is faithful, and nothing that was given is forgotten. -/
structure Reader.Leads (reader next : Reader) : Prop where
  /-- The later reader is faithful. -/
  faithful : next.Faithful
  /-- What was given stays given. -/
  grows : reader.given ⊆ next.given

namespace Reader

section

variable {reader next : Reader} {name : Name} {value : Bytes}

theorem faithful_new : ({} : Reader).Faithful := ⟨by decide, by decide, nofun⟩

theorem Leads.refl (h : reader.Faithful) : reader.Leads reader := ⟨h, fun _ hmem => hmem⟩

theorem Leads.trans {later : Reader} (h : reader.Leads next) (h' : next.Leads later) :
    reader.Leads later :=
  ⟨h'.faithful, fun _ hmem => h'.grows (h.grows hmem)⟩

theorem giveValue_leads (h : reader.Faithful) (hname : name.takesValue = true)
    (hgive : reader.giveValue name value = .ok next) : reader.Leads next := by
  unfold giveValue at hgive
  cases name with
  | strict | noConfig | help | version => cases hname
  | debug =>
    simp only at hgive
    split at hgive
    · cases hgive
      refine ⟨⟨?_, ?_, h.pending⟩, List.subset_append_left _ _⟩
      · simpa using h.noConfig
      · simpa using h.config
    · split at hgive <;> cases hgive
  | config =>
    simp only at hgive
    split at hgive
    · cases hgive
    · split at hgive <;> cases hgive
      refine ⟨⟨?_, ?_, h.pending⟩, List.subset_append_left _ _⟩
      · simpa using h.noConfig
      · simp

theorem setFlag_leads (h : reader.Faithful) (hname : name = .strict ∨ name = .noConfig)
    (hset : reader.setFlag name = .ok next) : reader.Leads next := by
  unfold setFlag at hset
  split at hset
  · cases hset
  · cases hset
    refine ⟨⟨?_, ?_, h.pending⟩, List.subset_append_left _ _⟩
    · rcases hname with rfl | rfl
      · simpa using h.noConfig
      · simp
    · rcases hname with rfl | rfl
      · simpa using h.config
      · simpa using h.config

theorem mem_given_of_setFlag (h : reader.setFlag name = .ok next) : name ∈ next.given := by
  unfold setFlag at h
  split at h
  · cases h
  · cases h
    exact List.mem_append_right _ List.mem_cons_self

theorem settle_leads (h : reader.Faithful) (hsettle : reader.settle = .ok next) :
    reader.Leads next := by
  unfold settle at hsettle
  split at hsettle
  · cases hsettle
    exact .refl h
  · cases hsettle
  · rename_i name value hpending
    have hsettled : ({ reader with pending := none } : Reader).Faithful :=
      ⟨h.noConfig, h.config, nofun⟩
    have hleads := giveValue_leads hsettled (h.pending _ hpending) hsettle
    exact ⟨hleads.faithful, hleads.grows⟩

end

end Reader

section

variable {reader next : Reader} {change : Change} {argument : Bytes} {args : List Bytes}

theorem Change.apply_leads (h : reader.Faithful) (hfits : change.Fits)
    (happly : change.apply reader = .ok next) : reader.Leads next := by
  cases change with
  | give name value => exact Reader.giveValue_leads h hfits happly
  | flag name => exact Reader.setFlag_leads h hfits happly
  | await name =>
    cases happly
    refine ⟨⟨h.noConfig, h.config, ?_⟩, fun _ hmem => hmem⟩
    rintro waiting hwaiting
    cases hwaiting
    exact hfits

theorem takeArgument_leads (h : reader.Faithful)
    (htake : takeArgument reader argument = .ok (.inr next)) : reader.Leads next := by
  cases takes_takeArgument argument with
  | change change hfits heq =>
    rw [heq] at htake
    obtain ⟨settled, hsettle, htake⟩ := Parser.except_bind_eq_ok htake
    obtain ⟨_, happly, heq⟩ := Parser.except_map_eq_ok htake
    cases heq
    have hleads := Reader.settle_leads h hsettle
    exact hleads.trans (Change.apply_leads hleads.faithful hfits happly)
  | action action haction heq =>
    rw [heq] at htake
    obtain ⟨_, -, heq⟩ := Parser.except_map_eq_ok htake
    cases heq
  | refused error heq =>
    rw [heq] at htake
    cases htake
  | other argument heq =>
    rw [heq] at htake
    unfold takeOther at htake
    split at htake
    · rename_i name hpending
      cases htake
      refine ⟨⟨h.noConfig, h.config, ?_⟩, fun _ hmem => hmem⟩
      rintro waiting hwaiting
      cases hwaiting
      exact h.pending (name, none) hpending
    · cases htake

end

/-! ## Reading all arguments -/

/-- The argument that ends the options. -/
def endMark : Bytes := [byte '-', byte '-']

/-- The arguments are read to their end, from a first reader to a last one. -/
inductive Reads : Reader → List Bytes → Reader → Prop
  /-- There are no more arguments. -/
  | ending {reader next : Reader} (hsettle : reader.settle = .ok next) : Reads reader [] next
  /-- The options end, and the arguments too. -/
  | mark {reader next : Reader} (hsettle : reader.settle = .ok next) : Reads reader [endMark] next
  /-- One argument is taken after the other. -/
  | argument {reader later next : Reader} {argument : Bytes} {args : List Bytes}
      (hargument : argument ≠ endMark) (htake : takeArgument reader argument = .ok (.inr later))
      (tail : Reads later args next) : Reads reader (argument :: args) next

section

variable {reader next : Reader} {args before after : List Bytes}

theorem Reads.of_cons {argument : Bytes} (h : Reads reader (argument :: args) next)
    (hargument : argument ≠ endMark) :
    ∃ later, takeArgument reader argument = .ok (.inr later) ∧ Reads later args next := by
  cases h with
  | mark hsettle => exact absurd rfl hargument
  | argument _ htake tail => exact ⟨_, htake, tail⟩

theorem settle_last_iff : (do return .inr (← reader.settle) : Except OptionError Step)
    = .ok (.inr next) ↔ reader.settle = .ok next := by
  cases reader.settle with
  | error error => exact ⟨nofun, nofun⟩
  | ok settled =>
    constructor
    · intro h
      cases h
      rfl
    · intro h
      cases h
      rfl

theorem reads_iff : takeArguments reader args = .ok (.inr next) ↔ Reads reader args next := by
  constructor
  · intro h
    induction args generalizing reader with
    | nil => exact .ending (settle_last_iff.1 h)
    | cons argument args ih =>
      rw [takeArguments.eq_def] at h
      simp only at h
      split at h
      · rename_i hmark
        subst hmark
        split at h
        · exact .mark (settle_last_iff.1 h)
        · cases h
      · rename_i hargument
        split at h
        · cases h
        · cases h
        · rename_i later htake
          exact .argument hargument htake (ih h)
  · intro h
    induction h with
    | ending h => exact settle_last_iff.2 h
    | mark h => exact settle_last_iff.2 h
    | @argument reader later next argument args hargument htake tail ih =>
      rw [takeArguments.eq_def]
      simp only
      rw [if_neg (show argument ≠ [byte '-', byte '-'] from hargument), htake]
      exact ih

theorem Reads.leads (h : reader.Faithful) (hreads : Reads reader args next) :
    reader.Leads next := by
  induction hreads with
  | ending hsettle => exact Reader.settle_leads h hsettle
  | mark hsettle => exact Reader.settle_leads h hsettle
  | argument hargument htake tail ih =>
    have hleads := takeArgument_leads h htake
    exact hleads.trans (ih hleads.faithful)

/-! ## Reading part after part -/

theorem Reader.pending_of_giveValue {name : Name} {value : Bytes}
    (h : reader.giveValue name value = .ok next) : next.pending = reader.pending := by
  unfold giveValue at h
  split at h
  · split at h
    · cases h
      rfl
    · split at h <;> cases h
  · split at h
    · cases h
    · split at h <;> cases h
      rfl

/-- No option waits for its value once the reader is settled. -/
theorem Reader.pending_of_settle (h : reader.settle = .ok next) : next.pending = none := by
  unfold settle at h
  split at h
  · cases h
    assumption
  · cases h
  · exact pending_of_giveValue h

variable {settled : Reader}

theorem Reader.settle_of_settle (h : reader.settle = .ok settled) :
    settled.settle = .ok settled := by
  rw [settle, pending_of_settle h]

/-- An argument is taken in the same way after the option before was settled. -/
theorem takeArgument_settle (h : reader.settle = .ok settled) (argument : Bytes) :
    takeArgument reader argument = takeArgument settled argument := by
  cases takes_takeArgument argument with
  | change change hfits heq => rw [heq, heq, h, Reader.settle_of_settle h]
  | action action haction heq => rw [heq, heq, h, Reader.settle_of_settle h]
  | refused error heq => rw [heq, heq]
  | other argument heq =>
    rw [heq, heq, takeOther, takeOther, Reader.pending_of_settle h]
    split
    · -- an option that still lacks its value cannot have been settled
      rename_i name hpending
      rw [Reader.settle, hpending] at h
      cases h
    · rfl

theorem Reads.settles (h : Reads reader args settled) : settled.settle = .ok settled := by
  induction h with
  | ending hsettle => exact Reader.settle_of_settle hsettle
  | mark hsettle => exact Reader.settle_of_settle hsettle
  | argument _ _ _ ih => exact ih

theorem reads_settle_iff (h : reader.settle = .ok settled) :
    Reads reader args next ↔ Reads settled args next := by
  have hsettled := Reader.settle_of_settle h
  constructor
  · rintro (hnext | hnext | ⟨hargument, htake, tail⟩)
    · exact .ending (hsettled.trans (h.symm.trans hnext))
    · exact .mark (hsettled.trans (h.symm.trans hnext))
    · exact .argument hargument (takeArgument_settle h _ ▸ htake) tail
  · rintro (hnext | hnext | ⟨hargument, htake, tail⟩)
    · exact .ending (h.trans (hsettled.symm.trans hnext))
    · exact .mark (h.trans (hsettled.symm.trans hnext))
    · exact .argument hargument ((takeArgument_settle h _).trans htake) tail

/-- Arguments that do not end the options are read before the others. -/
theorem reads_append (hbefore : Reads reader before settled) (hmark : endMark ∉ before) :
    Reads reader (before ++ after) next ↔ Reads settled after next := by
  induction hbefore with
  | ending hsettle => exact reads_settle_iff hsettle
  | mark hsettle => exact absurd List.mem_cons_self hmark
  | @argument reader later settled argument args hargument htake tail ih =>
    rw [← ih fun hmem => hmark (List.mem_cons_of_mem _ hmem)]
    constructor
    · intro hreads
      obtain ⟨later', htake', tail'⟩ := hreads.of_cons hargument
      rw [htake] at htake'
      cases htake'
      exact tail'
    · exact .argument hargument htake

end

/-! ## Adding an option -/

/-- Another reader that has been given `--no-config` too. -/
structure Adds (reader other : Reader) : Prop where
  /-- It was given this option, somewhere among the others. -/
  given : other.given.Perm (.noConfig :: reader.given)
  /-- It is set. -/
  options : other.options = { reader.options with noConfig := true }
  /-- The same option waits for its value. -/
  pending : other.pending = reader.pending

namespace Adds

section

variable {reader other next settled : Reader} {name : Name} {value argument : Bytes}
  {args : List Bytes} {change : Change}

theorem mem_given_iff (h : Adds reader other) (hname : name ≠ .noConfig) :
    name ∈ other.given ↔ name ∈ reader.given := by
  simp [h.given.mem_iff, hname]

/-- The same option is given to both. -/
theorem push (h : Adds reader other) (name : Name) {options options' : Options}
    (hoptions : options' = { options with noConfig := true }) :
    Adds { reader with given := reader.given ++ [name], options }
      { other with given := other.given ++ [name], options := options' } :=
  ⟨h.given.append_right [name], hoptions, h.pending⟩

theorem giveValue (h : Adds reader other) (hname : name.takesValue = true)
    (hgive : reader.giveValue name value = .ok next) :
    ∃ next', other.giveValue name value = .ok next' ∧ Adds next next' := by
  cases name with
  | strict | noConfig | help | version => cases hname
  | debug =>
    unfold Reader.giveValue at hgive ⊢
    simp only at hgive ⊢
    split at hgive
    · cases hgive
      exact ⟨_, rfl, h.push .debug (by rw [h.options])⟩
    · split at hgive <;> cases hgive
  | config =>
    have hgiven : Name.config ∈ other.given ↔ Name.config ∈ reader.given := h.mem_given_iff nofun
    unfold Reader.giveValue at hgive ⊢
    simp only [hgiven] at hgive ⊢
    split at hgive
    · cases hgive
    · rename_i hnew
      split at hgive <;> cases hgive
      rename_i hvalue
      rw [if_neg hnew, if_neg hvalue]
      exact ⟨_, rfl, h.push .config (by rw [h.options])⟩

theorem setFlag (h : Adds reader other) (hname : name ≠ .noConfig)
    (hset : reader.setFlag name = .ok next) :
    ∃ next', other.setFlag name = .ok next' ∧ Adds next next' := by
  unfold Reader.setFlag at hset ⊢
  split at hset
  · cases hset
  · rename_i hnew
    cases hset
    rw [if_neg (mt (h.mem_given_iff hname).1 hnew)]
    refine ⟨_, rfl, h.push name ?_⟩
    rw [h.options]
    split <;> rfl

theorem settle (h : Adds reader other) (hreader : reader.Faithful)
    (hsettle : reader.settle = .ok next) :
    ∃ next', other.settle = .ok next' ∧ Adds next next' := by
  unfold Reader.settle at hsettle ⊢
  rw [h.pending]
  split at hsettle
  · cases hsettle
    exact ⟨other, rfl, h⟩
  · cases hsettle
  · rename_i name value hpending
    have hsettled : Adds { reader with pending := none } { other with pending := none } :=
      ⟨h.given, h.options, rfl⟩
    exact hsettled.giveValue (hreader.pending _ hpending) hsettle

theorem apply (h : Adds reader other) (hfits : change.Fits)
    (happly : change.apply reader = .ok next) (hno : .noConfig ∉ next.given) :
    ∃ next', change.apply other = .ok next' ∧ Adds next next' := by
  cases change with
  | give name value => exact h.giveValue hfits happly
  | await name =>
    cases happly
    exact ⟨_, rfl, h.given, h.options, rfl⟩
  | flag name =>
    refine h.setFlag ?_ happly
    rintro rfl
    exact hno (Reader.mem_given_of_setFlag happly)

theorem takeArgument (h : Adds reader other) (hreader : reader.Faithful)
    (htake : takeArgument reader argument = .ok (.inr next)) (hno : .noConfig ∉ next.given) :
    ∃ next', Command.takeArgument other argument = .ok (.inr next') ∧ Adds next next' := by
  cases takes_takeArgument argument with
  | change change hfits heq =>
    rw [heq] at htake ⊢
    obtain ⟨settled, hsettle, htake⟩ := Parser.except_bind_eq_ok htake
    obtain ⟨_, happly, heq⟩ := Parser.except_map_eq_ok htake
    cases heq
    obtain ⟨settled', hsettle', hadds⟩ := h.settle hreader hsettle
    obtain ⟨next', happly', hadds⟩ := hadds.apply hfits happly hno
    exact ⟨next', by rw [hsettle', Except.bind, happly']; rfl, hadds⟩
  | action action haction heq =>
    rw [heq] at htake
    obtain ⟨_, -, heq⟩ := Parser.except_map_eq_ok htake
    cases heq
  | refused error heq =>
    rw [heq] at htake
    cases htake
  | other argument heq =>
    rw [heq] at htake ⊢
    unfold takeOther at htake ⊢
    rw [h.pending]
    split at htake
    · cases htake
      exact ⟨_, rfl, h.given, h.options, rfl⟩
    · cases htake

theorem reads (h : Adds reader other) (hreader : reader.Faithful) (hreads : Reads reader args next)
    (hno : .noConfig ∉ next.given) : ∃ next', Reads other args next' ∧ Adds next next' := by
  induction hreads generalizing other with
  | ending hsettle =>
    obtain ⟨next', hsettle', hadds⟩ := h.settle hreader hsettle
    exact ⟨next', .ending hsettle', hadds⟩
  | mark hsettle =>
    obtain ⟨next', hsettle', hadds⟩ := h.settle hreader hsettle
    exact ⟨next', .mark hsettle', hadds⟩
  | argument hargument htake tail ih =>
    have hleads := takeArgument_leads hreader htake
    have hlater := mt ((Reads.leads hleads.faithful tail).grows ·) hno
    obtain ⟨later', htake', hadds⟩ := h.takeArgument hreader htake hlater
    obtain ⟨next', tail', hadds⟩ := ih hadds hleads.faithful hno
    exact ⟨next', .argument hargument htake' tail', hadds⟩

end

end Adds

/-! ## The environment, and options that exclude each other -/

section

variable {reader other next : Reader} {env : Environment} {options : Options}

theorem takeVariable_leads (h : reader.Faithful) (htake : takeVariable env reader = .ok next) :
    reader.Leads next := by
  unfold takeVariable at htake
  split at htake
  · cases htake
    exact .refl h
  · split at htake
    · cases htake
      exact .refl h
    · cases htake
    · split at htake
      · cases htake
        exact ⟨⟨h.noConfig, h.config, h.pending⟩, fun _ hmem => hmem⟩
      · split at htake <;> cases htake
        exact .refl h

theorem takeVariable_adds (h : Adds reader other) (htake : takeVariable env reader = .ok next) :
    ∃ next', takeVariable env other = .ok next' ∧ Adds next next' := by
  have hstrict : Name.strict ∈ other.given ↔ Name.strict ∈ reader.given := h.mem_given_iff nofun
  unfold takeVariable at htake ⊢
  split at htake
  · rename_i hgiven
    cases htake
    exact ⟨other, if_pos (hstrict.2 hgiven), h⟩
  · rename_i hgiven
    rw [if_neg (mt hstrict.1 hgiven)]
    split at htake
    · cases htake
      exact ⟨other, rfl, h⟩
    · cases htake
    · split at htake
      · rename_i htrue
        cases htake
        exact ⟨_, if_pos htrue, h.given,
          congrArg (fun options : Options => { options with strict := true }) h.options, h.pending⟩
      · rename_i htrue
        split at htake
        · rename_i hfalse
          cases htake
          exact ⟨other, (if_neg htrue).trans (if_pos hfalse), h⟩
        · cases htake

theorem takeArgument_inl {argument : Bytes} {action : Action}
    (h : takeArgument reader argument = .ok (.inl action)) : ∀ options, action ≠ .expand options := by
  cases takes_takeArgument argument with
  | change change hfits heq =>
    rw [heq] at h
    obtain ⟨settled, -, h⟩ := Parser.except_bind_eq_ok h
    obtain ⟨_, -, heq⟩ := Parser.except_map_eq_ok h
    cases heq
  | action action haction heq =>
    rw [heq] at h
    obtain ⟨_, -, heq⟩ := Parser.except_map_eq_ok h
    cases heq
    exact haction
  | refused error heq =>
    rw [heq] at h
    cases h
  | other argument heq =>
    rw [heq, takeOther] at h
    split at h <;> cases h

theorem takeArguments_inl {args : List Bytes} {action : Action}
    (h : takeArguments reader args = .ok (.inl action)) : ∀ options, action ≠ .expand options := by
  have hsettle : ∀ {reader : Reader}, (do return .inr (← reader.settle) : Except OptionError Step)
      ≠ .ok (.inl action) := by
    intro reader
    cases reader.settle <;> exact nofun
  induction args generalizing reader with
  | nil => exact absurd h hsettle
  | cons argument args ih =>
    rw [takeArguments.eq_def] at h
    simp only at h
    split at h
    · split at h
      · exact absurd h hsettle
      · cases h
    · split at h
      · cases h
      · rename_i htake
        cases h
        exact takeArgument_inl htake
      · exact ih h

theorem readAction_eq_expand_iff {args : List Bytes} :
    readAction args env = .ok (.expand options) ↔
      ∃ reader next, Reads {} args reader ∧ takeVariable env reader = .ok next ∧
        checkConflicts next = .ok options := by
  constructor
  · intro h
    obtain ⟨step, htake, h⟩ := Parser.except_bind_eq_ok h
    cases step with
    | inl action =>
      cases h
      exact absurd rfl (takeArguments_inl htake options)
    | inr reader =>
      obtain ⟨next, hvariable, h⟩ := Parser.except_bind_eq_ok h
      obtain ⟨options', hconflicts, h⟩ := Parser.except_bind_eq_ok h
      cases h
      exact ⟨reader, next, reads_iff.1 htake, hvariable, hconflicts⟩
  · rintro ⟨reader, next, hreads, hvariable, hconflicts⟩
    simp only [readAction, reads_iff.2 hreads, hvariable, hconflicts, bind, Except.bind]
    rfl

/-! ## Adding `--no-config` -/

/-- The argument `--no-config`. -/
def noConfigArgument : Bytes := encode "--no-config".toList

/-- Every option has the value that it takes, and the options have not ended. -/
def IsComplete (args : List Bytes) : Prop :=
  endMark ∉ args ∧ ∃ reader, takeArguments {} args = .ok (.inr reader)

theorem checkConflicts_ok (h : checkConflicts reader = .ok options) :
    reader.options = options ∧ ¬ (.config ∈ reader.given ∧ .noConfig ∈ reader.given) := by
  have hmem : ∀ name, name = .config ∨ name = .noConfig → name ∈ reader.given →
      name ∈ reader.given.filter fun name => name = .config || name = .noConfig := by
    intro name hname hgiven
    exact List.mem_filter.2 ⟨hgiven, by simpa using hname⟩
  unfold checkConflicts at h
  generalize (reader.given.filter fun name => name = .config || name = .noConfig) = named at h hmem
  split at h
  · cases h
  · rename_i hfew
    cases h
    refine ⟨rfl, ?_⟩
    rintro ⟨hconfig, hno⟩
    have hconfig' := hmem .config (.inl rfl) hconfig
    have hno' := hmem .noConfig (.inr rfl) hno
    -- the two names differ, so at least two have been given
    rcases named with _ | ⟨first, _ | ⟨second, rest⟩⟩
    · cases hconfig'
    · rw [List.mem_singleton] at hconfig' hno'
      cases hconfig'.trans hno'.symm
    · exact hfew first second rest rfl

/-- Without a settings file `--no-config` conflicts with nothing. -/
theorem checkConflicts_adds (h : Adds reader other) (hconfig : .config ∉ reader.given)
    (hno : .noConfig ∉ reader.given) :
    checkConflicts other = .ok { reader.options with noConfig := true } := by
  have hnone : (reader.given.filter fun name => name = .config || name = .noConfig) = [] := by
    rw [List.filter_eq_nil_iff]
    intro name hname
    have hne : name ≠ .config ∧ name ≠ .noConfig :=
      ⟨fun heq => hconfig (heq ▸ hname), fun heq => hno (heq ▸ hname)⟩
    simp [hne]
  have hone : (other.given.filter fun name => name = .config || name = .noConfig) = [.noConfig] := by
    have hperm := h.given.filter fun name => name = .config || name = .noConfig
    rw [List.filter_cons_of_pos (by decide), hnone] at hperm
    exact List.perm_singleton.1 hperm
  rw [checkConflicts, hone, h.options]

theorem takeArgument_long {name : Text} {option : Name} (hplain : byte '=' ∉ encode name)
    (hname : Name.ofLong? name = some option) :
    takeArgument reader (byte '-' :: byte '-' :: encode name) = takeOption reader option true none := by
  have hkept : ∀ b ∈ encode name, (b != byte '=') = true := fun b hb =>
    bne_iff_ne.2 fun heq => hplain (heq ▸ hb)
  have hvalue : (encode name).dropWhile (· != byte '=') = [] := List.dropWhile_eq_nil_iff.2 hkept
  rw [takeArgument, if_pos (by decide), takeLong, List.takeWhile_eq_self_iff.2 hkept, hvalue,
    decode?_encode, Option.bind_some, hname]

/-- A settled reader is given `--no-config`. -/
theorem takeArgument_noConfig (hsettle : reader.settle = .ok reader)
    (hno : .noConfig ∉ reader.given) :
    ∃ next, takeArgument reader noConfigArgument = .ok (.inr next) ∧ Adds reader next := by
  have htake : takeArgument reader noConfigArgument = takeOption reader .noConfig true none :=
    takeArgument_long (by decide +kernel) (by decide +kernel)
  refine ⟨{ reader with
      given := reader.given ++ [.noConfig]
      options := { reader.options with noConfig := true } },
    ?_, List.perm_append_singleton _ _, rfl, rfl⟩
  rw [htake]
  simp only [takeOption, Name.takesValue, hsettle, Reader.setFlag, if_neg hno, bind, Except.bind]
  rfl

/-- **What `--no-config` changes when it is added.**  It may be put between any two arguments that do
not belong together, and makes no other difference to what the arguments ask for. -/
theorem readAction_insert {before after : List Bytes}
    (h : readAction (before ++ after) env = .ok (.expand options)) (hbefore : IsComplete before)
    (hconfig : options.configFile = none) (hno : options.noConfig = false) :
    readAction (before ++ noConfigArgument :: after) env
      = .ok (.expand { options with noConfig := true }) := by
  obtain ⟨reader, next, hreads, hvariable, hconflicts⟩ := readAction_eq_expand_iff.1 h
  obtain ⟨hmark, settled, hsettled⟩ := hbefore
  rw [reads_iff] at hsettled
  rw [reads_append hsettled hmark] at hreads
  have hsettles : settled.settle = .ok settled := hsettled.settles
  have hfirst := hsettled.leads Reader.faithful_new
  have hlast := hreads.leads hfirst.faithful
  have hnext := takeVariable_leads hlast.faithful hvariable
  obtain ⟨hoptions, -⟩ := checkConflicts_ok hconflicts
  have hgiven : Name.noConfig ∉ next.given := by
    rw [← hnext.faithful.noConfig, hoptions, hno]
    exact nofun
  have hfile : Name.config ∉ next.given := by
    rw [← hnext.faithful.config, hoptions, hconfig]
    exact nofun
  have hreader : Name.noConfig ∉ reader.given := fun hmem => hgiven (hnext.grows hmem)
  have hstart : Name.noConfig ∉ settled.given := fun hmem => hreader (hlast.grows hmem)
  obtain ⟨first, htake, hadds⟩ := takeArgument_noConfig hsettles hstart
  obtain ⟨last, hreads', hadds⟩ := hadds.reads hfirst.faithful hreads hreader
  obtain ⟨next', hvariable', hadds⟩ := takeVariable_adds hadds hvariable
  refine readAction_eq_expand_iff.2 ⟨last, next', ?_, hvariable', ?_⟩
  · exact (reads_append hsettled hmark).2 (.argument (by decide) htake hreads')
  · rw [checkConflicts_adds hadds hfile hgiven, hoptions]

/-- A settings file that is asked for is not given up. -/
theorem noConfig_of_configFile {args : List Bytes} {path : Bytes}
    (h : readAction args env = .ok (.expand options)) (hconfig : options.configFile = some path) :
    options.noConfig = false := by
  obtain ⟨reader, next, hreads, hvariable, hconflicts⟩ := readAction_eq_expand_iff.1 h
  have hnext := takeVariable_leads (hreads.leads Reader.faithful_new).faithful hvariable
  obtain ⟨hoptions, hone⟩ := checkConflicts_ok hconflicts
  cases hno : options.noConfig with
  | false => rfl
  | true =>
    refine absurd ⟨hnext.faithful.config.1 ?_, hnext.faithful.noConfig.1 ?_⟩ hone
    · rw [hoptions, hconfig]
      rfl
    · rw [hoptions, hno]

end

end ShellExpansion.Command
