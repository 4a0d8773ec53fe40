import ShellExpansion.Command.Run
import ShellExpansion.Glob.StandardEngine
import ShellExpansion.Proofs.Command.Options
import ShellExpansion.Proofs.Text.Utf8

/-!
# Broken settings

A settings file is taken as a whole or not at all.  Where it is broken, a run that was asked to use it
does nothing, and a run that found it at the usual place goes on as if it had been told to use no file,
with one warning more.

* `IsBroken` : what a settings file must not be (`isBroken_iff`).
* `IsWarning` : the record that says so, and its line in the log (`isWarning_ignored`).
* `expandInput_of_settings` : what a run does once its settings are known.
* `settingsFor_ignored`, `settingsFor_failed` : what a broken file does to the settings.
* `broken_settings` : **no part of a broken settings file has an effect.**
-/

namespace ShellExpansion.Command

open Utf8

/-! ## Broken files -/

/-- The settings of a document have their types. -/
def HasSettings (entries : Toml.Entries) : Prop :=
  ∀ item, entries.lookup "strict".toList = some item →
    ∃ strict, item = .scalar (.boolean strict)

/-- The content of a settings file is not the encoding of a document with the settings' types. -/
def IsBroken (content : Bytes) : Prop :=
  ¬ ∃ text entries, content = text.flatMap String.utf8EncodeChar ∧
    Toml.document? text = some entries ∧ HasSettings entries

section

variable {content path : Bytes} {entries : Toml.Entries} {fault : SettingsFault}
  {options : Options} {invocation : Invocation}

theorem ofDocument?_eq_none_iff :
    FileSettings.ofDocument? entries = none ↔ ¬ HasSettings entries := by
  unfold FileSettings.ofDocument? HasSettings
  generalize entries.lookup "strict".toList = found
  split
  · exact ⟨nofun, fun h => absurd nofun h⟩
  · rename_i strict
    refine ⟨nofun, fun h => absurd ?_ h⟩
    rintro item heq
    cases heq
    exact ⟨strict, rfl⟩
  · rename_i item hbool
    refine ⟨fun _ h => ?_, fun _ => rfl⟩
    obtain ⟨strict, rfl⟩ := h item rfl
    exact hbool strict rfl

/-- Broken files are those that give no settings. -/
theorem isBroken_iff :
    IsBroken content ↔ ∃ fault, FileSettings.ofBytes content = .error fault := by
  unfold IsBroken FileSettings.ofBytes
  simp only [← encode_eq_flatMap, ← decode?_eq_some_iff]
  cases decode? content with
  | none => exact ⟨fun _ => ⟨_, rfl⟩, fun _ => nofun⟩
  | some text =>
    simp only
    cases hsettings : (Toml.document? text).bind FileSettings.ofDocument? with
    | none =>
      refine ⟨fun _ => ⟨_, rfl⟩, ?_⟩
      rintro - ⟨text', entries, heq, hdocument, hentries⟩
      cases heq
      rw [hdocument, Option.bind_some, ofDocument?_eq_none_iff] at hsettings
      exact hsettings hentries
    | some settings =>
      obtain ⟨entries, hdocument, hentries⟩ := Option.bind_eq_some_iff.1 hsettings
      refine ⟨fun h => absurd ⟨text, entries, rfl, hdocument, ?_⟩ h, nofun⟩
      by_contra hnone
      rw [ofDocument?_eq_none_iff.2 hnone] at hentries
      cases hentries

/-! ## What a run uses -/

/-- A run that may read no settings file has the default settings. -/
theorem settingsFor_noConfig {env : Environment} {files : Files} (hno : options.noConfig = true) :
    settingsFor options env files = .ok ({}, []) := by
  simp [settingsFor, loadSettings, settingsFile?, hno]

/-- So has one that finds a broken file at the usual place. -/
theorem settingsFor_ignored {env : Environment} {files : Files} (hno : options.noConfig = false)
    (hconfig : options.configFile = none) (hpath : defaultPath? env = some path)
    (hfile : files path = .ok content) (hfault : FileSettings.ofBytes content = .error fault) :
    settingsFor options env files = .ok ({}, [ignoredWarning path fault]) := by
  simp [settingsFor, loadSettings, settingsFile?, hno, hconfig, hpath, isMissing,
    FileSettings.load, hfile, hfault]

/-- One that was asked to use a broken file has none. -/
theorem settingsFor_failed {env : Environment} {files : Files} (hno : options.noConfig = false)
    (hconfig : options.configFile = some path) (hfile : files path = .ok content)
    (hfault : FileSettings.ofBytes content = .error fault) :
    settingsFor options env files = .error (.settings path fault) := by
  simp [settingsFor, loadSettings, settingsFile?, hno, hconfig, FileSettings.load, hfile, hfault]

/-! ## Warnings -/

/-- What is said about a broken file: either it is not text, or its text cannot be read as settings, for
some reason. -/
inductive Reports (content : Bytes) : Text → Prop
  | notText (h : ∀ text : Text, content ≠ text.flatMap String.utf8EncodeChar) :
      Reports content "failed to read config file: stream did not contain valid UTF-8".toList
  | malformed {text : Text} (h : content = text.flatMap String.utf8EncodeChar) (reason : Text) :
      Reports content ("failed to parse config file: ".toList ++ reason)

/-- A terminal acts upon the character. -/
def IsControl (c : Char) : Prop :=
  c.toNat ∈ [0x07, 0x08, 0x0C, 0x1B, 0x7F] ∨ 0x80 ≤ c.toNat ∧ c.toNat ≤ 0x9F

/-- A record warns of the broken file at a path, and this is its line in the log: the level, and after
it the message, with the characters written out that a terminal would act upon. -/
structure IsWarning (colour : Bool) (path content : Bytes) (record : Record) (line : Text) : Prop where
  level : record.level = .warn
  message : ∃ report, Reports content report ∧
    record.message
      = repair path ++ ": ".toList ++ report ++ "; using default configuration".toList
  written : line = (if colour then "\x1b[33m WARN\x1b[0m ".toList else " WARN ".toList)
    ++ record.message.flatMap showControl ++ ['\n']
  shown : (∀ c ∈ record.message, ¬ IsControl c) →
    record.message.flatMap showControl = record.message

theorem reports_of_ofBytes (h : FileSettings.ofBytes content = .error fault) :
    Reports content fault.message := by
  unfold FileSettings.ofBytes at h
  split at h
  · rename_i hdecode
    cases h
    refine .notText fun text hcontent => ?_
    rw [← encode_eq_flatMap] at hcontent
    rw [decode?_eq_some_iff.2 hcontent] at hdecode
    cases hdecode
  · rename_i text hdecode
    split at h
    · cases h
      have hcontent := decode?_eq_some_iff.1 hdecode
      rw [encode_eq_flatMap] at hcontent
      exact .malformed hcontent "TOML parse error".toList
    · cases h

theorem flatMap_showControl {message : Text} (h : ∀ c ∈ message, ¬ IsControl c) :
    message.flatMap showControl = message := by
  have hshown : ∀ c ∈ message, showControl c = [c] := by
    intro c hc
    have hplain := h c hc
    simp only [IsControl, List.mem_cons, List.not_mem_nil, or_false, not_or, not_and] at hplain
    rw [showControl, if_neg (by simp; omega), if_neg (by simp; omega)]
  rw [List.flatMap_congr hshown, List.flatMap_singleton']

/-- The warning about settings that are ignored says why, in a line of its own. -/
theorem isWarning_ignored (colour : Bool) (path : Bytes)
    (h : FileSettings.ofBytes content = .error fault) :
    IsWarning colour path content (ignoredWarning path fault)
      ((ignoredWarning path fault).line colour) where
  level := rfl
  message := ⟨fault.message, reports_of_ofBytes h, rfl⟩
  written := by cases colour <;> rfl
  shown := flatMap_showControl

/-! ## Runs -/

/-- What a log and a failure look like on the standard error. -/
def errorText (colour : Bool) (log : List Record) (failure : Option Failure) : Text :=
  log.flatMap (Record.line colour) ++
    (failure.map fun failure => errorMessage failure.message).getD []

theorem level_of_mem_records {classes : List EventClass} {input : Text}
    {result : Except Fault Node} {events : List Event} {record : Record}
    (h : record ∈ records classes input result events) : record.level = .debug := by
  obtain ⟨message, -, rfl⟩ := List.mem_map.1 h
  rfl

variable [Engine]

theorem level_of_mem_expandLine {env : Environment} {strict : Bool} {classes : List EventClass}
    {line : Bytes} {record : Record} (h : record ∈ (expandLine env strict classes line).2) :
    record.level = .debug := by
  unfold expandLine at h
  split at h
  · cases h
  · split at h
    · exact level_of_mem_records h
    · exact level_of_mem_records h

/-- The log of a run over lines holds no warning. -/
theorem level_of_mem_log {env : Environment} {strict : Bool} {classes : List EventClass}
    {lines : List Bytes} {record : Record}
    (h : record ∈ (expandLines env strict classes lines).log) : record.level = .debug := by
  induction lines with
  | nil => cases h
  | cons line lines ih =>
    have hline := @level_of_mem_expandLine _ env strict classes line record
    rw [expandLines] at h
    rcases hexpand : expandLine env strict classes line with ⟨failure | text, log⟩
    · rw [hexpand] at h hline
      exact hline h
    · rw [hexpand] at h hline
      rcases List.mem_append.1 h with h | h
      · exact hline h
      · exact ih h

/-- What a run leaves behind that wrote this, after some warnings. -/
def Written.result (written : Written) (colour : Bool) (warnings : List Record) : Result where
  exit := if written.failure.isSome then 1 else 0
  output := written.output
  errors := errorText colour (warnings ++ written.log) written.failure

/-- A run expands its lines once its settings are known. -/
theorem expandInput_of_settings {env : Environment} {files : Files} {file : FileSettings}
    {warnings : List Record} (hsettings : settingsFor options env files = .ok (file, warnings))
    (args : List Bytes) (input : Bytes) :
    expandInput options ⟨args, env, files, input⟩
      = (expandLines env (isStrict options file) options.events (splitLines input)).result
          (wantsColour env) warnings := by
  unfold expandInput Written.result errorText
  simp only [hsettings]
  split
  · rename_i hfailure
    simp [hfailure]
  · rename_i failure hfailure
    simp [hfailure]

theorem run_eq_expandInput {args : List Bytes} {env : Environment} {files : Files} {input : Bytes}
    (hargs : readAction args env = .ok (.expand options)) :
    run ⟨args, env, files, input⟩ = expandInput options ⟨args, env, files, input⟩ := by
  rw [run, hargs]

/-- **No part of a broken settings file has an effect.**  A run that finds it at the usual place writes
what it writes with `--no-config` added, between any two arguments that do not belong together, and
ends as it does then; only its log has one record more, in front of the others, of which none is a
warning.  This record is a warning that names the path and says what is wrong with the file, and its
line is what stands on the standard error before the rest.  A run that was asked to use the file writes
nothing to the standard output, and fails. -/
theorem broken_settings (args : List Bytes) (env : Environment) (files : Files)
    (input path : Bytes) (hargs : readAction args env = .ok (.expand options))
    (hfile : files path = .ok content) (hbroken : IsBroken content) :
    (options.configFile = none → options.noConfig = false → defaultPath? env = some path →
      ∀ before after, args = before ++ after → IsComplete before →
        readAction (before ++ noConfigArgument :: after) env
            = .ok (.expand { options with noConfig := true }) ∧
          (run ⟨args, env, files, input⟩).output
            = (run ⟨before ++ noConfigArgument :: after, env, files, input⟩).output ∧
          (run ⟨args, env, files, input⟩).exit
            = (run ⟨before ++ noConfigArgument :: after, env, files, input⟩).exit ∧
          ∃ warning line log failure, IsWarning (wantsColour env) path content warning line ∧
            (∀ record ∈ log, record.level = .debug) ∧
            (run ⟨before ++ noConfigArgument :: after, env, files, input⟩).errors
              = errorText (wantsColour env) log failure ∧
            (run ⟨args, env, files, input⟩).errors
              = errorText (wantsColour env) (warning :: log) failure ∧
            (run ⟨args, env, files, input⟩).errors
              = line ++ (run ⟨before ++ noConfigArgument :: after, env, files, input⟩).errors) ∧
      (options.configFile = some path →
        ∃ report, Reports content report ∧
          run ⟨args, env, files, input⟩ =
            { exit := 1
              output := []
              errors := "error: ".toList ++ (repair path ++ ": ".toList ++ report) ++ ['\n'] }) := by
  obtain ⟨fault, hfault⟩ := isBroken_iff.1 hbroken
  refine ⟨?_, ?_⟩
  · rintro hconfig hno hpath before after rfl hbefore
    have hinsert := readAction_insert hargs hbefore hconfig hno
    have hignored := settingsFor_ignored hno hconfig hpath hfile hfault
    have hnone : settingsFor { options with noConfig := true } env files = .ok ({}, []) :=
      settingsFor_noConfig rfl
    rw [run_eq_expandInput hargs, run_eq_expandInput hinsert, expandInput_of_settings hignored,
      expandInput_of_settings hnone]
    -- both runs expand the same lines with the same options; the warning comes before their log
    refine ⟨hinsert, rfl, rfl, _, _, _, _, isWarning_ignored _ path hfault,
      fun _ => level_of_mem_log, rfl, rfl, ?_⟩
    exact List.append_assoc _ _ _
  · intro hconfig
    have hno := noConfig_of_configFile hargs hconfig
    refine ⟨fault.message, reports_of_ofBytes hfault, ?_⟩
    rw [run_eq_expandInput hargs, expandInput, settingsFor_failed hno hconfig hfile hfault]
    rfl

end

section

attribute [local instance] Engine.standard

/-- A file whose first line turns the strict option on, and whose second line is none.  Found at the
usual place, it leaves an unset variable empty; asked for, it stops the run. -/
theorem broken_settings_second_line :
    IsBroken (encode "strict = true\nstrict".toList) ∧
      (run ⟨[], [(encode "HOME".toList, [])],
          fun _ => .ok (encode "strict = true\nstrict".toList), encode ['$', 'a']⟩).output
        = (run ⟨[noConfigArgument], [(encode "HOME".toList, [])],
            fun _ => .ok (encode "strict = true\nstrict".toList), encode ['$', 'a']⟩).output ∧
      (∃ warning line, IsWarning true (encode ".config/envsubst/config.toml".toList)
          (encode "strict = true\nstrict".toList) warning line ∧
        (run ⟨[], [(encode "HOME".toList, [])],
            fun _ => .ok (encode "strict = true\nstrict".toList), encode ['$', 'a']⟩).errors
          = line ++ (run ⟨[noConfigArgument], [(encode "HOME".toList, [])],
              fun _ => .ok (encode "strict = true\nstrict".toList), encode ['$', 'a']⟩).errors) ∧
      (run ⟨[encode "--config".toList, encode "file".toList], [],
          fun _ => .ok (encode "strict = true\nstrict".toList), encode ['$', 'a']⟩).exit = 1 := by
  have hbroken : IsBroken (encode "strict = true\nstrict".toList) :=
    isBroken_iff.2 ⟨.malformed, by decide +kernel⟩
  have hpath : defaultPath? [(encode "HOME".toList, [])]
      = some (encode ".config/envsubst/config.toml".toList) := by
    decide +kernel
  obtain ⟨hdefault, -⟩ := broken_settings [] [(encode "HOME".toList, [])]
    (fun _ => .ok (encode "strict = true\nstrict".toList)) (encode ['$', 'a']) _
    (show readAction [] _ = .ok (.expand {}) by decide +kernel) rfl hbroken
  obtain ⟨-, houtput, -, warning, line, log, failure, hwarning, -, -, -, herrors⟩ :=
    hdefault rfl rfl hpath [] [] rfl ⟨nofun, {}, rfl⟩
  obtain ⟨-, hasked⟩ := broken_settings [encode "--config".toList, encode "file".toList] []
    (fun _ => .ok (encode "strict = true\nstrict".toList)) (encode ['$', 'a'])
    (encode "file".toList)
    (show readAction _ [] = .ok (.expand { configFile := some (encode "file".toList) }) by
      decide +kernel) rfl hbroken
  obtain ⟨report, -, hrun⟩ := hasked rfl
  exact ⟨hbroken, houtput, ⟨warning, line, hwarning, herrors⟩, by rw [hrun]⟩

end

end ShellExpansion.Command
