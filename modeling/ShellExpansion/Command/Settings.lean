import ShellExpansion.Command.Options
import ShellExpansion.Toml.Reader

/-!
# Settings

The settings file, where it is looked for, and what it changes. A file that was asked for has to be
there and to be valid. The file at the usual place may be missing, and if it is broken the run goes
on without it, and without any part of it. Without a home directory in the environment there is no
usual place: that the system may know of one is left out.
-/

namespace ShellExpansion.Command

open Utf8

/-- Why a file cannot be read. -/
inductive FileFault where
  /-- There is no such file. -/
  | notFound
  /-- The path leads through something that is not a directory. -/
  | notDirectory
  /-- There is a directory in its place. -/
  | isDirectory
  /-- Any other fault, with the system's words and number for it. -/
  | other (detail : Text) (code : Nat)
  deriving DecidableEq, Repr

/-- The system's number for a fault. -/
def FileFault.code : FileFault → Nat
  | notFound => 2
  | notDirectory => 20
  | isDirectory => 21
  | other _ code => code

/-- The system's words for a fault. -/
def FileFault.detail : FileFault → Text
  | notFound => "No such file or directory".toList
  | notDirectory => "Not a directory".toList
  | isDirectory => "Is a directory".toList
  | other detail _ => detail

/-- The wording of a fault: the system's words, then its number. -/
def FileFault.message (fault : FileFault) : Text :=
  fault.detail ++ " (os error ".toList ++ (toString fault.code).toList ++ [')']

/-- The files that can be read: what is found under a path. -/
abbrev Files := Bytes → Except FileFault Bytes

/-- What is said of bytes that are not text. -/
def notTextMessage : Text := "stream did not contain valid UTF-8".toList

/-- Why there are no settings. -/
inductive SettingsFault where
  /-- The file cannot be read. -/
  | unreadable (fault : FileFault)
  /-- The file is not text. -/
  | notText
  /-- The text is not a document with the settings' types. -/
  | malformed
  deriving DecidableEq, Repr

/-- The wording of a fault. -/
def SettingsFault.message : SettingsFault → Text
  | .unreadable fault => "failed to read config file: ".toList ++ fault.message
  | .notText => "failed to read config file: ".toList ++ notTextMessage
  | .malformed => "failed to parse config file: TOML parse error".toList

/-- The settings of a file. -/
structure FileSettings where
  /-- Unset variables are unset, not empty. -/
  strict : Option Bool := none
  deriving DecidableEq, Repr

/-- The settings in a document. Other keys are ignored. -/
def FileSettings.ofDocument? (entries : Toml.Entries) : Option FileSettings :=
  match entries.lookup "strict".toList with
  | none => some {}
  | some (.scalar (.boolean strict)) => some { strict := some strict }
  | some _ => none

/-- The settings in the bytes of a file. -/
def FileSettings.ofBytes (content : Bytes) : Except SettingsFault FileSettings :=
  match decode? content with
  | none => .error .notText
  | some text =>
    match (Toml.document? text).bind ofDocument? with
    | none => .error .malformed
    | some settings => .ok settings

/-- The settings under a path. -/
def FileSettings.load (files : Files) (path : Bytes) : Except SettingsFault FileSettings :=
  match files path with
  | .error fault => .error (.unreadable fault)
  | .ok content => ofBytes content

/-! ## The usual place -/

/-- A path inside a directory. -/
def joinPath (directory : Bytes) (inside : Text) : Bytes :=
  if directory = [] || directory.getLast? = some (byte '/') then directory ++ encode inside
  else directory ++ encode ('/' :: inside)

/-- The directory for settings: the one the environment names by an absolute path, else the one in the
home directory. -/
def settingsDirectory? (env : Environment) : Option Bytes :=
  let home := (env.bytes? "HOME".toList).map fun home => joinPath home ".config".toList
  match env.bytes? "XDG_CONFIG_HOME".toList with
  | none => home
  | some named =>
    if (decode? named).isSome && named.head? = some (byte '/') then some named else home

/-- The usual place of the settings file. -/
def defaultPath? (env : Environment) : Option Bytes :=
  (settingsDirectory? env).map fun directory => joinPath directory "envsubst/config.toml".toList

/-! ## What a run uses -/

/-- Where settings came from, or what was wrong with them. -/
inductive Loaded where
  /-- The settings to use. -/
  | settings (file : FileSettings)
  /-- The file at the usual place is broken. -/
  | ignored (path : Bytes) (fault : SettingsFault)
  /-- The file that was asked for is broken. -/
  | failed (path : Bytes) (fault : SettingsFault)
  deriving DecidableEq, Repr

/-- Whether nothing is found under a path. -/
def isMissing (files : Files) (path : Bytes) : Bool :=
  match files path with
  | .error .notFound | .error .notDirectory => true
  | _ => false

/-- The settings file of a run, and whether it was asked for. -/
def settingsFile? (options : Options) (env : Environment) : Option (Bytes × Bool) :=
  if options.noConfig then none
  else
    match options.configFile with
    | some path => some (path, true)
    | none => (defaultPath? env).map fun path => (path, false)

/-- Loads the settings that the options ask for. -/
def loadSettings (options : Options) (env : Environment) (files : Files) : Loaded :=
  match settingsFile? options env with
  | none => .settings {}
  | some (path, asked) =>
    if !asked && isMissing files path then .settings {}
    else
      match FileSettings.load files path with
      | .ok file => .settings file
      | .error fault => if asked then .failed path fault else .ignored path fault

/-- Whether unset variables are unset. The options can only turn this on; else the file decides. -/
def isStrict (options : Options) (file : FileSettings) : Bool :=
  options.strict || file.strict.getD false

end ShellExpansion.Command
