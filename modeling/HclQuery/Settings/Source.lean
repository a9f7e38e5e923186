import HclQuery.Disk.Basic
import HclQuery.Settings.Decode

/-!
# Settings: files

A settings file is named on the command line or in the environment.  It has to be readable, to be
TOML of the right shape, and to ask for a filter.

Main definitions:

- {lit}`SettingsError`: why settings are refused.
- {lit}`Settings.ofText`: the settings of a text.
- {lit}`SettingsSource`: where settings come from.
- {lit}`SettingsSource.load`: the settings that a source gives.

Main results:

- Theorem {lit}`SettingsSource.load_defaults`: without a file the settings are the default ones.
-/

namespace HclQuery

/-- Why settings are refused; a path is known if they come from a file. -/
inductive SettingsError where
  /-- The file cannot be read. -/
  | unreadable (path source : String)
  /-- The text is no TOML. -/
  | malformed (path : Option String)
  /-- The table has the wrong shape. -/
  | shape (path : Option String) (report : String)
  /-- A value makes no sense. -/
  | invalid (path : Option String) (message : String)
  deriving DecidableEq, Repr

namespace SettingsError

/-- A path in parentheses, if there is one. -/
def inParentheses (path : Option String) : String :=
  match path with
  | some path => s!" ({path})"
  | none => ""

/-- What is said about a text that is no TOML. -/
def malformedReport : String := "TOML parse error"

/-- The wording of a refusal. -/
def message : SettingsError → String
  | unreadable path source => s!"failed to read tq config from {path}: {source}"
  | malformed path =>
    "failed to parse tq config TOML" ++ inParentheses path ++ ": " ++ malformedReport
  | shape path report => "failed to parse tq config TOML" ++ inParentheses path ++ ": " ++ report
  | invalid path message => "invalid tq config" ++ inParentheses path ++ ": " ++ message

/-- The wording of what lies behind a refusal, if anything does. -/
def causes : SettingsError → List String
  | unreadable _ source => [source]
  | malformed _ => [malformedReport]
  | shape _ report => [report]
  | invalid .. => []

/-- The refusal of settings that come from a file. -/
def inFile (path : String) : SettingsError → SettingsError
  | malformed none => malformed (some path)
  | shape none report => shape (some path) report
  | invalid none message => invalid (some path) message
  | e => e

end SettingsError

namespace Settings

/-- The settings, unless something is wrong with them. -/
def checked (s : Settings) : Except SettingsError Settings :=
  match s.problem? with
  | some message => .error (.invalid none message)
  | none => .ok s

/-- The settings of a text. -/
def ofText (t : List Char) : Except SettingsError Settings :=
  match Toml.parse? t with
  | none => .error (.malformed none)
  | some table =>
    match ofTable table with
    | .error f =>
      .error (.shape none (Toml.report t (f.span.getD ⟨0, 0⟩) f.cause.message))
    | .ok s => s.checked

/-- The settings of a file. -/
def ofFile (disk : Disk) (path : String) : Except SettingsError Settings :=
  match disk.readText path with
  | .error e => .error (.unreadable path e.message)
  | .ok t => (ofText t).mapError (SettingsError.inFile path)

end Settings

/-- Where settings come from. -/
inductive SettingsSource where
  /-- A file named on the command line. -/
  | flag (path : String)
  /-- A file named in the environment. -/
  | environment (path : String)
  | defaults
  deriving DecidableEq, Repr

namespace SettingsSource

/-- The source of settings: the command line goes before the environment. -/
def locate (flag : Option String) (env : Environment) : SettingsSource :=
  match flag with
  | some path => .flag path
  | none =>
    match Settings.visible? env Settings.fileVariable with
    | some path => .environment path
    | none => .defaults

/-- The path of the file, if there is one. -/
def path? : SettingsSource → Option String
  | flag path => some path
  | environment path => some path
  | defaults => none

/-- The settings that a source gives. -/
def load (disk : Disk) (source : SettingsSource) : Except SettingsError Settings :=
  match source.path? with
  | some path => Settings.ofFile disk path
  | none => .ok .default

/-- Without a file the settings are the default ones. -/
theorem load_defaults (disk : Disk) : defaults.load disk = .ok .default := rfl

end SettingsSource

end HclQuery
