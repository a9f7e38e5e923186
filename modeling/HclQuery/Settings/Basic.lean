import HclQuery.Filter
import HclQuery.Toml.Token

/-!
# Settings

Which filter is run, and whether output that is no document is an error.  Settings come from a file,
from the environment and from the command line.

Main definitions:

- {lit}`Settings`: the settings of a query.
- {lit}`Settings.problem?`: what is wrong with settings.
- {lit}`Settings.withEnvironment`: the settings with what the environment asks for.

Main results:

- Theorem {lit}`Settings.problem?_default`: nothing is wrong with the default settings.
-/

namespace HclQuery

/-- The environment: the value of a variable, if it has one. -/
abbrev Environment := String → Option String

/-- A text with no visible character. -/
def isBlankText (s : String) : Bool :=
  Text.allBlank s.toList

/-- The settings of a query. -/
structure Settings where
  /-- Whether output that cannot be formatted is an error. -/
  strict : Bool
  /-- The filter with the arguments before the expression. -/
  filter : FilterCommand
  deriving DecidableEq, Repr

namespace Settings

/-- The settings where nothing else is asked for. -/
def default : Settings := ⟨false, .default⟩

/-- What is wrong with settings. -/
def problem? (s : Settings) : Option String :=
  if isBlankText s.filter.program then some "filter.program must not be empty" else none

/-- The variable that names a settings file. -/
def fileVariable : String := "TQ_CONFIG"

/-- The variable that names a filter. -/
def programVariable : String := "TQ_JQ"

/-- The value of a variable, unless it is blank. -/
def visible? (environment : Environment) (name : String) : Option String :=
  (environment name).filter fun v => !isBlankText v

/-- The settings with the filter that the environment asks for. -/
def withEnvironment (environment : Environment) (s : Settings) : Settings :=
  match visible? environment programVariable with
  | some program => { s with filter := { s.filter with program } }
  | none => s

/-- Nothing is wrong with the default settings. -/
theorem problem?_default : default.problem? = none := by decide

end Settings

end HclQuery
