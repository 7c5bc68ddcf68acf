import Interposer.Event.Filter
import Interposer.Text.Utf8

/-!
# Settings for reports

Nothing is reported unless the environment asks for it: by a list of directives, or by a switch for
all events down to level `debug`. The directives win over the switch. A value that is not valid
UTF-8 counts as not set, and so does an empty list.
-/

namespace Interposer

/-- The values of the two environment variables, where they are set. -/
structure Environment where
  verbose : Option Octets := none
  log : Option Octets := none
  deriving DecidableEq, Repr

/-- What is to be reported. -/
structure Settings where
  verbose : Bool
  filter : Option String
  deriving DecidableEq, Repr

namespace Settings

/-- The settings that the environment asks for. The switch is on at `1` and at `true`. -/
def ofEnvironment (environment : Environment) : Settings where
  verbose := (environment.verbose.bind Utf8.decode?).any fun value =>
    value == "1" || value == "true"
  filter := (environment.log.bind Utf8.decode?).filter (!·.isEmpty)

/-- The directives to go by, if anything is to be reported. -/
def directives? (settings : Settings) : Option String :=
  settings.filter <|> if settings.verbose then some "debug" else none

/-- The filter to report by. Without directives it enables nothing. -/
def toFilter (settings : Settings) : Filter :=
  (settings.directives?.map Filter.parse).getD []

end Settings

end Interposer
