import Outflow.Basic
import Outflow.Text.Quoted

/-!
# Log settings

* `Log.Settings`: where log lines go, which are written, and in which form;
* `Log.Overrides`: settings that are given, each or none;
* `Log.Settings.resolve`: a given setting counts before its environment variable, and that before the
  default.
-/

namespace Outflow.Log

open Text (Codes codesOf)

/-- Where log lines go, which are written, and in which form. -/
structure Settings where
  destination : Codes
  level : Codes
  format : Codes
  path : Option Codes
  deriving DecidableEq

/-- Settings that are given; a path can be given as none. -/
structure Overrides where
  destination : Option Codes
  level : Option Codes
  format : Option Codes
  path : Option (Option Codes)

/-- No setting is given. -/
def Overrides.none : Overrides := ⟨Option.none, Option.none, Option.none, Option.none⟩

/-- A given value, or else that of a variable, or else a default. -/
def choose (env : Environment) (given : Option Codes) (variableName fallback : String) : Codes :=
  given.getD ((env.get? variableName).getD (codesOf fallback))

/-- The settings that result from what is given and from the environment. -/
def Settings.resolve (env : Environment) (given : Overrides) : Settings where
  destination := choose env given.destination "GHCIWATCH_LOG_DESTINATION" "stderr"
  level := choose env given.level "GHCIWATCH_LOG_LEVEL" "INFO"
  format := choose env given.format "GHCIWATCH_LOG_FORMAT" "json"
  path := given.path.getD (env.get? "GHCIWATCH_LOG_PATH")

/-- The name of the log file when none is set. -/
def defaultPath : String := "/tmp/ghciwatch.jsonl"

/-- The path of the log file; an empty one counts as none. -/
def Settings.filePath (s : Settings) : Codes :=
  match s.path with
  | some p => if p.isEmpty then codesOf defaultPath else p
  | Option.none => codesOf defaultPath

/-- The wording of a refused destination. -/
def unknownDestinationMessage (given : Codes) : String :=
  "Unknown log destination: " ++ Text.quoted given ++ ". Available: ['stderr', 'jsonl']."

end Outflow.Log
