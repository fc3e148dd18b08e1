import DiceHost.Text.LowerCase
import DiceHost.Text.Split

/-! # Log directives

The configured levels become one directive text for the log filter: a list of levels,
each possibly for one target only, with a separate level for what scripts write.
-/
namespace DiceHost.Log
open DiceHost.Text

/-- The target of everything that scripts log. -/
def scriptTarget : String := "dicebridge::script"

/-- A level in small letters; `warning` in any case is `warn`. -/
def normalLevel (level : String) : String :=
  if lowerAscii level = "warning" then "warn" else lower level

/-- One directive with its level normalized; a target keeps its spelling. -/
def normalize (directive : String) : String :=
  match cutLast (· == '=') directive.toList with
  | some (target, level) =>
    String.ofList (trimChars target) ++ "=" ++ normalLevel (String.ofList (trimChars level))
  | none => normalLevel directive

/-- The directive text for the configured levels. -/
def directives (level : String) (pluginLevel : Option String) : String :=
  let parts := ((splitAtChar ',' level).map trim).filter (fun part => !part.isEmpty)
  let parts := if parts.isEmpty then ["info"] else parts.map normalize
  let scripts :=
    match (pluginLevel.map trim).filter (fun part => !part.isEmpty) with
    | some part => [scriptTarget ++ "=" ++ normalize part]
    | none => []
  join "," (parts ++ scripts)

end DiceHost.Log
