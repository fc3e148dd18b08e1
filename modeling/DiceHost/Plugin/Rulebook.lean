import DiceHost.Failure
import DiceHost.KeyTable
import DiceHost.Yaml.Write

/-! # Rulebooks

A rulebook names a rule system and lists its rules by keyword. Keywords and rules may be
written as any YAML value; what is not text, a number or a boolean is kept as YAML text.
-/
namespace DiceHost.Plugin
open DiceHost.Text DiceHost.Yaml

structure Rulebook where
  rule : String
  manual : KeyTable String
deriving DecidableEq, Repr, Inhabited

/-- The text of a keyword or a rule. -/
def ruleText : Value → String
  | .str s => s
  | .int n => toString n
  | .float x => Decimal.yamlLayout.write x
  | .bool b => if b then "true" else "false"
  | .null => ""
  | v => Yaml.write v

/-- The text of a scalar, however it is written. -/
def scalarNode (doc : Document) (n : Node) : Read String := do
  match ← doc.follow n with
  | .scalar _ text _ => return text
  | _ => failure

/-- The entries of the manual; a value that is not written is an empty one. -/
def manualNode (doc : Document) (depth : Nat) (n : Node) : Read (KeyTable String) := do
  match ← doc.follow n with
  | .mapping _ entries =>
    match ← doc.value depth (.mapping none entries) with
    | .mapping es => return KeyTable.ofList (es.map (fun (k, v) => (ruleText k, ruleText v)))
    | _ => failure
  | .scalar _ "" true => return []
  | _ => failure

/-- What was found of a rulebook so far. -/
abbrev Found := Option String × Option (KeyTable String)

/-- One entry of the document. A known key must not occur twice. -/
def readEntry (doc : Document) (depth : Nat) (found : Found) (e : Node × Node) : Read Found := do
  let key ← scalarNode doc e.1
  if key = "rule" then
    if found.1.isSome then failure
    return (some (← scalarNode doc e.2), found.2)
  else if key = "manual" then
    if found.2.isSome then failure
    return (found.1, some (← manualNode doc depth e.2))
  else return found

/-- The rule system and the manual of a document: a mapping, or a list of the two. -/
def readRulebook (doc : Document) : Read (String × KeyTable String) := do
  let depth := Yaml.maxDepth - 1
  match ← doc.follow doc.root with
  | .mapping _ entries =>
    match ← entries.foldlM (readEntry doc depth) (none, none) with
    | (some rule, some manual) => return (rule, manual)
    | _ => failure
  | .sequence _ [rule, manual] =>
    return (← scalarNode doc rule, ← manualNode doc depth manual)
  | _ => failure

def Rulebook.parse (path text : String) : Except Failure Rulebook :=
  match (Yaml.parse text).bind (fun doc => (readRulebook doc).run' 0) with
  | none => .error (.rulebook path "malformed document")
  | some (rule, manual) =>
    if isBlankText rule then .error (.rulebook path "empty rule system name")
    else .ok ⟨rule, manual⟩

end DiceHost.Plugin
