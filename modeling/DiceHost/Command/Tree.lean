import DiceHost.Command.Line
import DiceHost.KeyTable

/-! # The command tree

Commands are kept under their full names; a subcommand is an entry `name.sub`. Every
entry belongs to an owner, so that all commands of a plugin can be dropped together.
-/
namespace DiceHost.Command
open DiceHost.Text

structure Entry (H : Type) where
  owner : String
  usage : String
  handler : H
deriving DecidableEq, Repr

abbrev Tree (H : Type) := KeyTable (Entry H)

structure Invocation (H : Type) where
  command : String
  tail : String
  handler : H
deriving DecidableEq, Repr

namespace Tree
variable {H : Type}

/-- Add a command, replacing one of the same name. -/
def register (tree : Tree H) (name owner usage : String) (handler : H) : Tree H :=
  KeyTable.insert name ⟨owner, usage, handler⟩ tree

def owned (tree : Tree H) (owner : String) : List String :=
  KeyTable.keys (tree.filter (fun entry => entry.2.owner = owner))

/-- Drop every command of an owner. -/
def unregister (tree : Tree H) (owner : String) : Tree H :=
  tree.filter (fun entry => entry.2.owner ≠ owner)

/-- Find the command of a parsed line: the subcommand that the first word of the argument
names, or else the command itself. -/
def lookup (tree : Tree H) (line : Line) : Option (Invocation H) :=
  let (sub, rest) := splitWord line.tail.toList
  let full := line.name ++ "." ++ String.ofList sub
  let whole := (KeyTable.find? tree line.name).map
    (fun entry => ⟨line.name, line.tail, entry.handler⟩)
  if sub.isEmpty then whole
  else
    match KeyTable.find? tree full with
    | some entry => some ⟨full, String.ofList rest, entry.handler⟩
    | none => whole

def resolve (tree : Tree H) (input : String) : Option (Invocation H) :=
  (Line.parse? input).bind tree.lookup

def usage? (tree : Tree H) (name : String) : Option String :=
  (KeyTable.find? tree name).map (·.usage)

end Tree
end DiceHost.Command
