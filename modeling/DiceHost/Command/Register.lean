import DiceHost.Command.Tree
import DiceHost.Plugin.Reply
import DiceHost.Text.Blank

/-! # Commands of plugins

A definition stands for a command and one subcommand for each generic verb. They all run
the same script; under a verb the script sees the verb before the argument.
-/
namespace DiceHost.Command
open DiceHost.Text DiceHost.Plugin

structure Target where
  script : String
  /-- the verb that goes before the argument -/
  sub : Option String
deriving DecidableEq, Repr, Inhabited

/-- The argument the script of a target sees. -/
def Target.argument (target : Target) (tail : String) : String :=
  injectSubcommand target.sub tail

def genericVerbs : List String := ["show", "list", "add", "remove", "del", "set"]

/-- A name can be typed after the full stop. -/
def isTypable (name : String) : Bool := !name.isEmpty && !name.toList.any isBlank

/-- The names of a command with their targets: the command itself, and each verb. -/
def targets (name script : String) : List (String × Target) :=
  (name, ⟨script, none⟩) ::
    genericVerbs.map (fun verb => (name ++ "." ++ verb, ⟨script, some verb⟩))

def usageLine (title : String) (definition : Definition) : String :=
  match definition.rule with
  | some rule => "[" ++ rule ++ "] " ++ title
  | none => title

def namesOf (definition : Definition) : List String :=
  if isTypable definition.commandName then
    (targets definition.commandName definition.script).map (·.1)
  else []

/-- Register one definition of a plugin. A command that cannot be typed is left out. -/
def registerOne (plugin title : String) (tree : Tree Target) (definition : Definition) :
    Tree Target :=
  if isTypable definition.commandName then
    (targets definition.commandName definition.script).foldl
      (fun tree entry => tree.register entry.1 plugin (usageLine title definition) entry.2) tree
  else tree

/-- Register the definitions of a plugin, each over what stands under its names. -/
def registerAll (plugin title : String) (tree : Tree Target) (definitions : List Definition) :
    Tree Target :=
  definitions.foldl (registerOne plugin title) tree

end DiceHost.Command
