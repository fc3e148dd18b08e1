import DiceHost.Text.Split

/-! # Command lines

A chat line is a command when its first character that is not blank is a full stop and a
name follows at once. The name runs to the next blank, the rest is the argument.
-/
namespace DiceHost.Command
open DiceHost.Text

structure Line where
  name : String
  tail : String
deriving DecidableEq, Repr

/-- The word up to the first blank, and the trimmed rest. -/
def splitWord (cs : List Char) : List Char × List Char :=
  let (word, rest) := cs.span (fun c => !isBlank c)
  (word, trimChars rest)

/-- Read a chat line; plain messages have no reading. -/
def Line.parse? (input : String) : Option Line :=
  match trimChars input.toList with
  | '.' :: rest =>
    let (name, tail) := splitWord rest
    if name.isEmpty then none else some ⟨String.ofList name, String.ofList tail⟩
  | _ => none

/-- The argument a script sees: the name of the subcommand comes first. -/
def injectSubcommand (sub : Option String) (tail : String) : String :=
  match sub with
  | none => tail
  | some sub => if tail.isEmpty then sub else sub ++ " " ++ tail

end DiceHost.Command
