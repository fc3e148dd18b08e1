import DiceHost.Text.Split

/-! # Placeholders in replies

A reply may name the sender, the place and the card in braces. One pass from left to
right replaces the names that are known; what was put in is not looked at again, and
every other brace stays as it is.
-/
namespace DiceHost
open DiceHost.Text

structure Placeholders where
  nick : String
  uid : String
  gid : String
  card : String
  pc : String
deriving DecidableEq, Repr, Inhabited

def Placeholders.table (p : Placeholders) : List (String × String) :=
  [("self", p.nick), ("nick", p.nick), ("uid", p.uid), ("gid", p.gid), ("card", p.card),
    ("pc", p.pc)]

/-- The value of the name before the next closing brace, and the text after that brace. -/
def closedName? (table : List (String × String)) (cs : List Char) :
    Option (List Char × List Char) :=
  (cutFirst (· == '}') cs).bind (fun (name, rest) =>
    (table.lookup (String.ofList name)).map (fun value => (value.toList, rest)))

/-- Replace placeholders, onto a reversed list, going from one opening brace to the next; `fuel`
bounds the number of these braces. -/
def renderOnto (table : List (String × String)) : Nat → List Char → List Char → List Char
  | 0, out, cs => out.reverse ++ cs
  | fuel + 1, out, cs =>
    match cutFirst (· == '{') cs with
    | none => out.reverse ++ cs
    | some (before, after) =>
      match closedName? table after with
      | some (value, rest) =>
        renderOnto table fuel (value.reverse ++ (before.reverse ++ out)) rest
      -- only the brace is copied: a placeholder may begin right behind it
      | none => renderOnto table fuel ('{' :: (before.reverse ++ out)) after

def render (values : Placeholders) (text : String) : String :=
  let cs := text.toList
  String.ofList (renderOnto values.table cs.length [] cs)

end DiceHost
