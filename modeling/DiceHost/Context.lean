import DiceHost.Alias
import DiceHost.Storage

/-! # What one script call may see

Everything is resolved before the script runs. An optional part that could not be resolved
is absent.
-/
namespace DiceHost

/-- The rule texts by system and keyword. -/
abbrev Manuals := KeyTable (KeyTable String)

/-- The text of a keyword, from the first system in order that has it. -/
def Manuals.find? (manuals : Manuals) (keyword : String) : Option String :=
  manuals.findSome? (fun system => KeyTable.find? system.2 keyword)

/-- The attributes that name a card, the first one preferred. -/
def cardNameKey : String := "__Name"
def plainNameKey : String := "name"

/-- The surroundings of one script call. -/
structure Context where
  /-- the command line after the command -/
  tail : String
  user : String
  username : Option String
  /-- the group that keyed data belongs to -/
  group : String
  channel : String
  isPrivate : Bool
  platform : String
  /-- the card of the invoking user -/
  character : Option Fields
  /-- the free card text of the invoking user -/
  cardText : Option String
  game : Option Fields
  rules : Manuals
  aliases : AliasTable
  /-- the cards of the players of the game -/
  teammates : KeyTable Fields
  storage : Storage
deriving DecidableEq, Repr, Inhabited

namespace Context

/-- The name of the invoking user's card, when the attribute that gives it is a text. -/
def characterName (context : Context) : Option String :=
  context.character.bind (fun card =>
    ((KeyTable.find? card cardNameKey).or (KeyTable.find? card plainNameKey)).bind Json.text?)

def playerCard (context : Context) (user : String) : Option Fields :=
  KeyTable.find? context.teammates user

end Context
end DiceHost
