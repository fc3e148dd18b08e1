import DiceHost.Card.Actions
import DiceHost.Json.Write

/-! # Resolving a context

Everything a script may read is looked up before it runs. A part that cannot be read is
left out, and the others are not affected.
-/
namespace DiceHost

/-- Who speaks, and where. -/
structure Identity where
  user : String
  /-- the display name, when the platform gives one -/
  username : Option String
  platform : String
  /-- the group, absent in private chats -/
  group : Option String
  channel : String
deriving DecidableEq, Repr, Inhabited

namespace Identity

def isPrivate (i : Identity) : Bool := i.group.isNone

/-- The group that keyed data belongs to; a private chat uses its channel. -/
def dataGroup (i : Identity) : String := i.group.getD i.channel

/-- The group that card bindings belong to; all private chats share the empty one. -/
def bindingGroup (i : Identity) : String := i.group.getD ""

end Identity

/-! ## Games as scripts see them -/

namespace Game

def roster (users : List String) : Json := .arr (users.map .str)

/-- The fields of a game, its configuration over them, and its roulette and log flag over
both. -/
def view (game : Game) : Fields :=
  let own := KeyTable.ofList [("name", .str game.name), ("gm", roster game.masters),
    ("pls", roster game.players), ("obs", roster game.observers), ("areas", roster game.areas)]
  KeyTable.insertAll (KeyTable.insertAll own game.config)
    [("roulette", .obj game.roulette), ("isLogging", .bool game.logging)]

end Game

/-! ## Contexts -/

/-- The text of a value: a text as it is, nothing for null, and JSON for the rest. -/
def Json.plainText? : Json → Option String
  | .null => none
  | .str s => some s
  | v => some (Json.compact v)

namespace Context
variable {σ : Type} [Store σ]

/-- The result of a read, or another value when it fails. -/
def orElse {α : Type} (other : α) (action : Action σ α) : StateM σ α := do
  match ← action.run with
  | .ok v => return v
  | .error _ => return other

/-- The card of a player of the game: the one from the store, or the cached one when the
store cannot be read. -/
def teammate? (owner : Owner) (group : String) (groupData : Fields) :
    StateM σ (Option Fields) := do
  match ← (Card.resolve? owner group).run with
  | .ok card => return card.map Card.snapshot
  | .error _ =>
    let key := Card.cacheKey owner.user
    return (KeyTable.find? groupData key).bind (fun blob => (Card.decodeCached key blob).toOption)

def playerCards (platform group : String) (groupData : Fields) :
    List String → KeyTable Fields → StateM σ (KeyTable Fields)
  | [], found => return found
  | player :: rest, found => do
    match ← teammate? ⟨player, platform⟩ group groupData with
    | some card => playerCards platform group groupData rest (KeyTable.insert player card found)
    | none => playerCards platform group groupData rest found

/-- Resolve what a script may read. -/
def build (rules : Manuals) (aliases : AliasTable) (identity : Identity) (tail : String) :
    StateM σ Context := do
  let user := identity.user
  let group := identity.dataGroup
  -- in a private chat cards are bound in the empty group, and data is kept under the channel
  let character ← orElse none (Card.resolve? ⟨user, identity.platform⟩ identity.bindingGroup)
  let groupData ← orElse [] (Store.values .group group)
  let userData ← orElse [] (Store.values .user user)
  let game ← orElse none (Store.gameAt? identity.platform group)
  let players := (game.map (·.players)).getD []
  let teammates ← playerCards identity.platform identity.bindingGroup groupData players []
  return {
    tail := tail
    user := user
    username := identity.username
    group := group
    channel := identity.channel
    isPrivate := identity.isPrivate
    platform := identity.platform
    character := character.map Card.snapshot
    cardText := (KeyTable.find? groupData (Card.textKey user)).bind Json.plainText?
    game := game.map Game.view
    rules := rules
    aliases := aliases
    teammates := teammates
    storage := (Storage.provide {} .group group groupData).provide .user user userData }

end Context
end DiceHost
