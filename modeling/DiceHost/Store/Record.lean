import DiceHost.Json.Value

/-! # What a store keeps

Cards belong to a user on one platform. A binding chooses one of the user's cards for a
group. A game has a roster and covers channels; its number is zero until a store has kept
it.
-/
namespace DiceHost

structure Owner where
  user : String
  platform : String
deriving DecidableEq, Repr, Inhabited

structure Card where
  id : Nat
  owner : Owner
  name : String
  /-- the template it was made from -/
  kind : String
  active : Bool
  attributes : Fields
deriving DecidableEq, Repr, Inhabited

structure NewCard where
  owner : Owner
  name : String
  kind : String
  active : Bool
  attributes : Fields
deriving DecidableEq, Repr, Inhabited

/-- The card under a number. -/
def NewCard.numbered (new : NewCard) (id : Nat) : Card :=
  ⟨id, new.owner, new.name, new.kind, new.active, new.attributes⟩

/-- The card a user plays in one group. -/
structure Binding where
  owner : Owner
  group : String
  card : String
deriving DecidableEq, Repr, Inhabited

/-- A game with several participants. -/
structure Game where
  id : Int
  name : String
  platform : String
  /-- the channel it was opened in -/
  origin : String
  masters : List String := []
  players : List String := []
  observers : List String := []
  /-- the channels it covers -/
  areas : List String
  config : Fields := []
  roulette : Fields := []
  logging : Bool := false
deriving DecidableEq, Repr, Inhabited

/-- A game that no store has kept yet. -/
def Game.fresh (name platform origin : String) : Game :=
  { id := 0, name := name, platform := platform, origin := origin, areas := [origin] }

end DiceHost
