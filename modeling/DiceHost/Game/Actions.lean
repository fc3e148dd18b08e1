import DiceHost.Store.Action

/-! # Running games

A caller holds a game as a value, its handle. A change is made to the handle first and then
saved; the handle keeps the change even when the store refuses to save it.
-/
namespace DiceHost

inductive Role where
  | master | player | observer
deriving DecidableEq, Repr, Inhabited

inductive GameChange where
  | addUser (role : Role) (user : String)
  | removeUser (role : Role) (user : String)
  | addArea (channel : String)
  | removeArea (channel : String)
  | configure (key : String) (value : Json)
  | setRoulette (face : Nat) (data : Json)
  | clearRoulette
  | setLogging (enabled : Bool)
deriving DecidableEq, Repr, Inhabited

namespace Game

def usersIn (game : Game) : Role → List String
  | .master => game.masters
  | .player => game.players
  | .observer => game.observers

def setUsersIn (game : Game) (role : Role) (users : List String) : Game :=
  match role with
  | .master => { game with masters := users }
  | .player => { game with players := users }
  | .observer => { game with observers := users }

/-- A list with one more entry at its end, unless it is there already. -/
def enter (items : List String) (item : String) : Option (List String) :=
  if items.contains item then none else some (items ++ [item])

/-- A list without an entry, if it was there. -/
def leave (items : List String) (item : String) : Option (List String) :=
  if items.contains item then some (items.filter (· != item)) else none

end Game

/-- The changed game; there is none when nothing is to be changed. -/
def GameChange.apply (game : Game) : GameChange → Option Game
  | addUser role user => (Game.enter (game.usersIn role) user).map (game.setUsersIn role)
  | removeUser role user => (Game.leave (game.usersIn role) user).map (game.setUsersIn role)
  | addArea channel => (Game.enter game.areas channel).map ({ game with areas := · })
  | removeArea channel => (Game.leave game.areas channel).map ({ game with areas := · })
  | configure key value => some { game with config := KeyTable.insert key value game.config }
  | setRoulette face data =>
    some { game with roulette := KeyTable.insert (toString face) data game.roulette }
  | clearRoulette => some { game with roulette := [] }
  | setLogging enabled => some { game with logging := enabled }

namespace Game
variable {σ : Type} [Store σ]

/-- Open a game under a name that is free on its platform. -/
def openNamed (platform channel name : String) : Action σ Game := do
  if (← Store.gameNamed? platform name).isSome then
    throw (.validation ("game '" ++ name ++ "' already exists"))
  Store.saveGame (fresh name platform channel)

/-- The name of a game that was given none. -/
def defaultName (number : UInt32) : String := "game#" ++ toString number.toNat

/-- Open a game. A game without a name is numbered; the counter goes on whether or not the
game can be opened, and after its last number it comes to zero. -/
def create (counter : UInt32) (platform channel : String) (name : Option String) :
    StateM σ (UInt32 × Except Failure Game) := do
  match name with
  | some name => return (counter, ← (openNamed platform channel name).run)
  | none => return (counter + 1, ← (openNamed platform channel (defaultName (counter + 1))).run)

/-- Change a game and save it. The result says whether there was something to change; the
handle comes back as it is after the attempt. -/
def update (game : Game) (change : GameChange) : StateM σ (Game × Except Failure Bool) := do
  match change.apply game with
  | none => return (game, .ok false)
  | some changed =>
    match ← (Store.saveGame changed).run with
    | .ok saved => return (saved, .ok true)
    -- the handle keeps a change that was not saved
    | .error failure => return (changed, .error failure)

end Game
end DiceHost
