import DiceHost.Store.Action

/-! # A store in memory

Cards are kept in name order and games in the order of their numbers, so that a search from
the front finds the first one in that order.
-/
namespace DiceHost

structure Memory where
  /-- the last number given to a card -/
  lastCard : Nat := 0
  /-- the last number given to a game -/
  lastGame : Nat := 0
  /-- in name order -/
  cards : List Card := []
  bindings : List Binding := []
  /-- in the order of their numbers -/
  games : List Game := []
  groups : KeyTable Fields := []
  users : KeyTable Fields := []
deriving DecidableEq, Repr, Inhabited

/-- A card is the one that an owner has under a name. -/
def Card.isNamed (owner : Owner) (name : String) (card : Card) : Bool :=
  card.owner = owner ∧ card.name = name

/-- A binding is the one of an owner in a group. -/
def Binding.isAt (owner : Owner) (group : String) (binding : Binding) : Bool :=
  binding.owner = owner ∧ binding.group = group

/-- A binding chooses a card of an owner. -/
def Binding.chooses (owner : Owner) (card : String) (binding : Binding) : Bool :=
  binding.owner = owner ∧ binding.card = card

/-- Put a card before the first one with a greater name. -/
def insertCard (new : Card) : List Card → List Card
  | [] => [new]
  | card :: rest =>
    if new.name < card.name then new :: card :: rest else card :: insertCard new rest

/-- Put a game at the place of its number, over the one that stands there. -/
def insertGame (new : Game) : List Game → List Game
  | [] => [new]
  | game :: rest =>
    if new.id < game.id then new :: game :: rest
    else if new.id = game.id then new :: rest
    else game :: insertGame new rest

namespace Memory

def card? (m : Memory) (owner : Owner) (name : String) : Option Card :=
  m.cards.find? (Card.isNamed owner name)

def cardsOf (m : Memory) (owner : Owner) : List Card :=
  m.cards.filter (fun card => card.owner = owner)

def activeCard? (m : Memory) (owner : Owner) : Option Card :=
  (m.cardsOf owner).find? (·.active)

/-- Change the cards that satisfy a condition. -/
def changeCards (m : Memory) (p : Card → Bool) (change : Card → Card) : Memory :=
  { m with cards := m.cards.map (fun card => if p card then change card else card) }

def createCard (new : NewCard) : Action Memory Card := do
  let m ← get
  if (m.card? new.owner new.name).isSome then throw (Store.nameTaken new.name)
  let card := new.numbered (m.lastCard + 1)
  set { m with lastCard := m.lastCard + 1, cards := insertCard card m.cards }
  return card

def setAttributes (m : Memory) (owner : Owner) (name : String) (attributes : Fields) :
    Bool × Memory :=
  ((m.card? owner name).isSome,
    m.changeCards (Card.isNamed owner name) (fun card => { card with attributes := attributes }))

def activate (m : Memory) (owner : Owner) (name : String) : Bool × Memory :=
  if (m.card? owner name).isSome then
    (true, m.changeCards (fun card => card.owner = owner)
      (fun card => { card with active := card.name = name }))
  else (false, m)

def removeCard (m : Memory) (owner : Owner) (name : String) : Bool × Memory :=
  ((m.card? owner name).isSome,
    { m with
      cards := m.cards.filter (fun card => !card.isNamed owner name)
      bindings := m.bindings.filter (fun binding => !binding.chooses owner name) })

def binding? (m : Memory) (owner : Owner) (group : String) : Option Binding :=
  m.bindings.find? (Binding.isAt owner group)

def withoutBinding (m : Memory) (owner : Owner) (group : String) : List Binding :=
  m.bindings.filter (fun binding => !binding.isAt owner group)

def setBinding (m : Memory) (binding : Binding) : Memory :=
  { m with bindings := binding :: m.withoutBinding binding.owner binding.group }

def removeBinding (m : Memory) (owner : Owner) (group : String) : Bool × Memory :=
  ((m.binding? owner group).isSome, { m with bindings := m.withoutBinding owner group })

def gameAt? (m : Memory) (platform channel : String) : Option Game :=
  m.games.find? (fun game => game.platform = platform ∧ game.areas.contains channel)

def gameNamed? (m : Memory) (platform name : String) : Option Game :=
  m.games.find? (fun game => game.platform = platform ∧ game.name = name)

def saveGame (m : Memory) (game : Game) : Game × Memory :=
  if game.id = 0 then
    let kept := { game with id := (m.lastGame + 1 : Nat) }
    (kept, { m with lastGame := m.lastGame + 1, games := insertGame kept m.games })
  else (game, { m with games := insertGame game m.games })

def removeGame (m : Memory) (id : Int) : Bool × Memory :=
  (m.games.any (fun game => game.id = id),
    { m with games := m.games.filter (fun game => game.id ≠ id) })

/-- The data of one collection, by owner. -/
def data (m : Memory) : DataScope → KeyTable Fields
  | .group => m.groups
  | .user => m.users

def values (m : Memory) (scope : DataScope) (id : String) : Fields :=
  (KeyTable.find? (m.data scope) id).getD []

def value? (m : Memory) (scope : DataScope) (id key : String) : Option Json :=
  KeyTable.find? (m.values scope id) key

def setValue (m : Memory) (scope : DataScope) (id key : String) (value : Json) : Memory :=
  let data := KeyTable.insert id (KeyTable.insert key value (m.values scope id)) (m.data scope)
  match scope with
  | .group => { m with groups := data }
  | .user => { m with users := data }

end Memory

instance : Store Memory where
  card? owner name := Store.reading (·.card? owner name)
  activeCard? owner := Store.reading (·.activeCard? owner)
  cards owner := Store.reading (·.cardsOf owner)
  createCard := Memory.createCard
  setAttributes owner name attributes := Store.changing (·.setAttributes owner name attributes)
  activate owner name := Store.changing (·.activate owner name)
  removeCard owner name := Store.changing (·.removeCard owner name)
  binding? owner group := Store.reading (·.binding? owner group)
  setBinding binding := modify (·.setBinding binding)
  removeBinding owner group := Store.changing (·.removeBinding owner group)
  gameAt? platform channel := Store.reading (·.gameAt? platform channel)
  gameNamed? platform name := Store.reading (·.gameNamed? platform name)
  saveGame game := Store.changing (·.saveGame game)
  removeGame id := Store.changing (·.removeGame id)
  value? scope id key := Store.reading (·.value? scope id key)
  values scope id := Store.reading (·.values scope id)
  setValue scope id key value := modify (·.setValue scope id key value)

end DiceHost
