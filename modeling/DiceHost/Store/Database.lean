import DiceHost.Store.Action
import DiceHost.Store.Column
import DiceHost.Store.Migration

/-! # A store of tables

Rows stand in the order in which they were inserted, which is the order of their numbers.
Attributes, rosters and data are kept in columns of the form `γ`, which may hold something
that cannot be read. A number is never given twice.
-/
namespace DiceHost

structure CardRow (γ : Type) where
  id : Nat
  owner : Owner
  name : String
  kind : String
  active : Bool
  attributes : γ
deriving DecidableEq, Repr, Inhabited

structure GameRow (γ : Type) where
  id : Int
  name : String
  platform : String
  origin : String
  masters : γ
  players : γ
  observers : γ
  areas : γ
  config : γ
  roulette : γ
  logging : Bool
deriving DecidableEq, Repr, Inhabited

structure DataRow (γ : Type) where
  scope : DataScope
  id : String
  key : String
  value : γ
deriving DecidableEq, Repr, Inhabited

structure Database (γ : Type) where
  schema : Schema := {}
  lastCard : Nat := 0
  lastGame : Nat := 0
  cards : List (CardRow γ) := []
  bindings : List Binding := []
  games : List (GameRow γ) := []
  data : List (DataRow γ) := []
deriving DecidableEq, Repr, Inhabited

variable {γ : Type}

/-- A row is the card that an owner has under a name. -/
def CardRow.isNamed (owner : Owner) (name : String) (row : CardRow γ) : Bool :=
  row.owner = owner ∧ row.name = name

/-- A row is the value of an id under a key. -/
def DataRow.isAt (scope : DataScope) (id key : String) (row : DataRow γ) : Bool :=
  row.scope = scope ∧ row.id = id ∧ row.key = key

section Columns
variable [Column γ]

def CardRow.card (row : CardRow γ) : Except Failure Card :=
  (Column.decodeWith Column.fields? row.attributes).map (fun attributes =>
    ⟨row.id, row.owner, row.name, row.kind, row.active, attributes⟩)

def Card.row (card : Card) : CardRow γ :=
  ⟨card.id, card.owner, card.name, card.kind, card.active, Column.ofFields card.attributes⟩

def GameRow.game (row : GameRow γ) : Except Failure Game := do
  let texts (column : γ) := Column.decodeWith Column.texts? column
  let fields (column : γ) := Column.decodeWith Column.fields? column
  return {
    id := row.id
    name := row.name
    platform := row.platform
    origin := row.origin
    masters := ← texts row.masters
    players := ← texts row.players
    observers := ← texts row.observers
    areas := ← texts row.areas
    config := ← fields row.config
    roulette := ← fields row.roulette
    logging := row.logging }

def Game.row (game : Game) : GameRow γ :=
  { id := game.id
    name := game.name
    platform := game.platform
    origin := game.origin
    masters := Column.ofStrings game.masters
    players := Column.ofStrings game.players
    observers := Column.ofStrings game.observers
    areas := Column.ofStrings game.areas
    config := Column.ofFields game.config
    roulette := Column.ofFields game.roulette
    logging := game.logging }

/-- A query finds a channel among the areas of a row, unless it cannot read them. -/
def GameRow.covers? (channel : String) (row : GameRow γ) : Option Bool :=
  Column.holds? row.areas channel

/-- The row of a changed game; the platform does not change. -/
def GameRow.overwrite (row : GameRow γ) (game : Game) : GameRow γ :=
  { (game.row : GameRow γ) with platform := row.platform }

end Columns

namespace Database

def cardRow? (d : Database γ) (owner : Owner) (name : String) : Option (CardRow γ) :=
  d.cards.find? (CardRow.isNamed owner name)

/-- The rows of an owner in name order. -/
def cardRows (d : Database γ) (owner : Owner) : List (CardRow γ) :=
  (d.cards.filter (fun row => row.owner = owner)).mergeSort (fun a b => a.name ≤ b.name)

def activeRow? (d : Database γ) (owner : Owner) : Option (CardRow γ) :=
  d.cards.find? (fun row => row.owner = owner ∧ row.active)

/-- Change the cards that satisfy a condition. -/
def changeCards (d : Database γ) (p : CardRow γ → Bool) (change : CardRow γ → CardRow γ) :
    Database γ :=
  { d with cards := d.cards.map (fun row => if p row then change row else row) }

def activate (d : Database γ) (owner : Owner) (name : String) : Bool × Database γ :=
  if (d.cardRow? owner name).isSome then
    (true, d.changeCards (fun row => row.owner = owner)
      (fun row => { row with active := row.name = name }))
  else (false, d)

def removeCard (d : Database γ) (owner : Owner) (name : String) : Bool × Database γ :=
  ((d.cardRow? owner name).isSome,
    { d with
      cards := d.cards.filter (fun row => !row.isNamed owner name)
      bindings := d.bindings.filter
        (fun binding => !(binding.owner = owner ∧ binding.card = name)) })

/-- The bindings of all others. -/
def withoutBinding (d : Database γ) (owner : Owner) (group : String) : List Binding :=
  d.bindings.filter (fun binding => !(binding.owner = owner ∧ binding.group = group))

def binding? (d : Database γ) (owner : Owner) (group : String) : Option Binding :=
  d.bindings.find? (fun binding => binding.owner = owner ∧ binding.group = group)

def setBinding (d : Database γ) (binding : Binding) : Database γ :=
  { d with bindings := d.withoutBinding binding.owner binding.group ++ [binding] }

def removeBinding (d : Database γ) (owner : Owner) (group : String) : Bool × Database γ :=
  ((d.binding? owner group).isSome, { d with bindings := d.withoutBinding owner group })

def gameNamed? (d : Database γ) (platform name : String) : Option (GameRow γ) :=
  d.games.find? (fun row => row.platform = platform ∧ row.name = name)

/-- A game of another number has a name on a platform. -/
def nameInUse (d : Database γ) (platform name : String) (id : Int) : Bool :=
  d.games.any (fun row => row.platform = platform ∧ row.name = name ∧ row.id ≠ id)

def removeGame (d : Database γ) (id : Int) : Bool × Database γ :=
  (d.games.any (fun row => row.id = id),
    { d with games := d.games.filter (fun row => row.id ≠ id) })

def dataRow? (d : Database γ) (scope : DataScope) (id key : String) : Option (DataRow γ) :=
  d.data.find? (DataRow.isAt scope id key)

/-- Put a column into the row of a key, or into a new row. -/
def putColumn (d : Database γ) (scope : DataScope) (id key : String) (column : γ) :
    Database γ :=
  if (d.dataRow? scope id key).isSome then
    { d with data := d.data.map (fun row =>
        if row.isAt scope id key then { row with value := column } else row) }
  else { d with data := d.data ++ [⟨scope, id, key, column⟩] }

/-- Overwrite the attribute column of a card. -/
def putAttributes (d : Database γ) (owner : Owner) (name : String) (column : γ) :
    Bool × Database γ :=
  ((d.cardRow? owner name).isSome,
    d.changeCards (CardRow.isNamed owner name) (fun row => { row with attributes := column }))

section Columns
variable [Column γ]

/-- The card or game of a row that was found. -/
def decodeFound {α ρ : Type} (decode : ρ → Except Failure α) :
    Option ρ → Except Failure (Option α)
  | none => .ok none
  | some row => (decode row).map some

def card? (d : Database γ) (owner : Owner) (name : String) : Except Failure (Option Card) :=
  decodeFound CardRow.card (d.cardRow? owner name)

def createCard (new : NewCard) : Action (Database γ) Card := do
  let d ← get
  let found ← d.card? new.owner new.name
  if found.isSome then throw (Store.nameTaken new.name)
  let card := new.numbered (d.lastCard + 1)
  set { d with lastCard := d.lastCard + 1, cards := d.cards ++ [card.row] }
  return card

/-- The first game of a platform that covers a channel. The query looks at all games of the
platform before it puts them in order, and one that it cannot read makes it fail. -/
def rowAt? (d : Database γ) (platform channel : String) : Except Failure (Option (GameRow γ)) :=
  if d.games.any (fun row => row.platform = platform ∧ row.covers? channel = none) then
    .error Column.malformed
  else .ok (d.games.find? (fun row => row.platform = platform ∧ row.covers? channel = some true))

def gameAt? (d : Database γ) (platform channel : String) : Except Failure (Option Game) := do
  decodeFound GameRow.game (← d.rowAt? platform channel)

/-- The failure of using the name of another game. -/
def nameConflict : Failure := .store "a game of that name exists"

def overwriteGame (d : Database γ) (game : Game) : Database γ :=
  { d with games := d.games.map (fun row =>
      if row.id = game.id then row.overwrite game else row) }

/-- Keep a game. A game whose number is not there is not kept. -/
def saveGame (game : Game) : Action (Database γ) Game := do
  let d ← get
  if game.id = 0 then
    if (d.gameNamed? game.platform game.name).isSome then throw nameConflict
    let kept := { game with id := (d.lastGame + 1 : Nat) }
    set { d with lastGame := d.lastGame + 1, games := d.games ++ [kept.row] }
    return kept
  else
    match d.games.find? (fun row => row.id = game.id) with
    | none => return game
    | some old =>
      if d.nameInUse old.platform game.name game.id then throw nameConflict
      set (d.overwriteGame game)
      return game

/-- The values of an id that can be read. -/
def values (d : Database γ) (scope : DataScope) (id : String) : Fields :=
  KeyTable.ofList (d.data.filterMap (fun row =>
    if row.scope = scope ∧ row.id = id then (Column.decode row.value).map (row.key, ·)
    else none))

def value? (d : Database γ) (scope : DataScope) (id key : String) :
    Except Failure (Option Json) :=
  decodeFound (fun row => Column.decodeWith some row.value) (d.dataRow? scope id key)

/-- Bring the schema up to date. -/
def upToDate (d : Database γ) : Database γ :=
  { d with schema := (d.schema.migrate hostMigrations none).1 }

end Columns
end Database

/-- Look at the state; what is found may be unreadable. -/
def Store.readingOrFail {σ α : Type} (f : σ → Except Failure α) : Action σ α := do
  match f (← get) with
  | .ok v => return v
  | .error failure => throw failure

open Database in
instance [Column γ] : Store (Database γ) where
  card? owner name := Store.readingOrFail (·.card? owner name)
  activeCard? owner := Store.readingOrFail (fun d => decodeFound CardRow.card (d.activeRow? owner))
  cards owner := Store.readingOrFail (fun d => (d.cardRows owner).mapM CardRow.card)
  createCard := createCard
  setAttributes owner name attributes :=
    Store.changing (·.putAttributes owner name (Column.ofFields attributes))
  activate owner name := Store.changing (·.activate owner name)
  removeCard owner name := Store.changing (·.removeCard owner name)
  binding? owner group := Store.reading (·.binding? owner group)
  setBinding binding := modify (·.setBinding binding)
  removeBinding owner group := Store.changing (·.removeBinding owner group)
  gameAt? platform channel := Store.readingOrFail (·.gameAt? platform channel)
  gameNamed? platform name :=
    Store.readingOrFail (fun d => decodeFound GameRow.game (d.gameNamed? platform name))
  saveGame := saveGame
  removeGame id := Store.changing (·.removeGame id)
  value? scope id key := Store.readingOrFail (·.value? scope id key)
  values scope id := Store.reading (·.values scope id)
  setValue scope id key value :=
    modify (·.putColumn scope id key (Column.encode value))

end DiceHost
