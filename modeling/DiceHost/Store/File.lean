import DiceHost.Files.Tree
import DiceHost.Store.Database

/-! # Databases in files

A database is kept in a file as the JSON text of its tables. An empty file is a database
without tables; any other file that does not hold a database is refused.
-/
namespace DiceHost
open DiceHost.Text

namespace Database

def textJson (column : JsonText) : Json := .str column.text

def countJson (n : Nat) : Json := .int n

/-- The JSON of a migration state. -/
def schemaJson (s : Schema) : Json :=
  .arr [(s.versions.map (fun vs => Json.arr (vs.map countJson))).getD .null,
    .arr (s.applied.map (fun m => .arr (m.map .str)))]

def cardJson (row : CardRow JsonText) : Json :=
  .arr [countJson row.id, .str row.owner.user, .str row.owner.platform, .str row.name,
    .str row.kind, .bool row.active, textJson row.attributes]

def bindingJson (b : Binding) : Json :=
  .arr [.str b.owner.user, .str b.owner.platform, .str b.group, .str b.card]

def gameJson (row : GameRow JsonText) : Json :=
  .arr [.int row.id, .str row.name, .str row.platform, .str row.origin, textJson row.masters,
    textJson row.players, textJson row.observers, textJson row.areas, textJson row.config,
    textJson row.roulette,    .bool row.logging]

def dataJson (row : DataRow JsonText) : Json :=
  .arr [.bool (row.scope = .group), .str row.id, .str row.key, textJson row.value]

def fileText (d : Database JsonText) : String :=
  Json.compact (.arr [.str "dicehost database", schemaJson d.schema, countJson d.lastCard,
    countJson d.lastGame, .arr (d.cards.map cardJson), .arr (d.bindings.map bindingJson),
    .arr (d.games.map gameJson), .arr (d.data.map dataJson)])

def count? : Json → Option Nat
  | .int n => if 0 ≤ n then some n.toNat else none
  | _ => none

def items? : Json → Option (List Json)
  | .arr items => some items
  | _ => none

def readSchema : Json → Option Schema
  | .arr [versions, .arr applied] => do
    let applied ← applied.mapM Column.texts?
    match versions with
    | .null => return ⟨none, applied⟩
    | versions => return ⟨some (← (← items? versions).mapM count?), applied⟩
  | _ => none

def readCard : Json → Option (CardRow JsonText)
  | .arr [id, .str user, .str platform, .str name, .str kind, .bool active, .str attributes] =>
    (count? id).map (fun id => ⟨id, ⟨user, platform⟩, name, kind, active, ⟨attributes⟩⟩)
  | _ => none

def readBinding : Json → Option Binding
  | .arr [.str user, .str platform, .str group, .str card] => some ⟨⟨user, platform⟩, group, card⟩
  | _ => none

def readGame : Json → Option (GameRow JsonText)
  | .arr [.int id, .str name, .str platform, .str origin, .str masters, .str players,
      .str observers, .str areas, .str config, .str roulette, .bool logging] =>
    some ⟨id, name, platform, origin, ⟨masters⟩, ⟨players⟩, ⟨observers⟩, ⟨areas⟩, ⟨config⟩,
      ⟨roulette⟩, logging⟩
  | _ => none

def readData : Json → Option (DataRow JsonText)
  | .arr [.bool inGroup, .str id, .str key, .str value] =>
    some ⟨if inGroup then .group else .user, id, key, ⟨value⟩⟩
  | _ => none

/-- The database a text describes. -/
def ofJson? : Json → Option (Database JsonText)
  | .arr [.str "dicehost database", schema, lastCard, lastGame, .arr cards, .arr bindings,
      .arr games, .arr data] => do
    return {
      schema := ← readSchema schema
      lastCard := ← count? lastCard
      lastGame := ← count? lastGame
      cards := ← cards.mapM readCard
      bindings := ← bindings.mapM readBinding
      games := ← games.mapM readGame
      data := ← data.mapM readData }
  | _ => none

def ofFile? (content : List UInt8) : Option (Database JsonText) :=
  if content.isEmpty then some {} else ((ofBytes? content).bind Json.read).bind ofJson?

/-- Write a database to a file. -/
def save (d : Database JsonText) (root : Directory) (path : String) : Directory :=
  Files.put root path (.file (bytesOf d.fileText))

/-- Open the database at a path, making it if there is none, and bring its schema up to date.
A file in the place of a directory is in the way; a file that is no database is refused. -/
def openAt (root : Directory) (path : String) : Except Failure (Database JsonText × Directory) :=
  match Files.writeWith root path id with
  | none =>
    if Files.isDirectory root path then .error (.store "unable to open database file")
    else .error (.files "a file is in the way")
  | some made =>
    match Files.find? made path with
    | some (.file content) =>
      match ofFile? content with
      | some d => .ok (d.upToDate, d.upToDate.save made path)
      | none => .error (.store "file is not a database")
    | _ => .error (.store "unable to open database file")

end Database
end DiceHost
