import DiceHost.Failure
import DiceHost.Json.Relaxed

/-! # Columns that hold values

A table keeps structured values in columns of some form. The usual form is JSON text, which
may have been spoilt from outside; a column that holds the value as it is never fails to
read. A query looks into columns on its own and may read what the host cannot.
-/
namespace DiceHost

/-- A form of columns for values. -/
class Column (γ : Type) where
  encode : Json → γ
  decode : γ → Option Json
  /-- a query finds a text among the members of a value, unless it cannot read the column -/
  holds? : γ → String → Option Bool

/-- A column that holds the text of a value. -/
structure JsonText where
  text : String
deriving DecidableEq, Repr, Inhabited

instance : Column JsonText where
  encode v := ⟨Json.compact v⟩
  decode column := Json.read column.text
  holds? column text := Json.Relaxed.holds? column.text text

/-- A column that holds a value as it is. -/
structure Verbatim where
  value : Json
deriving DecidableEq, Repr, Inhabited

/-- The text that a value is equal to in a query, if there is one. -/
def Json.asText? : Json → Option String
  | .str s => some s
  | .arr items => some (compact (.arr items))
  | .obj fields => some (compact (.obj fields))
  | _ => none

/-- The members of a value; one that has none is its own. -/
def Json.members : Json → List Json
  | .arr items => items
  | .obj fields => fields.map Prod.snd
  | v => [v]

instance : Column Verbatim where
  encode v := ⟨v⟩
  decode column := some column.value
  holds? column text := some (column.value.members.any (fun v => v.asText? = some text))

namespace Column
variable {γ : Type} [Column γ]

/-- The failure of reading a column that does not hold what it should. -/
def unreadable : Failure := .store "invalid JSON column"

/-- The failure of a query that looks into a column it cannot read. -/
def malformed : Failure := .store "malformed JSON"

def ofStrings (items : List String) : γ := encode (.arr (items.map .str))

def ofFields (fields : Fields) : γ := encode (.obj fields)

/-- The texts of a list of text values. -/
def texts? : Json → Option (List String)
  | .arr items => items.mapM Json.text?
  | _ => none

def fields? : Json → Option Fields
  | .obj fields => some fields
  | _ => none

/-- Read a column as something more special than a value. -/
def decodeWith {α : Type} (view : Json → Option α) (column : γ) : Except Failure α :=
  match (decode column).bind view with
  | some v => .ok v
  | none => .error unreadable

end Column
end DiceHost
