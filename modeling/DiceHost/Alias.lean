import DiceHost.Json.Value

/-! # Attribute aliases

A card template gives short stable names to the attributes that its cards store under
display names. A card says under `type` which template it was made from.
-/
namespace DiceHost

/-- The aliases of one template, each with the attribute it stands for. -/
abbrev Aliases := KeyTable String

/-- The aliases of every template. -/
abbrev AliasTable := KeyTable Aliases

/-- The attribute that names the template of a card. -/
def cardTypeKey : String := "type"

namespace AliasTable

/-- The attribute an alias stands for under a template. -/
def resolve (table : AliasTable) (template name : String) : Option String :=
  (KeyTable.find? table template).bind (fun aliases => KeyTable.find? aliases name)

/-- The aliases that apply to a card: those of the template it names, unless it has none. -/
def ofCard (table : AliasTable) (card : Fields) : Option Aliases :=
  match KeyTable.find? card cardTypeKey with
  | some (.str template) => (KeyTable.find? table template).filter (fun a => !a.isEmpty)
  | _ => none

end AliasTable
end DiceHost
