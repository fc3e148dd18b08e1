import DiceHost.Context
import DiceHost.Literal.Decode
import DiceHost.Literal.Encode
import DiceHost.Store.Action
import DiceHost.Text.Blank

/-! # What users do with cards

Among the cards of a user at most one is active. The first card becomes the active one; a
card that is bound in a group goes before it there.
-/
namespace DiceHost.Card
open DiceHost DiceHost.Text

/-! ## As scripts see them -/

/-- The name and the template of a card, and its attributes over them. -/
def snapshot (card : Card) : Fields :=
  KeyTable.insertAll
    (KeyTable.ofList [(cardNameKey, .str card.name), (plainNameKey, .str card.name),
      (cardTypeKey, .str card.kind)])
    card.attributes

/-! ## Cached cards

A bound card is also written into the data of its group, as a table literal under a key of
its own. The copy stands in when the store cannot be read.
-/

/-- The key of a player's cached card in the group data. -/
def cacheKey (user : String) : String := "player_card#" ++ user

/-- The key of a player's free card text in the group data. -/
def textKey (user : String) : String := "card#" ++ user

/-- Read a cached card: an object, or the literal of one. -/
def decodeCached (key : String) (blob : Json) : Except Failure Fields :=
  match blob with
  | .obj fields => .ok fields
  | .str text =>
    match Literal.decode text with
    | none => .error (.cacheCorruption key "unparsable literal")
    | some (.obj fields) => .ok fields
    | some _ => .error (.cacheCorruption key "not a table literal")
  | _ => .error (.cacheCorruption key "not a table literal")

/-! ## Actions -/

variable {σ : Type} [Store σ]

def create (owner : Owner) (name kind : String) (attributes : Fields) : Action σ Card := do
  if isBlankText name then throw (.validation "card name must not be empty")
  let others ← Store.cards owner
  Store.createCard ⟨owner, name, kind, others.isEmpty, attributes⟩

/-- The named card, or the active one. -/
def target (owner : Owner) : Option String → Action σ Card
  | some name => do
    match ← Store.card? owner name with
    | some card => return card
    | none => throw (.notFound ("character '" ++ name ++ "'"))
  | none => do
    match ← Store.activeCard? owner with
    | some card => return card
    | none => throw (.notFound "active character")

/-- Write attributes over those of the named card, or of the active one. -/
def mergeAttributes (owner : Owner) (name : Option String) (attributes : Fields) :
    Action σ Card := do
  let card ← target owner name
  let changed := { card with attributes := KeyTable.insertAll card.attributes attributes }
  let _ ← Store.setAttributes owner card.name changed.attributes
  return changed

/-- Make a card the only active one. -/
def switch (owner : Owner) (name : String) : Action σ Unit := do
  if !(← Store.activate owner name) then throw (.notFound ("character '" ++ name ++ "'"))

/-- The card bound in a group, if it still exists. -/
def bound? (owner : Owner) (group : String) : Action σ (Option Card) := do
  match ← Store.binding? owner group with
  | some binding => Store.card? owner binding.card
  | none => return none

/-- The card a user plays in a group: the bound one, or else the active one. -/
def resolve? (owner : Owner) (group : String) : Action σ (Option Card) := do
  match ← bound? owner group with
  | some card => return some card
  | none => Store.activeCard? owner

/-- The copy of a card that is kept in the data of a group. -/
def cacheBlob (card : Card) : Json := .str (Literal.encode (.obj card.snapshot))

/-- Write the copy of a card; the card counts as bound even when this fails. -/
def writeCache (card : Card) (user group : String) : Action σ Unit :=
  tryCatch (Store.setValue .group group (cacheKey user) card.cacheBlob) (fun _ => pure ())

/-- Bind the named card, or the active one, in a group. -/
def bindIn (owner : Owner) (group : String) (name : Option String) : Action σ Card := do
  if group.isEmpty then throw (.validation "cards can only be bound inside a group")
  let card ← target owner name
  Store.setBinding ⟨owner, group, card.name⟩
  card.writeCache owner.user group
  return card

end DiceHost.Card
