import DiceHost.Failure
import DiceHost.Storage
import DiceHost.Store.Record

/-! # Stores

A store is any state that offers the operations below. An operation can fail; what it did
to the state before it failed is then part of the outcome.
-/
namespace DiceHost

/-- A computation on a store that can fail. -/
abbrev Action (σ : Type) := ExceptT Failure (StateM σ)

class Store (σ : Type) where
  card? (owner : Owner) (name : String) : Action σ (Option Card)
  /-- the card the user plays where no other one is bound -/
  activeCard? (owner : Owner) : Action σ (Option Card)
  /-- the cards of a user in name order -/
  cards (owner : Owner) : Action σ (List Card)
  /-- A name that is taken is an error. -/
  createCard (new : NewCard) : Action σ Card
  /-- Replace the attributes of a card; false when there is no such card. -/
  setAttributes (owner : Owner) (name : String) (attributes : Fields) : Action σ Bool
  /-- Make a card the only active one of its owner; false when there is no such card. -/
  activate (owner : Owner) (name : String) : Action σ Bool
  /-- Remove a card and its bindings; false when there was no such card. -/
  removeCard (owner : Owner) (name : String) : Action σ Bool
  binding? (owner : Owner) (group : String) : Action σ (Option Binding)
  setBinding (binding : Binding) : Action σ Unit
  removeBinding (owner : Owner) (group : String) : Action σ Bool
  /-- the game that covers a channel -/
  gameAt? (platform channel : String) : Action σ (Option Game)
  gameNamed? (platform name : String) : Action σ (Option Game)
  /-- Keep a game: a new one under a new number, any other one under its own. -/
  saveGame (game : Game) : Action σ Game
  removeGame (id : Int) : Action σ Bool
  value? (scope : DataScope) (id key : String) : Action σ (Option Json)
  values (scope : DataScope) (id : String) : Action σ Fields
  setValue (scope : DataScope) (id key : String) (value : Json) : Action σ Unit

namespace Store

/-- The failure of making a card under a name that is taken. -/
def nameTaken (name : String) : Failure := .store ("character '" ++ name ++ "' already exists")

/-- Look at the state. -/
def reading {σ α : Type} (f : σ → α) : Action σ α := return f (← get)

/-- Change the state and answer. -/
def changing {σ α : Type} (f : σ → α × σ) : Action σ α := modifyGet f

end Store

/-- Apply queued writes, the oldest first. A write that fails is skipped. The result is the
number of writes that succeeded. -/
def applyWrites {σ : Type} [Store σ] : List Write → StateM σ Nat
  | [] => return 0
  | w :: rest => do
    match ← (Store.setValue (σ := σ) w.scope w.id w.key w.value).run with
    | .ok () => return (← applyWrites rest) + 1
    | .error _ => applyWrites rest

/-- Apply the queued writes of a call and empty its queue. -/
def Storage.flush {σ : Type} [Store σ] (storage : Storage) : StateM σ (Storage × Nat) := do
  let applied ← applyWrites storage.pending
  return (storage.discard, applied)

end DiceHost
