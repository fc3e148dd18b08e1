import DiceHost.Store.Action

/-! # A store that refuses

Any store can be run under a schedule of failures. An operation that is refused does not
reach the store inside.
-/
namespace DiceHost

/-- The operations of a store by name. -/
inductive Store.Operation where
  | card | activeCard | cards | createCard | setAttributes | activate | removeCard
  | binding | setBinding | removeBinding
  | gameAt | gameNamed | saveGame | removeGame
  | value (scope : DataScope) | values (scope : DataScope) | setValue (scope : DataScope)
deriving DecidableEq, Repr

/-- A store with the number of operations so far and a schedule of the ones that fail. -/
structure Faulty (σ : Type) where
  inner : σ
  calls : Nat := 0
  /-- the failure of an operation that comes after so many others -/
  refusal : Nat → Store.Operation → Option Failure

namespace Faulty
variable {σ α : Type}

/-- Run an operation of the store inside, unless it is refused. -/
def attempt (operation : Store.Operation) (action : Action σ α) : Action (Faulty σ) α :=
  fun (s : Faulty σ) =>
    match s.refusal s.calls operation with
    | some failure => (.error failure, { s with calls := s.calls + 1 })
    | none =>
      let (outcome, inner) := action s.inner
      (outcome, { s with inner := inner, calls := s.calls + 1 })

end Faulty

instance {σ : Type} [Store σ] : Store (Faulty σ) where
  card? owner name := Faulty.attempt .card (Store.card? owner name)
  activeCard? owner := Faulty.attempt .activeCard (Store.activeCard? owner)
  cards owner := Faulty.attempt .cards (Store.cards owner)
  createCard new := Faulty.attempt .createCard (Store.createCard new)
  setAttributes owner name attributes :=
    Faulty.attempt .setAttributes (Store.setAttributes owner name attributes)
  activate owner name := Faulty.attempt .activate (Store.activate owner name)
  removeCard owner name := Faulty.attempt .removeCard (Store.removeCard owner name)
  binding? owner group := Faulty.attempt .binding (Store.binding? owner group)
  setBinding binding := Faulty.attempt .setBinding (Store.setBinding binding)
  removeBinding owner group := Faulty.attempt .removeBinding (Store.removeBinding owner group)
  gameAt? platform channel := Faulty.attempt .gameAt (Store.gameAt? platform channel)
  gameNamed? platform name := Faulty.attempt .gameNamed (Store.gameNamed? platform name)
  saveGame game := Faulty.attempt .saveGame (Store.saveGame game)
  removeGame id := Faulty.attempt .removeGame (Store.removeGame id)
  value? scope id key := Faulty.attempt (.value scope) (Store.value? scope id key)
  values scope id := Faulty.attempt (.values scope) (Store.values scope id)
  setValue scope id key value :=
    Faulty.attempt (.setValue scope) (Store.setValue scope id key value)

end DiceHost
