import DiceHost.Json.Value

/-! # Deferred writes

A script reads data that was fetched before it runs and queues its writes. A queued write is
visible to later reads of the same call and reaches the store only when the call succeeds.
-/
namespace DiceHost

/-- The two collections of keyed data. -/
inductive DataScope where
  | group | user
deriving DecidableEq, Repr, Inhabited, Hashable

/-- A write that a script asked for. -/
structure Write where
  scope : DataScope
  id : String
  key : String
  value : Json
deriving DecidableEq, Repr, Inhabited

/-- The data one call may read, and the writes it has queued, the oldest first. -/
structure Storage where
  groups : KeyTable Fields := []
  users : KeyTable Fields := []
  pending : List Write := []
deriving DecidableEq, Repr, Inhabited

namespace Storage

/-- The views of one collection, by owner. -/
def views (storage : Storage) : DataScope → KeyTable Fields
  | .group => storage.groups
  | .user => storage.users

def setViews (storage : Storage) (scope : DataScope) (views : KeyTable Fields) : Storage :=
  match scope with
  | .group => { storage with groups := views }
  | .user => { storage with users := views }

/-- Provide the data of one group or user, in place of what was provided before. -/
def provide (storage : Storage) (scope : DataScope) (id : String) (data : Fields) : Storage :=
  storage.setViews scope (KeyTable.insert id data (storage.views scope))

def get (storage : Storage) (scope : DataScope) (id key : String) : Option Json :=
  (KeyTable.find? (storage.views scope) id).bind (fun data => KeyTable.find? data key)

/-- Queue a write and show it to later reads. -/
def set (storage : Storage) (scope : DataScope) (id key : String) (value : Json) : Storage :=
  let data := (KeyTable.find? (storage.views scope) id).getD []
  let shown := storage.provide scope id (KeyTable.insert key value data)
  { shown with pending := storage.pending ++ [⟨scope, id, key, value⟩] }

/-- Drop the queued writes; what was shown to later reads stays. -/
def discard (storage : Storage) : Storage := { storage with pending := [] }

end Storage
end DiceHost
