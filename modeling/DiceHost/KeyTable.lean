/-! # Tables ordered by a text key

Rule manuals, card attributes, registered commands and stored rows are all small
tables that are read back in key order. `KeyTable` keeps them as plain lists of
pairs; `Ordered` is the invariant that the keys increase strictly, which every
operation of this module preserves.
-/
namespace DiceHost

/-- A table from text keys, listed in key order. -/
abbrev KeyTable (α : Type) := List (String × α)

namespace KeyTable
variable {α β : Type}

/-- The keys of a table increase strictly, so no key occurs twice. -/
def Ordered (table : KeyTable α) : Prop := table.Pairwise (fun a b => a.1 < b.1)

instance (table : KeyTable α) : Decidable (Ordered table) :=
  inferInstanceAs (Decidable (table.Pairwise fun a b => a.1 < b.1))

def find? (table : KeyTable α) (key : String) : Option α := table.lookup key

def contains (table : KeyTable α) (key : String) : Bool := (find? table key).isSome

def keys (table : KeyTable α) : List String := table.map (·.1)

def values (table : KeyTable α) : List α := table.map (·.2)

/-- Store a value under a key, replacing what was there. -/
def insert (key : String) (value : α) : KeyTable α → KeyTable α
  | [] => [(key, value)]
  | entry :: rest =>
    if key < entry.1 then (key, value) :: entry :: rest
    else if key = entry.1 then (key, value) :: rest
    else entry :: insert key value rest

/-- Store a value under a key unless there is one already. -/
def insertNew (key : String) (value : α) (table : KeyTable α) : KeyTable α :=
  if contains table key then table else insert key value table

def erase (table : KeyTable α) (key : String) : KeyTable α :=
  table.filter (fun entry => entry.1 != key)

/-- Change the value of a key that is present. -/
def update (table : KeyTable α) (key : String) (change : α → α) : KeyTable α :=
  table.map (fun entry => if entry.1 = key then (entry.1, change entry.2) else entry)

/-- Insert entries one after another: a later entry wins over an earlier one. -/
def insertAll (table : KeyTable α) (entries : List (String × α)) : KeyTable α :=
  entries.foldl (fun t entry => insert entry.1 entry.2 t) table

/-- The ordered table of a list of entries; of two entries with one key the later stays. -/
def ofList (entries : List (String × α)) : KeyTable α := insertAll [] entries

def mapValues (change : α → β) (table : KeyTable α) : KeyTable β :=
  table.map (fun entry => (entry.1, change entry.2))

end KeyTable
end DiceHost
