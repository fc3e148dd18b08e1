import DiceHost.Toml.Read

/-! # Records in TOML

A record is written as a table whose keys are its fields. An array is read as the same
record with its items in field order, and a date as a record without any known field.
-/
namespace DiceHost.Toml

/-- A value that stands for a record. -/
inductive Section where
  | named (fields : KeyTable Toml)
  | placed (items : List Toml)
  | absent

/-- The record a value stands for. -/
def section? : Toml → Option Section
  | .table fields => some (.named fields)
  | .arr items => some (.placed items)
  | .moment _ => some (.named [])
  | _ => none

/-- The value of a field, by name or by place. -/
def Section.field (s : Section) (place : Nat) (name : String) : Option Toml :=
  match s with
  | named fields => KeyTable.find? fields name
  | placed items => items[place]?
  | absent => none

/-- An array has at least as many items as the record needs. -/
def Section.reaches (s : Section) (count : Nat) : Bool :=
  match s with
  | placed items => count ≤ items.length
  | _ => true

/-- Read a field that may be missing; a value of the wrong kind is an error. -/
def Section.get? {α : Type} (s : Section) (place : Nat) (name : String)
    (read : Toml → Option α) : Option (Option α) :=
  match s.field place name with
  | none => some none
  | some v => (read v).map some

/-- Read a field that has a default. -/
def Section.getD {α : Type} (s : Section) (place : Nat) (name : String)
    (read : Toml → Option α) (default : α) : Option α :=
  (s.get? place name read).map (fun v => v.getD default)

def text? : Toml → Option String
  | .str s => some s
  | _ => none

def flag? : Toml → Option Bool
  | .bool b => some b
  | _ => none

def count? : Toml → Option Nat
  | .int n => if 0 ≤ n then some n.toNat else none
  | _ => none

end DiceHost.Toml
