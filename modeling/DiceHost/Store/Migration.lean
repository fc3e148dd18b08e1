/-! # Schema migrations

The schema of a database grows by migrations, which are numbered from one. A version table
records the numbers of those in effect. Every migration runs in a transaction of its own
together with its record, so an attempt that fails on the way leaves a state from which the
next attempt can go on.
-/
namespace DiceHost

/-- One migration: the statements it runs. -/
abbrev Migration := List String

/-- What a database knows of its schema. -/
structure Schema where
  /-- the numbers in the version table, when it exists -/
  versions : Option (List Nat) := none
  /-- the migrations in effect, the earliest first -/
  applied : List Migration := []
deriving DecidableEq, Repr, Inhabited

namespace Schema

/-- The greatest recorded number, zero when there is none. -/
def version (s : Schema) : Nat := (s.versions.getD []).foldl max 0

/-- How many more statements succeed in an attempt; no number means all of them. -/
abbrev Budget := Option Nat

/-- Run so many statements, if the budget allows it. -/
def spend (budget : Budget) (statements : Nat) : Option Budget :=
  match budget with
  | none => some none
  | some n => if statements ≤ n then some (some (n - statements)) else none

/-- The statements of the transaction around a migration: its beginning, the migration, the
record, and its end. -/
def cost (m : Migration) : Nat := m.length + 3

/-- The state after the transaction of a migration. -/
def record (s : Schema) (m : Migration) (number : Nat) : Schema :=
  { versions := some (s.versions.getD [] ++ [number]), applied := s.applied ++ [m] }

/-- Apply migrations from a number on. The flag says whether none of them failed. -/
def applyFrom (s : Schema) : Budget → Nat → List Migration → Schema × Bool
  | _, _, [] => (s, true)
  | budget, number, m :: rest =>
    match spend budget (cost m) with
    | some budget => applyFrom (s.record m number) budget (number + 1) rest
    | none => (s, false)

/-- Create the version table unless it is there. -/
def prepare (s : Schema) : Schema := { s with versions := some (s.versions.getD []) }

/-- The statements that find out the version: one looks for the version table, another one
reads it. -/
def lookups (s : Schema) : Nat := if s.versions.isSome then 2 else 1

/-- One attempt to bring the schema up to date. -/
def migrate (migrations : List Migration) (budget : Budget) (s : Schema) : Schema × Bool :=
  match spend budget s.lookups with
  | none => (s, false)
  | some budget =>
    if migrations.length ≤ s.version then (s, true)
    else
      -- one statement makes the version table
      match spend budget 1 with
      | none => (s, false)
      | some budget =>
        applyFrom s.prepare budget (s.version + 1) (migrations.drop s.version)

end Schema

/-- The migrations of the host's database: cards and bindings, games, keyed data. -/
def hostMigrations : List Migration :=
  [["characters", "characters by owner", "bindings"], ["games"], ["group data", "user data"]]

end DiceHost
