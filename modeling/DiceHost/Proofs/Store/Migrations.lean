import DiceHost.Store.Migration
import Mathlib.Data.List.Basic
import Mathlib.Data.List.Infix

/-! # Migrations over several attempts

An attempt to bring a schema up to date may stop between any two of its statements. What was kept
by then is the beginning of the list of migrations, with their numbers in the version table, so
the next attempt goes on where this one stopped: no migration is left out and none is applied
twice.
-/
namespace DiceHost.Schema

/-! ## The statements of an attempt -/

/-- A statement that an attempt sends to the database. -/
inductive Statement where
  /-- a question about the version table -/
  | look
  | createVersions
  | begin
  | run (text : String)
  | record (number : Nat)
  | commit

/-- A database while an attempt runs: what it keeps, and the statements and the numbers of a
transaction that is open. -/
structure Connection where
  kept : Schema
  opened : Option (Migration × List Nat) := none

namespace Connection

/-- A transaction becomes part of what is kept all at once, when it is committed. -/
def execute (c : Connection) : Statement → Connection
  | .look => c
  | .createVersions => { c with kept := c.kept.prepare }
  | .begin => { c with opened := some ([], []) }
  | .run text => { c with opened := c.opened.map (fun t => (t.1 ++ [text], t.2)) }
  | .record number => { c with opened := c.opened.map (fun t => (t.1, t.2 ++ [number])) }
  | .commit =>
    match c.opened with
    | none => c
    | some (m, numbers) =>
      { kept := { versions := some (c.kept.versions.getD [] ++ numbers)
                  applied := c.kept.applied ++ [m] } }

def executeAll (c : Connection) (statements : List Statement) : Connection :=
  statements.foldl execute c

theorem executeAll_append (c : Connection) (statements more : List Statement) :
    c.executeAll (statements ++ more) = (c.executeAll statements).executeAll more :=
  List.foldl_append

theorem executeAll_look (c : Connection) (count : Nat) :
    c.executeAll (List.replicate count .look) = c := by
  induction count with
  | zero => rfl
  | succ count ih => exact ih

theorem executeAll_run (s : Schema) (ran m : List String) (numbers : List Nat) :
    (Connection.mk s (some (ran, numbers))).executeAll (m.map .run) =
      ⟨s, some (ran ++ m, numbers)⟩ := by
  induction m generalizing ran with
  | nil => rw [List.append_nil]; rfl
  | cons text rest ih =>
    have hstep : (Connection.mk s (some (ran, numbers))).executeAll ((text :: rest).map .run) =
        (Connection.mk s (some (ran ++ [text], numbers))).executeAll (rest.map .run) := rfl
    rw [hstep, ih, List.append_assoc]
    rfl

end Connection

/-- The statements of the transaction around a migration. -/
def transaction (m : Migration) (number : Nat) : List Statement :=
  .begin :: m.map .run ++ [.record number, .commit]

/-- The statements that apply migrations from a number on. -/
def statementsFrom : Nat → List Migration → List Statement
  | _, [] => []
  | number, m :: rest => transaction m number ++ statementsFrom (number + 1) rest

/-- The statements of an attempt. -/
def statements (s : Schema) (migrations : List Migration) : List Statement :=
  List.replicate s.lookups .look ++
    if migrations.length ≤ s.version then []
    else .createVersions :: statementsFrom (s.version + 1) (migrations.drop s.version)

/-- What is kept of some statements, of which only so many succeed, and whether that is all of
them. -/
def Connection.runWithin (c : Connection) (statements : List Statement) : Budget → Schema × Bool
  | none => ((c.executeAll statements).kept, true)
  | some n => ((c.executeAll (statements.take n)).kept, statements.length ≤ n)

/-! ## Stopping between two statements -/

theorem spend_some (n count : Nat) :
    spend (some n) count = if count ≤ n then some (some (n - count)) else none := rfl

theorem spend_eq_none {budget : Budget} {count : Nat} (h : spend budget count = none) :
    ∃ n, budget = some n ∧ n < count := by
  cases budget with
  | none => cases h
  | some n =>
    rw [spend_some] at h
    split at h
    · cases h
    · next hlt => exact ⟨n, rfl, Nat.lt_of_not_le hlt⟩

theorem Connection.runWithin_append {c : Connection} {statements more : List Statement}
    {budget left : Budget} (h : spend budget statements.length = some left) :
    c.runWithin (statements ++ more) budget = (c.executeAll statements).runWithin more left := by
  cases budget with
  | none =>
    cases h
    simp [runWithin, executeAll_append]
  | some n =>
    rw [spend_some] at h
    split at h
    · next hle =>
      cases h
      have hall : (statements ++ more).length ≤ n ↔ more.length ≤ n - statements.length := by
        rw [List.length_append]
        omega
      simp only [runWithin, List.take_append, List.take_of_length_le hle, executeAll_append, hall]
    · cases h

theorem Connection.runWithin_append_of_stops {c : Connection} {statements more : List Statement}
    {budget : Budget} (h : spend budget statements.length = none) :
    c.runWithin (statements ++ more) budget = c.runWithin statements budget := by
  obtain ⟨n, rfl, hlt⟩ := spend_eq_none h
  have hsum : ¬ (statements ++ more).length ≤ n := by
    rw [List.length_append]
    omega
  simp only [runWithin, List.take_append_of_le_length hlt.le, Nat.not_le.mpr hlt, hsum]

theorem kept_executeAll {c : Connection} {statements : List Statement}
    (h : ∀ statement ∈ statements, statement ≠ .createVersions ∧ statement ≠ .commit) :
    (c.executeAll statements).kept = c.kept := by
  induction statements generalizing c with
  | nil => rfl
  | cons statement rest ih =>
    have hrest : ((c.execute statement).executeAll rest).kept = (c.execute statement).kept :=
      ih (fun other hother => h other (List.mem_cons_of_mem _ hother))
    refine hrest.trans ?_
    obtain ⟨hcreate, hcommit⟩ := h statement List.mem_cons_self
    cases statement with
    | createVersions => exact absurd rfl hcreate
    | commit => exact absurd rfl hcommit
    | _ => rfl

/-- Before its last statement a run without others that keep something keeps nothing. -/
theorem Connection.runWithin_of_stops {c : Connection} {statements : List Statement}
    {last : Statement} {budget : Budget}
    (h : ∀ statement ∈ statements, statement ≠ .createVersions ∧ statement ≠ .commit)
    (hstops : spend budget (statements.length + 1) = none) :
    c.runWithin (statements ++ [last]) budget = (c.kept, false) := by
  obtain ⟨n, rfl, hlt⟩ := spend_eq_none hstops
  have htake : (statements ++ [last]).take n = statements.take n :=
    List.take_append_of_le_length (Nat.le_of_lt_succ hlt)
  have hkept : (c.executeAll (statements.take n)).kept = c.kept :=
    kept_executeAll (fun statement hstatement => h statement (List.mem_of_mem_take hstatement))
  have hmore : ¬ (statements ++ [last]).length ≤ n := by
    simpa using hlt
  rw [runWithin, htake, hkept, decide_eq_false hmore]

/-- What stands before the commit of a transaction. -/
theorem notKeeping_of_mem {m : Migration} {number : Nat} {statement : Statement}
    (h : statement ∈ .begin :: m.map .run ++ [.record number]) :
    statement ≠ .createVersions ∧ statement ≠ .commit := by
  simp only [List.cons_append, List.mem_cons, List.mem_append, List.mem_map, List.not_mem_nil,
    or_false] at h
  rcases h with rfl | ⟨text, -, rfl⟩ | rfl
  · exact ⟨nofun, nofun⟩
  · exact ⟨nofun, nofun⟩
  · exact ⟨nofun, nofun⟩

theorem transaction_eq (m : Migration) (number : Nat) :
    transaction m number = (.begin :: m.map .run ++ [.record number]) ++ [.commit] := by
  simp [transaction]

theorem length_transaction (m : Migration) (number : Nat) :
    (transaction m number).length = cost m := by
  simp [transaction, cost]

theorem executeAll_transaction (s : Schema) (m : Migration) (number : Nat) :
    (Connection.mk s none).executeAll (transaction m number) = ⟨s.record m number, none⟩ := by
  have hsplit : (Connection.mk s none).executeAll (transaction m number) =
      ((Connection.mk s (some ([], []))).executeAll (m.map .run)).executeAll
        [.record number, .commit] := Connection.executeAll_append _ _ _
  rw [hsplit, Connection.executeAll_run]
  rfl

/-- Applying migrations is running their transactions; one that stops before its commit is rolled
back. -/
theorem applyFrom_eq_runWithin (s : Schema) (budget : Budget) (number : Nat)
    (migrations : List Migration) :
    s.applyFrom budget number migrations =
      (Connection.mk s none).runWithin (statementsFrom number migrations) budget := by
  induction migrations generalizing s budget number with
  | nil => cases budget <;> simp [applyFrom, statementsFrom, Connection.runWithin,
      Connection.executeAll]
  | cons m rest ih =>
    rw [applyFrom, statementsFrom]
    cases hspend : spend budget (cost m) with
    | none =>
      rw [Connection.runWithin_append_of_stops (by rw [length_transaction, hspend]),
        transaction_eq, Connection.runWithin_of_stops (fun _ => notKeeping_of_mem)]
      rw [← hspend]
      simp [cost]
    | some left =>
      dsimp only
      rw [ih, Connection.runWithin_append (by rw [length_transaction, hspend]),
        executeAll_transaction]

/-- An attempt keeps what its statements keep up to the one that fails. -/
theorem migrate_eq_runWithin (migrations : List Migration) (budget : Budget) (s : Schema) :
    s.migrate migrations budget =
      (Connection.mk s none).runWithin (s.statements migrations) budget := by
  unfold migrate statements
  have hlength : (List.replicate s.lookups Statement.look).length = s.lookups :=
    List.length_replicate
  cases hlook : spend budget s.lookups with
  | none =>
    rw [Connection.runWithin_append_of_stops (by rw [hlength, hlook])]
    obtain ⟨n, rfl, hlt⟩ := spend_eq_none hlook
    simp [Connection.runWithin, List.take_replicate, Connection.executeAll_look, hlt]
  | some left =>
    rw [Connection.runWithin_append (by rw [hlength, hlook]), Connection.executeAll_look]
    dsimp only
    split
    · cases left <;> simp [Connection.runWithin, Connection.executeAll]
    · have hcons (rest : List Statement) :
          Statement.createVersions :: rest = [.createVersions] ++ rest := rfl
      rw [hcons]
      cases hcreate : spend left 1 with
      | none =>
        rw [Connection.runWithin_append_of_stops hcreate]
        exact (@Connection.runWithin_of_stops ⟨s, none⟩ [] .createVersions _ nofun hcreate).symm
      | some left =>
        rw [Connection.runWithin_append hcreate]
        exact applyFrom_eq_runWithin _ _ _ _

/-! ## What is in effect -/

/-- The schema after attempts, of which each runs so many statements. -/
def after (migrations : List Migration) (attempts : List Budget) (s : Schema) : Schema :=
  attempts.foldl (fun s budget => (s.migrate migrations budget).1) s

/-- The first migrations of a list are in effect, each once and in order, and their numbers are
recorded. -/
structure InEffect (migrations : List Migration) (s : Schema) : Prop where
  applied : s.applied <+: migrations
  recorded : s.versions.getD [] = List.range' 1 s.applied.length

theorem foldl_max_range' (n : Nat) : (List.range' 1 n).foldl max 0 = n := by
  induction n with
  | zero => rfl
  | succ n ih =>
    rw [List.range'_concat, List.foldl_append, ih, Nat.one_mul, List.foldl_cons, List.foldl_nil]
    omega

namespace InEffect
variable {migrations : List Migration} {s : Schema}

theorem empty : InEffect migrations {} := ⟨List.nil_prefix, rfl⟩

theorem version_eq (h : InEffect migrations s) : s.version = s.applied.length := by
  rw [version, h.recorded, foldl_max_range']

theorem applied_eq (h : InEffect migrations s) : s.applied = migrations.take s.version := by
  rw [h.version_eq]
  exact List.prefix_iff_eq_take.mp h.applied

theorem prepare (h : InEffect migrations s) : InEffect migrations s.prepare :=
  ⟨h.applied, h.recorded⟩

theorem record (h : InEffect migrations s) {m : Migration} {rest : List Migration}
    (hrest : migrations.drop s.applied.length = m :: rest) :
    InEffect migrations (s.record m (s.applied.length + 1)) where
  applied := by
    refine ⟨rest, ?_⟩
    have hsplit := List.prefix_iff_eq_append.mp h.applied
    rw [hrest] at hsplit
    exact (List.append_assoc _ _ _).trans hsplit
  recorded := by
    have hnumbers := h.recorded
    simp only [Schema.record, Option.getD_some, List.length_append, List.length_singleton]
    rw [hnumbers, List.range'_concat, Nat.one_mul, Nat.add_comm 1]

/-- Applying the migrations that are missing keeps a beginning of the list in effect, and all of it
when none of them fails. -/
theorem applyFrom (h : InEffect migrations s) (budget : Budget) {rest : List Migration}
    (hrest : migrations.drop s.applied.length = rest) :
    InEffect migrations (s.applyFrom budget (s.applied.length + 1) rest).1 ∧
      s.applied <+: (s.applyFrom budget (s.applied.length + 1) rest).1.applied ∧
      ((s.applyFrom budget (s.applied.length + 1) rest).2 = true →
        (s.applyFrom budget (s.applied.length + 1) rest).1.applied = migrations) := by
  induction rest generalizing s budget with
  | nil =>
    refine ⟨h, List.prefix_rfl, fun _ => ?_⟩
    exact h.applied.eq_of_length_le (List.drop_eq_nil_iff.mp hrest)
  | cons m rest ih =>
    rw [Schema.applyFrom]
    split
    · next left _ =>
      have hmore : migrations.drop (s.record m (s.applied.length + 1)).applied.length = rest := by
        have hlength : (s.record m (s.applied.length + 1)).applied.length =
            s.applied.length + 1 := List.length_append
        rw [hlength, ← List.tail_drop, hrest]
        rfl
      have hlength : (s.record m (s.applied.length + 1)).applied.length = s.applied.length + 1 :=
        List.length_append
      obtain ⟨heffect, hprefix, hall⟩ := ih (h.record hrest) left hmore
      rw [hlength] at heffect hprefix hall
      exact ⟨heffect, (List.prefix_append _ _).trans hprefix, hall⟩
    · exact ⟨h, List.prefix_rfl, nofun⟩

/-- What one attempt does: nothing that was in effect is lost, and an attempt that does not fail
leaves the whole list in effect. -/
theorem migrate (h : InEffect migrations s) (budget : Budget) :
    InEffect migrations (s.migrate migrations budget).1 ∧
      s.applied <+: (s.migrate migrations budget).1.applied ∧
      ((s.migrate migrations budget).2 = true →
        (s.migrate migrations budget).1.applied = migrations) := by
  unfold Schema.migrate
  split
  · exact ⟨h, List.prefix_rfl, nofun⟩
  · split
    · next hall =>
      rw [h.version_eq] at hall
      exact ⟨h, List.prefix_rfl, fun _ => h.applied.eq_of_length_le hall⟩
    · split
      · exact ⟨h, List.prefix_rfl, nofun⟩
      · next left _ =>
        rw [h.version_eq]
        exact h.prepare.applyFrom left rfl

theorem after (h : InEffect migrations s) (attempts : List Budget) :
    InEffect migrations (s.after migrations attempts) := by
  induction attempts generalizing s with
  | nil => exact h
  | cons budget rest ih => exact ih (h.migrate budget).1

end InEffect

/-- A database whose version is that of the list, or beyond it, is left alone. -/
theorem migrate_of_le_version {migrations : List Migration} {s : Schema}
    (h : migrations.length ≤ s.version) (budget : Budget) :
    (s.migrate migrations budget).1 = s := by
  unfold migrate
  split
  · rfl
  · rw [if_pos h]

theorem after_of_le_version {migrations : List Migration} {s : Schema}
    (h : migrations.length ≤ s.version) (attempts : List Budget) :
    s.after migrations attempts = s := by
  induction attempts with
  | nil => rfl
  | cons budget rest ih =>
    have hstep : s.after migrations (budget :: rest) =
        (s.migrate migrations budget).1.after migrations rest := rfl
    rw [hstep, migrate_of_le_version h, ih]

theorem applyFrom_of_unlimited (s : Schema) (number : Nat) (migrations : List Migration) :
    (s.applyFrom none number migrations).2 = true := by
  induction migrations generalizing s number with
  | nil => rfl
  | cons m rest ih => exact ih _ _

/-- An attempt of which no statement fails does not fail. -/
theorem migrate_of_unlimited (migrations : List Migration) (s : Schema) :
    (s.migrate migrations none).2 = true := by
  unfold migrate spend
  dsimp only
  split
  · rfl
  · exact applyFrom_of_unlimited _ _ _

/-- Whatever attempts were made at a new database, each of which may have stopped at any of its
statements, the first migrations of the list are in effect, each once and in order, and the version
is their number. An attempt that does not fail leaves the whole list in effect, and no attempt after
it changes anything. A database that is beyond the list is left alone. -/
theorem migrations_applied_once (migrations : List Migration) (attempts : List Budget) :
    let s := ({} : Schema).after migrations attempts
    s.version = s.applied.length ∧ s.applied = migrations.take s.version ∧
      s.versions.getD [] = List.range' 1 s.version ∧
    (∀ budget,
      s.migrate migrations budget =
        (Connection.mk s none).runWithin (s.statements migrations) budget ∧
      s.applied <+: (s.migrate migrations budget).1.applied ∧
      ((s.migrate migrations budget).2 = true →
        (s.migrate migrations budget).1.applied = migrations ∧
        ∀ more, (s.migrate migrations budget).1.after migrations more =
          (s.migrate migrations budget).1)) ∧
    (s.migrate migrations none).2 = true ∧
    ∀ other : Schema, migrations.length < other.version →
      ∀ more, other.after migrations more = other := by
  intro s
  have h : InEffect migrations s := InEffect.empty.after attempts
  refine ⟨h.version_eq, h.applied_eq, ?_, ?_, migrate_of_unlimited migrations s, ?_⟩
  · rw [h.version_eq]
    exact h.recorded
  · intro budget
    obtain ⟨heffect, hkept, hall⟩ := h.migrate budget
    refine ⟨migrate_eq_runWithin migrations budget s, hkept, fun hflag => ⟨hall hflag, ?_⟩⟩
    refine after_of_le_version ?_
    rw [heffect.version_eq, hall hflag]
  · exact fun other hbeyond => after_of_le_version hbeyond.le

/-- The first attempt stops after the version table was made, the second one at the second
migration, and the third one inside it. -/
theorem migrations_applied_once_interrupted :
    let s := ({} : Schema).after hostMigrations [some 2, some 9, some 5]
    let other : Schema := ⟨some [1, 2, 3, 4], hostMigrations ++ [["notes"]]⟩
    s.version = 1 ∧ s.applied = hostMigrations.take 1 ∧
      (s.migrate hostMigrations none).2 = true ∧
      (s.migrate hostMigrations none).1.applied = hostMigrations ∧
      (s.migrate hostMigrations none).1.after hostMigrations [some 0, none] =
        (s.migrate hostMigrations none).1 ∧
      hostMigrations.length < other.version ∧
      other.after hostMigrations [some 1, none] = other := by
  intro s other
  obtain ⟨-, happlied, -, hattempt, hunlimited, hbeyond⟩ :=
    migrations_applied_once hostMigrations [some 2, some 9, some 5]
  have hversion : s.version = 1 := by decide
  have hother : hostMigrations.length < other.version := by decide
  obtain ⟨hall, hagain⟩ := (hattempt none).2.2 hunlimited
  refine ⟨hversion, ?_, hunlimited, hall, hagain _, hother, hbeyond other hother _⟩
  rw [happlied, hversion]

end DiceHost.Schema
