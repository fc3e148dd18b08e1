import DiceHost.Formula.Expr

/-! # Sheets of formulas

A sheet has numbered fields, and some of them follow a formula over other fields. A field
is computed once every formula that it reads was computed: a queue keeps the fields that
are ready, and counters say how many formulas each field still waits for.
-/
namespace DiceHost.Formula

/-- Numbered fields with the formulas that some of them follow. -/
structure Sheet where
  /-- the field that formulas mean by a name -/
  number? : String → Option Nat
  /-- the formulas by field -/
  formulas : List (Option Expr)

/-- How far the fields of a sheet are computed. -/
structure Progress where
  /-- the known values by field -/
  values : List (Option Float)
  /-- how many formulas each field still waits for -/
  pending : List Nat
  /-- the fields that wait for no formula, the next one first -/
  queue : List Nat
  /-- how many formulas were computed -/
  finished : Nat

/-- The known value of a field. -/
def valueAt (values : List (Option Float)) (i : Nat) : Option Float := values[i]?.join

/-- One formula that a field waits for was computed. -/
def Progress.release (p : Progress) (i : Nat) : Progress :=
  match p.pending[i]? with
  | some (n + 1) =>
    { p with
      pending := p.pending.set i n
      queue := if n = 0 then p.queue ++ [i] else p.queue }
  | _ => p

namespace Sheet

/-- The formula that a field follows. -/
def formula? (s : Sheet) (i : Nat) : Option Expr := s.formulas[i]?.join

/-- The fields that follow a formula, in order. -/
def computed (s : Sheet) : List Nat :=
  (List.range s.formulas.length).filter (fun i => (s.formula? i).isSome)

/-- The computed fields that a formula reads, each once. -/
def reads (s : Sheet) (e : Expr) : List Nat :=
  ((e.references.filterMap s.number?).filter (fun j => (s.formula? j).isSome)).eraseDups

def readsOf (s : Sheet) (i : Nat) : List Nat :=
  match s.formula? i with
  | some e => s.reads e
  | none => []

/-- The computed fields that read a field, in order. -/
def readers (s : Sheet) (j : Nat) : List Nat :=
  s.computed.filter (fun i => (s.readsOf i).contains j)

/-- The value of a formula over the known values; a failing formula counts as zero. -/
def evaluate (s : Sheet) (values : List (Option Float)) (e : Expr) : Float :=
  match e.eval (fun name => (s.number? name).bind (valueAt values)) with
  | .ok x => x
  | .error _ => 0.0

/-- Before the first formula is computed, the fields that read none are ready. -/
def start (s : Sheet) (values : List (Option Float)) : Progress :=
  let pending := (List.range s.formulas.length).map (fun i => (s.readsOf i).length)
  ⟨values, pending, s.computed.filter (fun i => pending[i]? = some 0), 0⟩

/-- Compute the first field of the queue, and tell the fields that read it. -/
def step (s : Sheet) (p : Progress) : Progress :=
  match p.queue with
  | [] => p
  | i :: rest =>
    -- the computed fields that it reads are done by now
    let value := (s.formula? i).map (s.evaluate p.values)
    (s.readers i).foldl Progress.release
      { p with values := p.values.set i value, queue := rest, finished := p.finished + 1 }

def run (s : Sheet) : Nat → Progress → Progress
  | 0, p => p
  | steps + 1, p => s.run steps (s.step p)

/-- The fields whose formula was not computed. -/
def stuck (s : Sheet) (values : List (Option Float)) : List Nat :=
  s.computed.filter (fun i => (valueAt values i).isNone)

/-- Compute every formula over the values of the plain fields, or tell which ones wait for
each other. No field is computed twice. -/
def solve (s : Sheet) (values : List (Option Float)) : Except (List Nat) (List (Option Float)) :=
  let p := s.run s.computed.length (s.start values)
  if p.finished < s.computed.length then .error (s.stuck p.values) else .ok p.values

end Sheet
end DiceHost.Formula
