import DiceHost.Engine.State

/-! # Memory in use

Allocations are added up. When the sum passes the limit, it is replaced by what can still be
reached from the frames, the globals and the loaded scripts; only if that is too much is the
memory exhausted.
-/
namespace DiceHost.Engine

/-- An object of the heap. -/
inductive Object where
  | table (id : Nat)
  | cell (id : Nat)

/-- A walk over the heap: what has been reached, what has to be looked at, and the sum. -/
structure Walk where
  tables : Array Bool
  cells : Array Bool
  pending : List Object := []
  bytes : Nat := 0

namespace Walk

def reachTable (w : Walk) (id : Nat) : Walk :=
  if w.tables[id]?.getD true then w
  else { w with tables := w.tables.setIfInBounds id true, pending := .table id :: w.pending }

def reachCell (w : Walk) (id : Nat) : Walk :=
  if w.cells[id]?.getD true then w
  else { w with cells := w.cells.setIfInBounds id true, pending := .cell id :: w.pending }

def value (w : Walk) : Value → Walk
  | .str s => { w with bytes := w.bytes + s.size + 25 }
  | .table id => w.reachTable id
  | .function _ _ slots _ =>
    slots.foldl reachCell { w with bytes := w.bytes + 40 + 8 * slots.length }
  | .builtin (.playerCard cards) => w.reachTable cards
  | _ => w

def values (w : Walk) (vs : List Value) : Walk := vs.foldl value w

def env (w : Walk) (e : Env) : Walk := (e.slots.foldl reachCell w).values e.extra

/-- Look at one object. -/
def object (s : State) (w : Walk) : Object → Walk
  | .cell id => w.value (s.cell id)
  | .table id =>
    let t := s.table id
    let w := t.items.foldl value { w with bytes := w.bytes + t.size }
    let w := t.fields.fold (fun w _ v => w.value v) (w.values t.order.toList)
    match t.metatable with
    | some m => w.reachTable m
    | none => w

def finish (s : State) : Nat → Walk → Walk
  | 0, w => w
  | fuel + 1, w =>
    match w.pending with
    | [] => w
    | o :: rest => finish s fuel (object s { w with pending := rest } o)

end Walk

/-- The values and the surroundings that a frame holds. -/
def Frame.holds : Frame → List Value × List Env
  | .collect done _ env => (done, [env])
  | .operate _ env _ => ([], [env])
  | .object _ env _ => ([], [env])
  | .method o _ env _ => ([o], [env])
  | .apply f _ _ => ([f], [])
  | .shortCircuit _ _ env => ([], [env])
  | .first | .truth _ | .leaveTest | .result | .activation _ | .protect _ | .handled | .text _ =>
    ([], [])
  | .joinRest pending _ env => (pending, [env])
  | .seq _ env => ([], [env])
  | .locals _ _ env => ([], [env])
  | .places _ _ _ _ env => ([], [env])
  | .stores pending _ _ env => (pending.flatMap (fun (o, k, v, _) => [o, k, v]), [env])
  | .branch _ _ env => ([], [env])
  | .whileTest _ _ env => ([], [env])
  | .whileBody _ _ env => ([], [env])
  | .repeatBody _ env => ([], [env])
  | .countStart _ _ env => ([], [env])
  | .countBody _ _ env => ([], [env])
  | .eachStart _ _ _ env => ([], [env])
  | .eachNext f source _ _ _ env => ([f, source], [env])
  | .eachBody f source control _ _ _ env => ([f, source, control], [env])
  | .handler f _ => ([f], [])
  | .substitute work _ =>
    ([.str work.subject, .str work.pattern, work.replacement, .str work.matched, .str work.out], [])

/-- The values and the surroundings that a control holds. -/
def Control.holds : Control → List Value × List Env
  | .eval _ env _ => ([], [env])
  | .operands done _ env => (done, [env])
  | .exec _ env => ([], [env])
  | .apply f args _ _ => (f :: args, [])
  | .give vs => (vs, [])
  | .raise (.thrown v) => ([v], [])
  | .raise .exhausted => ([], [])

def frameSize : Nat := 64

/-- The memory that is still needed. -/
def Next.live (n : Next) : Nat :=
  let s := n.state
  let start : Walk :=
    { tables := Array.replicate s.tables.size false, cells := Array.replicate s.cells.size false }
  let note (w : Walk) (part : List Value × List Env) : Walk :=
    part.2.foldl Walk.env (w.values part.1)
  let w := n.stack.foldl (fun w f => note w f.holds) (note start n.control.holds)
  let w := (w.values (KeyTable.values s.scripts)).reachTable State.globals
  let w := w.reachTable State.textMethods
  (w.finish s (s.tables.size + s.cells.size + 1)).bytes + frameSize * n.stack.length

end DiceHost.Engine
