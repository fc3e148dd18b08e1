import DiceHost.Config
import DiceHost.Context
import DiceHost.Engine.Table

/-! # The state of the engine

A step of the engine looks at a control and at the top of a stack of frames. A frame
says what to do with the values that the current evaluation gives. The heap holds tables
and variables and outlives the calls.
-/
namespace DiceHost.Engine

/-- The variables in sight, innermost first, the extra arguments of the function, the name of
its chunk in messages, and how many functions are active. -/
structure Env where
  slots : List Nat := []
  extra : List Value := []
  chunk : String := ""
  depth : Nat := 0
deriving Inhabited

/-- Where a call stands and what the called function is known as there. -/
structure Site where
  place : Option (String × Nat) := none
  name : Option (String × String) := none
  depth : Nat := 0
deriving Inhabited

/-- What ends an evaluation early. -/
inductive Fault where
  | thrown (v : Value)
  /-- the memory limit does not suffice -/
  | exhausted
deriving Inhabited

/-- A counting loop: the next value, its step, and how often it still runs. -/
inductive Count where
  | int (next step : Int64) (left : Nat)
  | float (next limit step : Float)

/-- A replacement under way. -/
structure Substitution where
  subject : Bytes
  pattern : Bytes
  replacement : Value
  /-- the position after the text that has been dealt with -/
  position : Nat := 0
  /-- the end of the last match -/
  lastEnd : Option Nat := none
  count : Nat := 0
  limit : Nat
  /-- the match whose replacement is being computed -/
  matched : Bytes := .empty
  out : Bytes := .empty
deriving Inhabited

inductive Frame where
  /-- the value of an operand; more are to come -/
  | collect (done : List Value) (rest : List Expr) (env : Env)
  /-- the operands of an expression -/
  | operate (e : Expr) (env : Env) (tail : Bool)
  | object (e : Expr) (env : Env) (tail : Bool)
  | method (object : Value) (e : Expr) (env : Env) (tail : Bool)
  | apply (callee : Value) (site : Site) (tail : Bool)
  | shortCircuit (wanted : Bool) (right : Expr) (env : Env)
  | first
  | truth (negated : Bool)
  | joinRest (pending : List Value) (e : Expr) (env : Env)
  | seq (rest : List Stat) (env : Env)
  | locals (count : Nat) (rest : List Stat) (env : Env)
  | places (targets : List Expr) (values : Nat) (line : Nat) (rest : List Stat) (env : Env)
  | stores (pending : List (Value × Value × Value × Expr)) (line : Nat) (rest : List Stat)
      (env : Env)
  | branch (yes no : List Stat) (env : Env)
  | whileTest (test : Expr) (body : List Stat) (env : Env)
  | whileBody (test : Expr) (body : List Stat) (env : Env)
  | repeatBody (body : List Stat) (env : Env)
  | leaveTest
  | countStart (body : List Stat) (line : Nat) (env : Env)
  | countBody (count : Count) (body : List Stat) (env : Env)
  | eachStart (count : Nat) (body : List Stat) (line : Nat) (env : Env)
  | eachNext (step source : Value) (count : Nat) (body : List Stat) (line : Nat) (env : Env)
  | eachBody (step source control : Value) (count : Nat) (body : List Stat) (line : Nat) (env : Env)
  | result
  | activation (site : Site)
  | protect (site : Site)
  | handler (f : Value) (site : Site)
  | handled
  | substitute (work : Substitution) (site : Site)
  | text (site : Site)

inductive Control where
  | eval (e : Expr) (env : Env) (tail : Bool)
  | operands (done : List Value) (rest : List Expr) (env : Env)
  | exec (body : List Stat) (env : Env)
  | apply (callee : Value) (args : List Value) (site : Site) (tail : Bool)
  | give (values : List Value)
  | raise (fault : Fault)

/-- What the call in progress belongs to. -/
structure Call where
  script : String
  storage : Storage
  rules : Manuals
deriving Inhabited

structure State where
  cells : Array Value := #[]
  tables : Array Table := #[]
  /-- the functions made so far -/
  functions : Nat := 0
  limits : Limits
  /-- the instructions of the current call, when they are limited -/
  counting : Bool := false
  instructions : Nat := 0
  /-- an upper estimate of the memory in use -/
  held : Nat := 0
  /-- the scripts that are loaded -/
  scripts : KeyTable Value := []
  call : Option Call := none
  /-- the lines written to the log, with the script that wrote them, the latest first -/
  logs : List (String × String) := []
deriving Inhabited

structure Next where
  state : State
  control : Control
  stack : List Frame

namespace State

/-- The tables that exist from the start. -/
def globals : Nat := 0
def textMethods : Nat := 1

def table (s : State) (id : Nat) : Table := s.tables[id]?.getD {}

def modifyTable (s : State) (id : Nat) (change : Table → Table) : State :=
  { s with tables := s.tables.modify id change }

def charge (s : State) (bytes : Nat) : State := { s with held := s.held + bytes }

def allocate (s : State) (t : Table) : State × Nat :=
  let id := s.tables.size
  let size := t.size
  ({ s with tables := s.tables.push t, held := s.held + size }, id)

def newCell (s : State) (v : Value) : State × Nat :=
  let id := s.cells.size
  ({ s with cells := s.cells.push v }, id)

def cell (s : State) (id : Nat) : Value := s.cells[id]?.getD .nil

def setCell (s : State) (id : Nat) (v : Value) : State :=
  { s with cells := s.cells.setIfInBounds id v }

/-- New variables onto the ones in sight; missing values are nil. -/
def declare : Nat → List Value → State → List Nat → State × List Nat
  | 0, _, s, slots => (s, slots)
  | n + 1, values, s, slots =>
    let (s, id) := s.newCell (head values)
    declare n values.tail s (id :: slots)

/-- A new text. -/
def chargeText (s : State) (bytes : Bytes) : State := s.charge (bytes.size + 25)

def tick (s : State) : State := { s with instructions := s.instructions + 1 }

def metatable? (s : State) : Value → Option Nat
  | .table id => (s.table id).metatable
  | .str _ => some textMethods
  | _ => none

/-- A metamethod of a value, nil if there is none. -/
def metamethod (s : State) (v : Value) (name : String) : Value :=
  match s.metatable? v with
  | some id => (s.table id).getText name
  | none => .nil

inductive Access where
  | found (v : Value)
  /-- a metamethod decides -/
  | ask (f : Value) (object : Value)
  /-- the value cannot be indexed -/
  | refused (v : Value)
  | endless

/-- Follow the chain of `__index` tables. -/
def index (s : State) : Nat → Value → Value → Access
  | 0, _, _ => .endless
  | fuel + 1, object, key =>
    match object with
    | .table id =>
      match (s.table id).get key with
      | .nil =>
        match s.metamethod object "__index" with
        | .nil => .found .nil
        | .function id code slots chunk => .ask (.function id code slots chunk) object
        | .builtin f => .ask (.builtin f) object
        | other => s.index fuel other key
      | v => .found v
    | _ =>
      match s.metamethod object "__index" with
      | .nil => .refused object
      | .function id code slots chunk => .ask (.function id code slots chunk) object
      | .builtin f => .ask (.builtin f) object
      | other => s.index fuel other key

inductive Storing where
  /-- the value goes into this table -/
  | into (id : Nat)
  | ask (f : Value) (object : Value)
  | refused (v : Value)
  | endless

/-- The memory that one entry of a table takes at most; a store that replaces an entry is
counted as well. -/
def entrySize : Nat := 32

/-- Why a value cannot be a key. -/
def badKey? (key : Value) : Option String :=
  match key with
  | .nil => some "table index is nil"
  | key => if key.key?.isSome then none else some "table index is NaN"

/-- Store without metamethods. -/
def rawSet (s : State) (id : Nat) (key value : Value) : State :=
  (s.modifyTable id (fun t => t.set key value)).charge entrySize

/-- Follow the chain of `__newindex` tables. -/
def storing (s : State) : Nat → Value → Value → Storing
  | 0, _, _ => .endless
  | fuel + 1, object, key =>
    match object with
    | .table id =>
      match (s.table id).get key with
      | .nil =>
        match s.metamethod object "__newindex" with
        | .nil => .into id
        | .function id code slots chunk => .ask (.function id code slots chunk) object
        | .builtin f => .ask (.builtin f) object
        | other => s.storing fuel other key
      | _ => .into id
    | _ =>
      match s.metamethod object "__newindex" with
      | .nil => .refused object
      | .function id code slots chunk => .ask (.function id code slots chunk) object
      | .builtin f => .ask (.builtin f) object
      | other => s.storing fuel other key

/-- The longest chain of metatables that is followed. -/
def chainLimit : Nat := 2000

end State
end DiceHost.Engine
