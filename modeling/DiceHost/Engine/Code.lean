/-! # Compiled chunks

The expressions and statements of a script after its names have been resolved. A local
variable is a position in the list of visible variables, innermost first; every other name
is a global. Whatever may fail carries the line that an error message names.
-/
namespace DiceHost.Engine

/-- A text of a script: any bytes. -/
abbrev Bytes := ByteArray

instance : DecidableEq Bytes := ByteArray.decEq

inductive UnaryOp where
  | negate | not | length | complement
deriving DecidableEq, Repr, Inhabited

inductive ArithmeticOp where
  | add | sub | mul | div | floorDiv | modulo | power
  | band | bor | bxor | shiftLeft | shiftRight
deriving DecidableEq, Repr, Inhabited, Hashable

inductive CompareOp where
  | less | lessEqual | greater | greaterEqual
deriving DecidableEq, Repr, Inhabited

mutual
inductive Expr where
  | nil
  | boolean (b : Bool)
  | int (n : Int64)
  | float (x : Float)
  | str (s : Bytes)
  /-- the arguments beyond the parameters -/
  | rest
  /-- a local variable of this function, or one of an enclosing function -/
  | slot (place : Nat) (name : String) (captured : Bool)
  | global (name : Bytes)
  | index (object key : Expr) (line : Nat)
  | call (callee : Expr) (args : List Expr) (line : Nat)
  /-- a call with the object as first argument; the look-up and the call have their lines -/
  | invoke (object : Expr) (name : Bytes) (args : List Expr) (lookupLine line : Nat)
  | function (params : Nat) (variadic : Bool) (body : List Stat)
  | table (items : List Item) (line : Nat)
  | unary (op : UnaryOp) (operand : Expr) (line : Nat)
  | arithmetic (op : ArithmeticOp) (left right : Expr) (line : Nat)
  | compare (op : CompareOp) (left right : Expr) (line : Nat)
  | equal (left right : Expr) (wanted : Bool) (line : Nat)
  /-- a chain of concatenations, joined from the right -/
  | concat (parts : List Expr) (line : Nat)
  | both (left right : Expr)
  | either (left right : Expr)
  /-- parentheses: exactly one value -/
  | group (inner : Expr)

inductive Item where
  | positional (value : Expr)
  | keyed (key value : Expr) (line : Nat)

inductive Stat where
  | expression (e : Expr)
  /-- new local variables, the last one innermost -/
  | locals (count : Nat) (values : List Expr)
  /-- a local function, which sees itself -/
  | localFunction (params : Nat) (variadic : Bool) (body : List Stat)
  | assign (targets : List Expr) (values : List Expr) (line : Nat)
  | block (body : List Stat)
  | cond (test : Expr) (yes no : List Stat)
  | whileLoop (test : Expr) (body : List Stat)
  /-- the body ends with `leaveIf` -/
  | repeatLoop (body : List Stat)
  | leaveIf (test : Expr)
  | countLoop (start limit step : Expr) (body : List Stat) (line : Nat)
  | eachLoop (count : Nat) (sources : List Expr) (body : List Stat) (line : Nat)
  | leave
  | result (values : List Expr)
end

instance : Inhabited Expr := ⟨.nil⟩
instance : Inhabited Stat := ⟨.leave⟩

structure Function where
  params : Nat
  variadic : Bool
  body : List Stat
deriving Inhabited

end DiceHost.Engine
