import DiceHost.Alias
import DiceHost.Storage
import DiceHost.Text.Utf8
import DiceHost.Engine.Number
import Std.Data.HashMap

/-! # Values of scripts

Tables and variables live in a heap and are referred to by number; a function carries the
numbers of the variables it can see. Text is any bytes.
-/
namespace DiceHost.Engine

inductive Builtin where
  | print | warn | type | tostring | tonumber | ipairs | ipairsNext | pairs | next
  | rawget | rawset | rawequal | rawlen | setmetatable | getmetatable
  | assert | error | pcall | xpcall | select
  | stringLen | stringSub | stringUpper | stringLower | stringRep | stringReverse
  | stringByte | stringChar | stringFind | stringMatch | stringGsub
  | tableConcat | tableInsert | tableRemove | tablePack | tableUnpack
  | mathFloor | mathCeil | mathAbs | mathMax | mathMin | mathSqrt | mathFmod
  | mathToInteger | mathType
  /-- arithmetic on text that reads as a number -/
  | stringArithmetic (op : ArithmeticOp)
  | stringNegate
  | log
  | queryRule
  | readData (scope : DataScope)
  | writeData (scope : DataScope)
  | loadScript
  /-- the cards of the other players, in a table -/
  | playerCard (cards : Nat)
  /-- the attribute that an alias of a card stands for -/
  | aliased (aliases : Aliases)
deriving DecidableEq, Hashable, Inhabited

inductive Value where
  | nil
  | bool (b : Bool)
  | int (n : Int64)
  | float (x : Float)
  | str (s : Bytes)
  | table (id : Nat)
  /-- a function with the variables it sees and the name of its chunk in messages -/
  | function (id : Nat) (code : Function) (slots : List Nat) (chunk : String)
  | builtin (f : Builtin)
  /-- a failure of the host, carried like any other error value -/
  | failure (text : String)
deriving Inhabited

/-- What a table can be indexed by: not nil and not not-a-number, and a whole double is an
integer. -/
inductive Key where
  | bool (b : Bool)
  | int (n : Int64)
  | float (bits : UInt64)
  | str (s : Bytes)
  | table (id : Nat)
  | function (id : Nat)
  | builtin (f : Builtin)
  | failure (text : String)
deriving DecidableEq, Hashable

namespace Value

def ofString (s : String) : Value := .str s.toUTF8

def ofNumber : Number → Value
  | .int n => .int n
  | .float x => .float x

/-- The number that a value is. -/
def number? : Value → Option Number
  | .int n => some (.int n)
  | .float x => some (.float x)
  | _ => none

/-- The text of bytes, with a replacement character for what is not text. -/
def textOf (s : Bytes) : String := Text.ofBytesReplacing s.toList

/-- The number that a value is or that its text denotes. -/
def coerceNumber? : Value → Option Number
  | .str s => (Text.decode? s.toList).bind Number.ofChars?
  | v => v.number?

/-- The bytes of a text or of the text of a number. -/
def coerceBytes? : Value → Option Bytes
  | .str s => some s
  | .int n => some (Number.text (.int n)).toUTF8
  | .float x => some (Number.text (.float x)).toUTF8
  | _ => none

/-- Everything but nil and false counts as true. -/
def truthy : Value → Bool
  | .nil => false
  | .bool b => b
  | _ => true

def typeName : Value → String
  | .nil => "nil"
  | .bool _ => "boolean"
  | .int _ | .float _ => "number"
  | .str _ => "string"
  | .table _ => "table"
  | .function .. | .builtin _ => "function"
  | .failure _ => "userdata"

def key? : Value → Option Key
  | .nil => none
  | .bool b => some (.bool b)
  | .int n => some (.int n)
  | .float x =>
    match (Number.float x).toInt64? with
    | some n => some (.int n)
    | none => if Decimal.isNaN x then none else some (.float x.toBits)
  | .str s => some (.str s)
  | .table id => some (.table id)
  | .function id .. => some (.function id)
  | .builtin f => some (.builtin f)
  | .failure t => some (.failure t)

/-- Equality without metamethods. -/
def same : Value → Value → Bool
  | .nil, .nil => true
  | .bool a, .bool b => a == b
  | .str a, .str b => a == b
  | .table a, .table b => a == b
  | .function a .., .function b .. => a == b
  | .builtin a, .builtin b => a == b
  | .failure a, .failure b => a == b
  | a, b =>
    match a.number?, b.number? with
    | some m, some n => m.equal n
    | _, _ => false

end Value

/-- The first of several values. -/
def head (values : List Value) : Value := values.headD .nil

end DiceHost.Engine
