import DiceHost.Engine.Exchange
import DiceHost.Engine.Pattern

/-! # Built-in functions

The functions that compute their result from their arguments and the heap. A complaint is
turned into an error by the caller, which knows where the call stands.
-/
namespace DiceHost.Engine
open DiceHost.Text

/-- Why a built-in function has no result. -/
inductive Complaint where
  /-- an argument is unsuitable -/
  | argument (place : Nat) (text : String)
  | error (text : String)
  /-- a value is raised as it is -/
  | raise (v : Value)
  | exhausted

abbrev Check := Except Complaint


/-- The name of a function when the place of the call does not give one. -/
def Builtin.name : Builtin → String
  | .print => "print" | .warn => "warn" | .type => "type" | .tostring => "tostring"
  | .tonumber => "tonumber" | .ipairs => "ipairs" | .ipairsNext => "?" | .pairs => "pairs"
  | .next => "next" | .rawget => "rawget" | .rawset => "rawset" | .rawequal => "rawequal"
  | .rawlen => "rawlen" | .setmetatable => "setmetatable" | .getmetatable => "getmetatable"
  | .assert => "assert" | .error => "error" | .pcall => "pcall" | .xpcall => "xpcall"
  | .select => "select"
  | .stringLen => "string.len" | .stringSub => "string.sub" | .stringUpper => "string.upper"
  | .stringLower => "string.lower" | .stringRep => "string.rep"
  | .stringReverse => "string.reverse" | .stringByte => "string.byte"
  | .stringChar => "string.char" | .stringFind => "string.find"
  | .stringMatch => "string.match" | .stringGsub => "string.gsub"
  | .tableConcat => "table.concat" | .tableInsert => "table.insert"
  | .tableRemove => "table.remove" | .tablePack => "table.pack" | .tableUnpack => "table.unpack"
  | .mathFloor => "math.floor" | .mathCeil => "math.ceil" | .mathAbs => "math.abs"
  | .mathMax => "math.max" | .mathMin => "math.min" | .mathSqrt => "math.sqrt"
  | .mathFmod => "math.fmod" | .mathToInteger => "math.tointeger" | .mathType => "math.type"
  | _ => "?"

namespace Library

/-! ## Arguments -/

def arg? (args : List Value) (i : Nat) : Option Value := args[i - 1]?

/-- The type of an argument that may be missing. -/
def kindOf (v : Option Value) : String := (v.map Value.typeName).getD "no value"

def unsuitable {α : Type} (args : List Value) (i : Nat) (wanted : String) : Check α :=
  .error (.argument i (wanted ++ " expected, got " ++ kindOf (arg? args i)))

def anyArg (args : List Value) (i : Nat) : Check Value :=
  match arg? args i with
  | some v => .ok v
  | none => .error (.argument i "value expected")

def textArg (args : List Value) (i : Nat) : Check Bytes :=
  match (arg? args i).bind Value.coerceBytes? with
  | some b => .ok b
  | none => unsuitable args i "string"

def numberArg (args : List Value) (i : Nat) : Check Number :=
  match (arg? args i).bind Value.coerceNumber? with
  | some n => .ok n
  | none => unsuitable args i "number"

def intArg (args : List Value) (i : Nat) : Check Int := do
  match (← numberArg args i).toInt64? with
  | some n => return n.toInt
  | none => .error (.argument i "number has no integer representation")

def isMissing (args : List Value) (i : Nat) : Bool :=
  match arg? args i with
  | none | some .nil => true
  | _ => false

def intArgOr (args : List Value) (i : Nat) (default : Int) : Check Int :=
  if isMissing args i then .ok default else intArg args i

def tableArg (args : List Value) (i : Nat) : Check Nat :=
  match arg? args i with
  | some (.table id) => .ok id
  | _ => unsuitable args i "table"

/-- A text argument of the host's own functions. -/
def hostArg (args : List Value) (i : Nat) : Check String :=
  match hostText ((arg? args i).getD .nil) with
  | .ok t => .ok t
  | .error m => .error (.raise (.failure ("bad argument #" ++ toString i ++ ": " ++ m)))

/-! ## Text functions -/

/-- A position from the start, or from the end when it is negative. -/
def fromStart (n : Int) (size : Nat) : Int :=
  if 0 ≤ n then n else if n + size < 0 then 0 else n + size + 1

def span (size : Nat) (i j : Int) : Nat × Nat :=
  let first := max (fromStart i size) 1
  let last := min (fromStart j size) size
  if first ≤ last then (first.toNat - 1, last.toNat) else (0, 0)

def mapBytes (change : UInt8 → UInt8) (b : Bytes) : Bytes := ⟨b.data.map change⟩

/-- A text repeated with a separator. -/
def repeatBytes (s separator : Bytes) : Nat → Bytes → Bytes
  | 0, out => out
  | 1, out => out ++ s
  | n + 1, out => repeatBytes s separator n (out ++ s ++ separator)

def stringRep (s : State) (args : List Value) : Check (State × List Value) := do
  let text ← textArg args 1
  let count ← intArg args 2
  let separator ← if isMissing args 3 then pure ByteArray.empty else textArg args 3
  if count ≤ 0 then return (s, [.str .empty])
  let n := count.toNat
  let total := text.size * n + separator.size * (n - 1)
  if Nat.pow 2 62 ≤ total then .error (.error "resulting string too large")
  else if s.limits.memory != 0 && s.limits.memory < total then .error .exhausted
  else
    let out := repeatBytes text separator n (ByteArray.emptyWithCapacity total)
    return (s.chargeText out, [.str out])

/-- A search with or without a pattern; `full` gives the positions as well. -/
def stringSearch (s : State) (args : List Value) (full : Bool) : Check (State × List Value) := do
  let subject ← textArg args 1
  let pattern ← textArg args 2
  let init := fromStart (← intArgOr args 3 1) subject.size
  let start := (max init 1).toNat - 1
  if subject.size < start then return (s, [.nil])
  let plain := full && ((arg? args 4).map Value.truthy).getD false
  let r : Pattern.Request := ⟨subject, pattern⟩
  let found : Option (Nat × Pattern.Found) ←
    if plain then
      pure (((List.range (subject.size + 1)).find? fun i =>
        start ≤ i && Pattern.slice subject i (i + pattern.size) == pattern).map
          (fun i => (i, (i + pattern.size, #[]))))
    else
      match r.search (subject.size + 1) start with
      | .ok f => pure f
      | .error m => .error (.error m)
  match found with
  | none => return (s, [.nil])
  | some (at_, f) =>
    if full then
      let positions : List Value := [.int (Int64.ofNat (at_ + 1)), .int (Int64.ofNat f.1)]
      let captures := if f.2.isEmpty then [] else Pattern.captured subject at_ f
      return (s, positions ++ captures)
    else return (s, Pattern.captured subject at_ f)

/-! ## Table functions -/

/-- The texts of the items between two positions. -/
def concatItems (t : Table) (separator : Bytes) (last : Int) : Nat → Int → Bytes → Check Bytes
  | 0, _, out => .ok out
  | fuel + 1, i, out =>
    if last < i then .ok out
    else
      match t.get (.int (Int64.ofInt i)) with
      | .str b => concatItems t separator last fuel (i + 1) (more b i out)
      | .int n =>
          concatItems t separator last fuel (i + 1) (more (Number.text (.int n)).toUTF8 i out)
      | .float x =>
          concatItems t separator last fuel (i + 1) (more (Number.text (.float x)).toUTF8 i out)
      | _ => .error (.error ("invalid value (at index " ++ toString i ++ ") in table for 'concat'"))
where
  more (b : Bytes) (i : Int) (out : Bytes) : Bytes :=
    if i < last then out ++ b ++ separator else out ++ b

def tableConcat (s : State) (args : List Value) : Check (State × List Value) := do
  let t := s.table (← tableArg args 1)
  let separator ← if isMissing args 2 then pure ByteArray.empty else textArg args 2
  let first ← intArgOr args 3 1
  let last ← intArgOr args 4 t.length
  let out ← concatItems t separator last ((last - first + 1).toNat + 1) first .empty
  return (s.chargeText out, [.str out])

/-- Move the items from `low` to `high - 1` up by one, from the top. -/
def shiftUp (t : Table) (low : Nat) : Nat → Table
  | 0 => t
  | n + 1 =>
    let i := low + n
    shiftUp (t.set (.int (Int64.ofNat (i + 1))) (t.get (.int (Int64.ofNat i)))) low n

def tableInsert (s : State) (args : List Value) : Check (State × List Value) := do
  let id ← tableArg args 1
  let t := s.table id
  let size := t.length
  match args with
  | [_, v] =>
    return (s.modifyTable id (fun t => t.set (.int (Int64.ofNat (size + 1))) v) |>.charge 16, [])
  | [_, _, v] =>
    let place ← intArg args 2
    if place < 1 ∨ (size : Int) + 1 < place then
      .error (.argument 2 "position out of bounds")
    else
      let t := shiftUp t place.toNat (size + 1 - place.toNat)
      return (s.modifyTable id (fun _ => t.set (.int (Int64.ofInt place)) v) |>.charge 16, [])
  | _ => .error (.error "wrong number of arguments to 'insert'")

/-- Move the items from `low + 1` on down by one, from the bottom. -/
def shiftDown (t : Table) : Nat → Nat → Table
  | _, 0 => t
  | low, n + 1 =>
    shiftDown (t.set (.int (Int64.ofNat low)) (t.get (.int (Int64.ofNat (low + 1))))) (low + 1) n

def tableRemove (s : State) (args : List Value) : Check (State × List Value) := do
  let id ← tableArg args 1
  let t := s.table id
  let size := t.length
  let place ← intArgOr args 2 size
  if args.length ≥ 2 && !(place == (size : Int) || (1 ≤ place && place ≤ (size : Int) + 1)) then
    .error (.argument 2 "position out of bounds")
  else
    let v := t.get (.int (Int64.ofInt place))
    let t := if 1 ≤ place ∧ place < size then shiftDown t place.toNat (size - place.toNat) else t
    let last : Int := if 1 ≤ place ∧ place ≤ size then size else place
    return (s.modifyTable id (fun _ => t.set (.int (Int64.ofInt last)) .nil), [v])

/-- A table of values, with a text key for their number. -/
def packed (values : List Value) : Table :=
  ({ items := values.toArray : Table }).setText "n" (.int (Int64.ofNat values.length))

def tableUnpack (s : State) (args : List Value) : Check (State × List Value) := do
  let t := s.table (← tableArg args 1)
  let first ← intArgOr args 2 1
  let last ← intArgOr args 3 t.length
  if 1000000 ≤ last - first then .error (.error "too many results to unpack")
  else
    return (s, (List.range (last - first + 1).toNat).map
      (fun (i : Nat) => t.get (.int (Int64.ofInt (first + i)))))

/-! ## Numbers -/

/-- A double as an integer where that is possible. -/
def whole (x : Float) : Value :=
  match (Number.float x).toInt64? with
  | some n => .int n
  | none => .float x

def rounded (s : State) (args : List Value) (round : Float → Float) :
    Check (State × List Value) := do
  match ← numberArg args 1 with
  | .int n => return (s, [.int n])
  | .float x => return (s, [whole (round x)])

/-- The number that wins against all others. -/
def extreme (args : List Value) (op : CompareOp) : Nat → Nat → Number → Check Number
  | 0, _, best => .ok best
  | n + 1, i, best => do
    let x ← numberArg args i
    extreme args op n (i + 1) (if Number.holds op x best then x else best)

def tonumber (s : State) (args : List Value) : Check (State × List Value) := do
  let answer (n : Option Number) : State × List Value := (s, [(n.map Value.ofNumber).getD .nil])
  if isMissing args 2 then
    return answer (← anyArg args 1).coerceNumber?
  else
    let base ← intArg args 2
    match arg? args 1 with
    | some (.str b) =>
      if base < 2 ∨ 36 < base then .error (.argument 2 "base out of range")
      else return answer ((decode? b.toList).bind (Number.ofCharsInBase? base.toNat))
    | _ => unsuitable args 1 "string"

/-- The number that arithmetic on text works with. -/
def arithmeticOnText (s : State) (op : ArithmeticOp) (args : List Value) :
    Check (State × List Value) :=
  match (arg? args 1).bind Value.coerceNumber?, (arg? args 2).bind Value.coerceNumber? with
  | some a, some b =>
    match Number.arithmetic op a b with
    | .ok n => .ok (s, [.ofNumber n])
    | .error .divisionByZero => .error (.error "attempt to perform 'n//0'")
    | .error .moduloByZero => .error (.error "attempt to perform 'n%%0'")
    | .error .noInteger => .error (.error "number has no integer representation")
  | _, _ =>
    .error (.error ("attempt to perform arithmetic on a " ++ kindOf (arg? args 1) ++ " value"))

/-! ## Host functions -/

/-- The text of a value in the log. -/
def logText : Value → String
  | .nil => "nil"
  | .bool b => toString b
  | .int n => toString n.toInt
  | .float x => Decimal.plainLayout.write x
  | .str b => Value.textOf b
  | .table _ => "[table]"
  | .function .. | .builtin _ => "[function]"
  | .failure _ => "[unknown]"

def callOf (s : State) : Check Call :=
  match s.call with
  | some c => .ok c
  | none =>
    .error (.raise (.failure "runtime error: dice API is only available during a script call"))

/-- The table that answers a question for a rule. -/
def ruleAnswer (keyword : String) : Option String → Table
  | some text => (({} : Table).setText "success" (.bool true)).setText "content" (.ofString text)
  | none => (({} : Table).setText "success" (.bool false)).setText "error"
      (.ofString ("rule not found: " ++ keyword))

def queryRule (s : State) (args : List Value) : Check (State × List Value) := do
  let keyword ← hostArg args 1
  let c ← callOf s
  let (s, id) := s.allocate (ruleAnswer keyword (c.rules.find? keyword))
  return (s, [.table id])

def readData (s : State) (scope : DataScope) (args : List Value) : Check (State × List Value) := do
  let id ← hostArg args 1
  let key ← hostArg args 2
  let c ← callOf s
  match c.storage.get scope id key with
  | some v =>
    let (s, x) := ofJson s v
    return (s, [x])
  | none => return (s, [.nil])

def writeData (s : State) (scope : DataScope) (args : List Value) : Check (State × List Value) := do
  let id ← hostArg args 1
  let key ← hostArg args 2
  match s.toJson ((arg? args 3).getD .nil) with
  | .error m => .error (.raise (.failure m))
  | .ok value =>
    let c ← callOf s
    return ({ s with call := some { c with storage := c.storage.set scope id key value } }, [])

/-- The attribute an alias of a card stands for, read without metamethods. -/
def aliased (s : State) (aliases : Aliases) (args : List Value) : Check (State × List Value) :=
  match args with
  | .table id :: .str key :: _ =>
    .ok (s, [match KeyTable.find? aliases (Value.textOf key) with
      | some display => (s.table id).getText display
      | none => .nil])
  | .table _ :: _ => .ok (s, [.nil])
  | _ => .error (.raise (.failure ("bad argument #1: error converting Lua " ++
      hostType (head args) ++ " to table")))

/-! ## Dispatch -/

def nextEntry (s : State) (args : List Value) : Check (State × List Value) := do
  let t := s.table (← tableArg args 1)
  match t.next ((arg? args 2).getD .nil) with
  | .error _ => .error (.raise (.ofString "invalid key to 'next'"))
  | .ok none => return (s, [.nil])
  | .ok (some (k, v)) => return (s, [k, v])

def setMetatable (s : State) (args : List Value) : Check (State × List Value) := do
  let id ← tableArg args 1
  let wanted : Option Nat ← match arg? args 2 with
    | some .nil => pure none
    | some (.table m) => pure (some m)
    | _ => unsuitable args 2 "nil or table"
  match s.metamethod (.table id) "__metatable" with
  | .nil => return (s.modifyTable id (fun t => { t with metatable := wanted }), [.table id])
  | _ => .error (.error "cannot change a protected metatable")

def getMetatable (s : State) (args : List Value) : Check (State × List Value) := do
  let v ← anyArg args 1
  match s.metatable? v with
  | none => return (s, [.nil])
  | some m =>
    match s.metamethod v "__metatable" with
    | .nil => return (s, [.table m])
    | shown => return (s, [shown])

def selectArgs (s : State) (args : List Value) : Check (State × List Value) := do
  match args with
  | .str b :: rest =>
    if b == "#".toUTF8 then return (s, [.int (Int64.ofNat rest.length)])
    else pick rest
  | _ => pick args.tail
where
  pick (rest : List Value) : Check (State × List Value) := do
    let n ← intArg args 1
    if n < 0 then
      if rest.length < n.natAbs then .error (.argument 1 "index out of range")
      else return (s, rest.drop (rest.length - n.natAbs))
    else if n = 0 then .error (.argument 1 "index out of range")
    else return (s, rest.drop (n.toNat - 1))

/-- The result of a function that needs nothing but its arguments and the heap. -/
def compute (f : Builtin) (s : State) (args : List Value) : Check (State × List Value) :=
  match f with
  | .type => do return (s, [.ofString (← anyArg args 1).typeName])
  | .tonumber => tonumber s args
  | .ipairs => do return (s, [.builtin .ipairsNext, ← anyArg args 1, .int 0])
  | .next => nextEntry s args
  | .rawget => do
    let id ← tableArg args 1
    return (s, [(s.table id).get (← anyArg args 2)])
  | .rawset => do
    let id ← tableArg args 1
    let k ← anyArg args 2
    let v ← anyArg args 3
    match State.badKey? k with
    | some m => .error (.raise (.ofString m))
    | none => return (s.rawSet id k v, [.table id])
  | .rawequal => do return (s, [.bool ((← anyArg args 1).same (← anyArg args 2))])
  | .rawlen =>
    match arg? args 1 with
    | some (.table id) => .ok (s, [.int (Int64.ofNat (s.table id).length)])
    | some (.str b) => .ok (s, [.int (Int64.ofNat b.size)])
    | _ => .error (.argument 1 "table or string expected")
  | .setmetatable => setMetatable s args
  | .getmetatable => getMetatable s args
  | .select => selectArgs s args
  | .stringLen => do return (s, [.int (Int64.ofNat (← textArg args 1).size)])
  | .stringSub => do
    let b ← textArg args 1
    let (i, j) := span b.size (← intArg args 2) (← intArgOr args 3 (-1))
    return (s.charge (j - i + 25), [.str (b.extract i j)])
  | .stringUpper => do return (s, [.str (mapBytes Pattern.toUpper (← textArg args 1))])
  | .stringLower => do return (s, [.str (mapBytes Pattern.toLower (← textArg args 1))])
  | .stringReverse => do
    let b ← textArg args 1
    return (s, [.str ⟨b.data.reverse⟩])
  | .stringRep => stringRep s args
  | .stringByte => do
    let b ← textArg args 1
    let first ← intArgOr args 2 1
    let (i, j) := span b.size first (← intArgOr args 3 first)
    return (s, (b.extract i j).toList.map (fun n => .int (Int64.ofNat n.toNat)))
  | .stringChar => do
    let codes ← (List.range args.length).mapM fun i => do
      let n ← intArg args (i + 1)
      if n < 0 ∨ 255 < n then .error (.argument (i + 1) "value out of range")
      else return UInt8.ofNat n.toNat
    return (s, [.str ⟨codes.toArray⟩])
  | .stringFind => stringSearch s args true
  | .stringMatch => stringSearch s args false
  | .tableConcat => tableConcat s args
  | .tableInsert => tableInsert s args
  | .tableRemove => tableRemove s args
  | .tablePack =>
    let (s, id) := s.allocate (packed args)
    .ok (s, [.table id])
  | .tableUnpack => tableUnpack s args
  | .mathFloor => rounded s args Float.floor
  | .mathCeil => rounded s args Float.ceil
  | .mathAbs => do
    match ← numberArg args 1 with
    | .int n => return (s, [.int (if n < 0 then -n else n)])
    | .float x => return (s, [.float x.abs])
  | .mathMax => do
    return (s, [.ofNumber (← extreme args .greater (args.length - 1) 2 (← numberArg args 1))])
  | .mathMin => do
    return (s, [.ofNumber (← extreme args .less (args.length - 1) 2 (← numberArg args 1))])
  | .mathSqrt => do return (s, [.float (← numberArg args 1).toFloat.sqrt])
  | .mathFmod => do
    match ← numberArg args 1, ← numberArg args 2 with
    | .int a, .int b =>
      if b = 0 then .error (.argument 2 "zero")
      else return (s, [.int (Int64.ofInt (a.toInt.tmod b.toInt))])
    | a, b => return (s, [.float (Decimal.remainder a.toFloat b.toFloat)])
  | .mathToInteger => do
    match ← anyArg args 1 with
    | .str _ => return (s, [.nil])
    | v => return (s, [((v.number?.bind Number.toInt64?).map Value.int).getD .nil])
  | .mathType => do
    match ← anyArg args 1 with
    | .int _ => return (s, [.ofString "integer"])
    | .float _ => return (s, [.ofString "float"])
    | _ => return (s, [.nil])
  | .stringArithmetic op => arithmeticOnText s op args
  | .stringNegate =>
    match (arg? args 1).bind Value.coerceNumber? with
    | some n => .ok (s, [.ofNumber n.negate])
    | none =>
      .error (.error ("attempt to perform arithmetic on a " ++ kindOf (arg? args 1) ++ " value"))
  | .log =>
    let script := (s.call.map (·.script)).getD ""
    .ok ({ s with logs := (script, logText (head args)) :: s.logs }, [])
  | .queryRule => queryRule s args
  | .readData scope => readData s scope args
  | .writeData scope => writeData s scope args
  | .loadScript => do
    let wanted ← hostArg args 1
    return (s, [(KeyTable.find? s.scripts wanted).getD .nil])
  | .playerCard cards =>
    match head args with
    | .nil => .ok (s, [.nil])
    | _ => do return (s, [(s.table cards).getText (← hostArg args 1)])
  | .aliased aliases => aliased s aliases args
  | _ => .ok (s, [])

end Library
end DiceHost.Engine
