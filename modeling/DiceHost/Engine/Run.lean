import DiceHost.Engine.Parse
import DiceHost.Engine.Step
import DiceHost.Script.Interpreter
import DiceHost.Script.Wrap

/-! # Scripts of the engine

Compiling a script runs its chunk, which must give a function. Running it builds the message
table from the context and calls that function with it.
-/
namespace DiceHost.Engine
open DiceHost.Text DiceHost.Script

/-! ## The library -/

def baseLibrary : List (String × Value) :=
  [("_VERSION", .ofString "Lua 5.4")] ++
  ([.print, .warn, .type, .tostring, .tonumber, .ipairs, .pairs, .next, .rawget, .rawset,
    .rawequal, .rawlen, .setmetatable, .getmetatable, .assert, .error, .pcall, .xpcall,
    .select] : List Builtin).map (fun f => (f.name, .builtin f))

/-- The functions of a part of the library, under the names after the full stop. -/
def part (fs : List Builtin) : List (String × Value) :=
  fs.map (fun f =>
    (((cutFirst (· == '.') f.name.toList).map (fun c => String.ofList c.2)).getD f.name,
    .builtin f))

def textLibrary : List (String × Value) :=
  part [.stringLen, .stringSub, .stringUpper, .stringLower, .stringRep, .stringReverse,
    .stringByte, .stringChar, .stringFind, .stringMatch, .stringGsub]

def tableLibrary : List (String × Value) :=
  part [.tableConcat, .tableInsert, .tableRemove, .tablePack, .tableUnpack]

def mathLibrary : List (String × Value) :=
  part [.mathFloor, .mathCeil, .mathAbs, .mathMax, .mathMin, .mathSqrt, .mathFmod,
    .mathToInteger, .mathType] ++
  [("huge", .float Decimal.infinity), ("pi", .float 3.141592653589793),
    ("maxinteger", .int Int64.maxValue), ("mininteger", .int Int64.minValue)]

def diceLibrary : List (String × Value) :=
  [("log", .builtin .log), ("queryRule", .builtin .queryRule),
    ("getGroupData", .builtin (.readData .group)), ("setGroupData", .builtin (.writeData .group)),
    ("getUserData", .builtin (.readData .user)), ("setUserData", .builtin (.writeData .user))]

def tableOf (entries : List (String × Value)) : Table :=
  entries.foldl (fun t e => t.setText e.1 e.2) {}

def arithmeticMethods : List (String × Value) :=
  ([.add, .sub, .mul, .div, .floorDiv, .modulo, .power] : List ArithmeticOp).map
    (fun op => (eventName op, .builtin (.stringArithmetic op))) ++
  [("__unm", .builtin .stringNegate)]

/-- The memory that an empty engine takes. -/
def startSize : Nat := 24000

/-- An engine without scripts. The tables stand where `State.globals` and
`State.textMethods` say. -/
def State.start (limits : Limits) : State :=
  let libraries : List (String × Nat) :=
    [("_G", 0), ("string", 2), ("table", 3), ("math", 4), ("dice", 5), ("utf8", 6),
      ("coroutine", 7)]
  let globals := tableOf (baseLibrary ++ [("loadLua", .builtin .loadScript)] ++
    libraries.map (fun e => (e.1, .table e.2)))
  let textMethods := tableOf (("__index", .table 2) :: arithmeticMethods)
  { tables := #[globals, textMethods, tableOf textLibrary, tableOf tableLibrary,
      tableOf mathLibrary, tableOf diceLibrary, {}, {}]
    limits := limits
    held := startSize }

/-! ## Names of chunks -/

/-- The name of a chunk in messages. A leading `=` or `@` gives the name as it is; any other
name is quoted up to its first line break. Long names are cut. -/
def chunkName (name : String) : String :=
  let bytes := name.toUTF8.toList
  let dots := (String.toUTF8 "...").toList
  match bytes with
  | 61 :: rest => ofBytesReplacing (if bytes.length ≤ 60 then rest else rest.take 59)
  | 64 :: rest =>
    ofBytesReplacing (if bytes.length ≤ 60 then rest else dots ++ rest.drop (rest.length - 56))
  | _ =>
    let line := bytes.takeWhile (· != 10)
    let shown := if line.length == bytes.length && bytes.length < 45 then bytes
      else line.take 45 ++ dots
    "[string \"" ++ ofBytesReplacing shown ++ "\"]"

/-! ## Faults -/

/-- The text of an error value. -/
def errorText (s : State) (v : Value) : String :=
  match v with
  | .failure t => t
  | v =>
    match textValue s v with
    | .str b => "runtime error: " ++ Value.textOf b
    | _ => "runtime error: "

def faultText (s : State) : Fault → String
  | .exhausted => "memory error: not enough memory"
  | .thrown (.table id) =>
    match s.metamethod (.table id) "__tostring" with
    | .nil => errorText s (.table id)
    | m =>
      match s.callValue m [.table id] with
      | (s, .ok vs) => errorText s (head vs)
      | (s, .error _) => errorText s (.table id)
  | .thrown v => errorText s v

/-! ## Compiling -/

/-- The reason why other dialects are refused. -/
def unsupported (dialect : Dialect) : String :=
  "." ++ dialect.extension ++ " scripts are not supported by the Lua interpreter"

/-- Run the chunk of a script and keep the function it gives. -/
def compile (s : State) (name source : String) (dialect : Dialect) : State × Except Failure Value :=
  let refuse (s : State) (reason : String) : State × Except Failure Value :=
    (s, .error (.scriptLoad name reason))
  if dialect ≠ .lua then refuse s (unsupported dialect)
  else if name.toList.contains '\x00' then refuse s "runtime error: invalid name"
  else
    match Parse.chunk (wrap source) with
    | none => refuse s "syntax error"
    | some body =>
      let (s, main) := makeFunction s ⟨0, true, body⟩ [] (chunkName name)
      let (s, outcome) := { s with call := none, counting := false }.callValue main []
      match outcome with
      | .error fault => refuse s (faultText s fault)
      | .ok vs =>
        match head vs with
        | .function id code slots chunk => (s, .ok (.function id code slots chunk))
        | .builtin f => (s, .ok (.builtin f))
        | _ => refuse s "script did not evaluate to a function"

/-! ## The message -/

/-- Attach a metatable by way of the global function for it. -/
def attach (s : State) (id metatable : Nat) : Except Fault State :=
  match (s.table State.globals).getText "setmetatable" with
  | .builtin .setmetatable =>
    .ok (s.modifyTable id (fun t => { t with metatable := some metatable }))
  | .function fid code slots chunk =>
    match s.callValue (.function fid code slots chunk) [.table id, .table metatable] with
    | (s, .ok _) => .ok s
    | (_, .error fault) => .error fault
  | .builtin f =>
    match s.callValue (.builtin f) [.table id, .table metatable] with
    | (s, .ok _) => .ok s
    | (_, .error fault) => .error fault
  | v => .error (.thrown (.failure ("error converting Lua " ++ hostType v ++ " to function")))

/-- A card as a table; what it lacks is looked up under the attribute an alias stands for. -/
def cardTable (s : State) (aliases : AliasTable) (card : Fields) : Except Fault (State × Nat) :=
  let (s, t) := ofFields s {} card
  let (s, id) := s.allocate t
  match aliases.ofCard card with
  | none => .ok (s, id)
  | some map =>
    let (s, m) := s.allocate (({} : Table).setText "__index" (.builtin (.aliased map)))
    (attach s id m).map (fun s => (s, id))

def cardTables (s : State) (aliases : AliasTable) :
    KeyTable Fields → Table → Except Fault (State × Table)
  | [], t => .ok (s, t)
  | (user, card) :: rest, t =>
    match cardTable s aliases card with
    | .error fault => .error fault
    | .ok (s, id) => cardTables s aliases rest (t.setText user (.table id))

def message (s : State) (c : Context) : Except Fault (State × Nat) := do
  let text (name : String) (value : Option String) (t : Table) : Table :=
    match value with
    | some v => t.setText name (.ofString v)
    | none => t
  let t := text "suffix" (some c.tail) {} |> text "uid" (some c.user) |> text "gid" (some c.group)
  let t := t.setText "private" (.bool c.isPrivate) |> text "platform" (some c.platform)
  let t := text "username" c.username t
  let (s, t) ← match c.character with
    | some card =>
      (cardTable s c.aliases card).map (fun (s, id) => (s, t.setText "char" (.table id)))
    | none => .ok (s, t)
  let t := text "card" c.cardText t
  let (s, game) := ofJson s (.obj (c.game.getD []))
  let manuals := c.rules.map (fun m => (m.1, Json.obj (m.2.map (fun e => (e.1, .str e.2)))))
  let (s, rules) := ofJson s (.obj manuals)
  let (s, cards) ← cardTables s c.aliases c.teammates {}
  let (s, mates) := s.allocate cards
  let t := ((t.setText "game" game).setText "pluginRules" rules).setText "getPlayerCard"
    (.builtin (.playerCard mates))
  return s.allocate t

/-! ## Running -/

def resultText : Value → String
  | .nil => ""
  | .str b => Value.textOf b
  | .int n => toString n.toInt
  | .float x => Decimal.plainLayout.write x
  | .bool b => toString b
  | _ => "[unsupported return type]"

/-- Call a script in a context. What it wrote is in the storage that comes back, also when it
failed. -/
def call (s : State) (name : String) (script : Value) (c : Context) :
    State × Storage × Except Failure String :=
  let fault (s : State) (f : Fault) : Except Failure String := .error (.interpreter (faultText s f))
  match message { s with call := none, counting := false } c with
  | .error f => (s, c.storage, fault s f)
  | .ok (s, msg) =>
    let s := { s with
      call := some ⟨name, c.storage, c.rules⟩
      counting := s.limits.instructions != 0
      instructions := 0 }
    let (s, outcome) := s.callValue script [.table msg]
    let storage := (s.call.map (·.storage)).getD c.storage
    let s := { s with call := none, counting := false }
    match outcome with
    | .ok vs => (s, storage, .ok (resultText (head vs)))
    | .error f => (s, storage, fault s f)

/-! ## The engine as an interpreter -/

def language : Interpreter where
  State := State
  Code := Value
  compile s loaded name source dialect := compile { s with scripts := loaded } name source dialect
  run s loaded name code context := call { s with scripts := loaded } name code context

def start (limits : Limits) : Scripts language := ⟨State.start limits, []⟩

end DiceHost.Engine
