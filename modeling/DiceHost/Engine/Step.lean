import DiceHost.Engine.Library
import DiceHost.Engine.Live

/-! # One step of the engine

`step` looks at the control and at the topmost frame. It is not recursive: whatever takes
more than one step leaves a frame behind.
-/
namespace DiceHost.Engine
open DiceHost.Text

/-! ## Errors -/

/-- Where a message says it comes from. -/
def positionText : Option (String × Nat) → String
  | some (chunk, line) => chunk ++ ":" ++ toString line ++ ": "
  | none => ""

def throwText (s : State) (text : String) (k : List Frame) : Next :=
  ⟨s.charge text.length, .raise (.thrown (.ofString text)), k⟩

/-- Raise an error at a line of a chunk. -/
def throwAt (s : State) (env : Env) (line : Nat) (text : String) (k : List Frame) : Next :=
  throwText s (positionText (some (env.chunk, line)) ++ text) k

/-- Raise an error at the place of a call. -/
def throwFrom (s : State) (site : Site) (text : String) (k : List Frame) : Next :=
  throwText s (positionText site.place ++ text) k

/-- What an operand is called: its kind and its name. -/
def Expr.label : Expr → Option (String × String)
  | .slot _ name captured => some (if captured then "upvalue" else "local", name)
  | .global name => some ("global", Value.textOf name)
  | .index _ (.str key) _ => some ("field", Value.textOf key)
  | .index _ (.int n) _ =>
    some ("field", if 0 ≤ n.toInt ∧ n.toInt ≤ 255 then "integer index" else "?")
  | .index .. => some ("field", "?")
  | .invoke _ name _ _ _ => some ("method", Value.textOf name)
  | .str s => some ("constant", Value.textOf s)
  | .group (.call ..) => none
  | .group (.invoke ..) => none
  | .group e => e.label
  | _ => none

def labelText : Option (String × String) → String
  | some (kind, name) => " (" ++ kind ++ " '" ++ name ++ "')"
  | none => ""

/-- The label of an expression as an operand; what a call gives has no label. -/
def Expr.operandLabel : Expr → Option (String × String)
  | .invoke .. => none
  | e => e.label

/-- The type of a value, by the name its metatable gives it. -/
def typeNameOf (s : State) (v : Value) : String :=
  match v with
  | .table _ =>
    match s.metamethod v "__name" with
    | .str b => Value.textOf b
    | _ => v.typeName
  | _ => v.typeName

/-- The message about a value that an operation does not fit. -/
def typeProblem (s : State) (action : String) (v : Value) (label : Option (String × String)) :
    String :=
  "attempt to " ++ action ++ " a " ++ typeNameOf s v ++ " value" ++ labelText label

/-- The message about an argument. -/
def argumentText (f : Builtin) (site : Site) (i : Nat) (text : String) : String :=
  match site.name with
  | some ("method", n) =>
    if i ≤ 1 then "calling '" ++ n ++ "' on bad self (" ++ text ++ ")"
    else "bad argument #" ++ toString (i - 1) ++ " to '" ++ n ++ "' (" ++ text ++ ")"
  | some (_, n) => "bad argument #" ++ toString i ++ " to '" ++ n ++ "' (" ++ text ++ ")"
  | none => "bad argument #" ++ toString i ++ " to '" ++ f.name ++ "' (" ++ text ++ ")"

def complain (s : State) (f : Builtin) (site : Site) (k : List Frame) : Complaint → Next
  | .argument i text => throwFrom s site (argumentText f site i text) k
  | .error text => throwFrom s site text k
  | .raise v => ⟨s, .raise (.thrown v), k⟩
  | .exhausted => ⟨s, .raise .exhausted, k⟩

/-! ## The stack -/

/-- The place of the call of an active function. -/
def Frame.site? : Frame → Option Site
  | .activation site | .protect site | .handler _ site | .substitute _ site | .text site =>
    some site
  | _ => none

/-- The place that error level `level` refers to, seen from a call at `site`. -/
def levelPlace (site : Site) (level : Nat) (k : List Frame) : Option (String × Nat) :=
  if level ≤ 1 then site.place
  else ((k.filterMap Frame.site?)[level - 2]?).bind (·.place)

/-- Leave the active function: the frames below it. -/
def leaveFunction : List Frame → List Frame
  | [] => []
  | .activation _ :: k => k
  | _ :: k => leaveFunction k

/-- Leave the innermost loop. -/
def leaveLoop : List Frame → List Frame
  | [] => []
  | .whileBody .. :: k | .repeatBody .. :: k | .countBody .. :: k | .eachBody .. :: k => k
  | _ :: k => leaveLoop k

/-- What a tail call leaves on the stack, and the place it inherits. -/
def replaceFunction : List Frame → Option (Site × List Frame)
  | [] => none
  | .activation site :: k => some (site, k)
  | _ :: k => replaceFunction k

/-- How many functions may be active. -/
def depthLimit : Nat := 195000

/-! ## Calls -/

/-- Enter a function of the script language. -/
def enter (s : State) (f : Function) (slots : List Nat) (chunk : String) (args : List Value)
    (site : Site) (tail : Bool) (k : List Frame) : Next :=
  let (site, k) := if tail then (replaceFunction k).getD (site, k) else (site, k)
  if depthLimit ≤ site.depth then throwFrom s site "stack overflow" k
  else
    let (s, slots) := s.declare f.params args slots
    let extra := if f.variadic then args.drop f.params else []
    ⟨s.charge frameSize, .exec f.body ⟨slots, extra, chunk, site.depth + 1⟩, .activation site :: k⟩

/-- A call made by a built-in function or by an operator. -/
def inner (site : Site) : Site := { depth := site.depth + 1 }

/-! ### Replacements in text -/

/-- The text that a replacement text stands for. -/
def expandReplacement (subject : Bytes) (start : Nat) (found : Pattern.Found) :
    List UInt8 → Bytes → Except String Bytes
  | [], out => .ok out
  | [37], _ => .error "invalid use of '%' in replacement string"
  | 37 :: c :: rest, out =>
    if c == 37 then expandReplacement subject start found rest (out.push 37)
    else if c == 48 then
      expandReplacement subject start found rest (out ++ Pattern.slice subject start found.1)
    else if Pattern.isDigit c then
      let i := c.toNat - 49
      match (Pattern.captured subject start found)[i]? with
      | some v =>
        expandReplacement subject start found rest (out ++ (v.coerceBytes?).getD .empty)
      | none =>
        .error ("invalid capture index %" ++ toString (i + 1) ++ " in replacement string")
    else .error "invalid use of '%' in replacement string"
  | c :: rest, out => expandReplacement subject start found rest (out.push c)

/-- What a replacement turned out to be: false and nil keep the matched text. -/
def Substitution.put (work : Substitution) (v : Value) : Except String Substitution :=
  match v with
  | .nil | .bool false => .ok { work with out := work.out ++ work.matched }
  | v =>
    match v.coerceBytes? with
    | some b => .ok { work with out := work.out ++ b }
    | none => .error ("invalid replacement value (a " ++ v.typeName ++ ")")

inductive Substituting where
  | done (work : Substitution)
  | problem (text : String)
  /-- a metamethod or a function gives the replacement -/
  | ask (f : Value) (args : List Value) (work : Substitution)

/-- Replace until the end or until a function has to be asked. -/
def Substitution.advance (s : State) : Nat → Substitution → Substituting
  | 0, work => .done work
  | fuel + 1, work =>
    if work.limit ≤ work.count then .done work
    else
      let r : Pattern.Request := ⟨work.subject, work.pattern⟩
      let here := work.position
      match r.matchFrom here (if r.anchored then 1 else 0) with
      | .error m => .problem m
      | .ok found =>
        -- an empty match right behind the last one does not count
        match found.filter (fun f => some f.1 != work.lastEnd) with
        | some f =>
          let work := { work with
            count := work.count + 1
            position := f.1
            lastEnd := some f.1
            matched := Pattern.slice work.subject here f.1 }
          let work := if r.anchored then { work with limit := work.count } else work
          let continue_ (v : Value) : Substituting :=
            match work.put v with
            | .ok work => advance s fuel work
            | .error m => .problem m
          let captures := Pattern.captured work.subject here f
          match work.replacement with
          | .str text =>
            match expandReplacement work.subject here f text.toList work.out with
            | .ok out => advance s fuel { work with out := out }
            | .error m => .problem m
          | .table id =>
            match s.index State.chainLimit (.table id) (head captures) with
            | .found v => continue_ v
            | .ask f object => .ask f [object, head captures] work
            | _ => .problem "attempt to index a value"
          | f => .ask f captures work
        | none =>
          match r.at? here with
          | some b =>
            let work := { work with position := here + 1, out := work.out.push b }
            if r.anchored then .done work else advance s fuel work
          | none => .done work

/-- The text after all replacements, and their number. -/
def Substitution.finish (work : Substitution) : Bytes :=
  work.out ++ Pattern.slice work.subject work.position work.subject.size

def substitute (s : State) (work : Substitution) (site : Site) (k : List Frame) : Next :=
  match work.advance s (2 * work.subject.size + 4) with
  | .done work =>
    let out := work.finish
    ⟨s.chargeText out, .give [.str out, .int (Int64.ofNat work.count)], k⟩
  | .problem m => throwFrom s site m k
  | .ask f args work => ⟨s, .apply f args (inner site) false, .substitute work site :: k⟩

def startSubstitution (args : List Value) : Check Substitution := do
  let subject ← Library.textArg args 1
  let pattern ← Library.textArg args 2
  let replacement ← match Library.arg? args 3 with
    | some (.int n) => pure (Value.ofString (Number.text (.int n)))
    | some (.float x) => pure (Value.ofString (Number.text (.float x)))
    | some (.str b) => pure (.str b)
    | some (.table id) => pure (.table id)
    | some (.function id code slots chunk) => pure (.function id code slots chunk)
    | some (.builtin f) => pure (.builtin f)
    | _ => Library.unsuitable args 3 "string/function/table"
  let limit ← Library.intArgOr args 4 (subject.size + 1)
  return { subject := subject, pattern := pattern, replacement := replacement,
           limit := limit.toNat }

/-! ### Built-in functions that call others -/

/-- The text of a value, unless its metatable says otherwise. -/
def plainText : Value → String
  | .nil => "nil"
  | .bool b => toString b
  | .int n => Number.text (.int n)
  | .float x => Number.text (.float x)
  | .str b => Value.textOf b
  | .table id => "table: " ++ address id
  | .function id .. => "function: " ++ address id
  | .builtin f => "function: builtin: " ++ f.name
  | .failure t => t
where
  address (id : Nat) : String :=
    let digits := Nat.toDigits 16 (0x5500000000 + 64 * id)
    "0x" ++ String.ofList (List.replicate (14 - digits.length) '0' ++ digits)

/-- The value of `tostring`. -/
def textValue (s : State) (v : Value) : Value :=
  match v with
  | .str b => .str b
  | .table id =>
    match s.metamethod v "__name" with
    | .str b => .ofString (Value.textOf b ++ ": " ++ plainText.address id)
    | _ => .ofString (plainText v)
  | v => .ofString (plainText v)

def callBuiltin (s : State) (f : Builtin) (args : List Value) (site : Site) (k : List Frame) :
    Next :=
  match f with
  | .tostring =>
    match args with
    | [] => complain s f site k (.argument 1 "value expected")
    | v :: _ =>
      match s.metamethod v "__tostring" with
      | .nil =>
        let t := textValue s v
        match t with
        | .str b => ⟨s.chargeText b, .give [t], k⟩
        | _ => ⟨s, .give [t], k⟩
      | m => ⟨s, .apply m [v] (inner site) false, .text site :: k⟩
  | .pairs =>
    match args with
    | [] => complain s f site k (.argument 1 "value expected")
    | v :: _ =>
      match s.metamethod v "__pairs" with
      | .nil => ⟨s, .give [.builtin .next, v, .nil], k⟩
      | m => ⟨s, .apply m [v] (inner site) false, k⟩
  | .ipairsNext =>
    match Library.intArg args 2 with
    | .error c => complain s f site k c
    | .ok n =>
      let i : Value := .int (Int64.ofInt (n + 1))
      match s.index State.chainLimit (head args) i with
      | .found .nil => ⟨s, .give [.nil], k⟩
      | .found v => ⟨s, .give [i, v], k⟩
      | .ask m object =>
        ⟨s, .apply m [object, i] (inner site) false, .first :: .collect [i] [] {} :: k⟩
      | .refused v => throwText s (typeProblem s "index" v none) k
      | .endless => throwText s "'__index' chain too long; possibly a loop" k
  | .assert =>
    match args with
    | [] => complain s f site k (.argument 1 "value expected")
    | v :: rest =>
      if v.truthy then ⟨s, .give args, k⟩
      else
        let message := match rest with
          | [] => Value.ofString "assertion failed!"
          | m :: _ => m
        raiseAt s message 1 site k
  | .error =>
    match Library.intArgOr args 2 1 with
    | .error c => complain s f site k c
    | .ok level => raiseAt s (head args) level site k
  | .pcall =>
    match args with
    | [] => throwText s "not enough arguments to pcall" k
    | g :: rest => ⟨s, .apply g rest (inner site) false, .protect site :: k⟩
  | .xpcall =>
    match args with
    | g :: h :: rest => ⟨s, .apply g rest (inner site) false, .handler h site :: k⟩
    | _ => throwText s "not enough arguments to xpcall" k
  | .stringGsub =>
    match startSubstitution args with
    | .error c => complain s f site k c
    | .ok work => substitute s work site k
  | f =>
    match Library.compute f s args with
    | .ok (s, vs) => ⟨s, .give vs, k⟩
    | .error c => complain s f site k c
where
  /-- Raise a value; a text is preceded by the place that the level refers to. -/
  raiseAt (s : State) (v : Value) (level : Int) (site : Site) (k : List Frame) : Next :=
    match v with
    | .str b =>
      if 0 < level then
        let place := positionText (levelPlace site level.toNat k)
        ⟨s.charge b.size, .raise (.thrown (.str (place.toUTF8 ++ b))), k⟩
      else ⟨s, .raise (.thrown v), k⟩
    | v => ⟨s, .raise (.thrown v), k⟩

def apply (s : State) (callee : Value) (args : List Value) (site : Site) (tail : Bool)
    (k : List Frame) : Next :=
  match callee with
  | .function _ code slots chunk => enter s code slots chunk args site tail k
  | .builtin f => callBuiltin s f args site k
  | v =>
    match s.metamethod v "__call" with
    | .nil => throwFrom s site (typeProblem s "call" v site.name) k
    | m => ⟨s, .apply m (v :: args) { site with name := none } tail, k⟩

/-! ## Operations -/

/-- Exactly `n` of the given values, with nil for those that are missing. -/
def fit : Nat → List Value → List Value
  | 0, _ => []
  | n + 1, vs => head vs :: fit n vs.tail

/-- Read a field, through a metamethod if need be. -/
def readField (s : State) (object key : Value) (label : Option (String × String)) (env : Env)
    (line : Nat) (k : List Frame) : Next :=
  match s.index State.chainLimit object key with
  | .found v => ⟨s, .give [v], k⟩
  | .ask f o => ⟨s, .apply f [o, key] { depth := env.depth } false, .first :: k⟩
  | .refused v =>
    let label := if v.same object then label else none
    throwAt s env line (typeProblem s "index" v label) k
  | .endless => throwAt s env line "'__index' chain too long; possibly a loop" k

/-- The name of the metamethod of an operator. -/
def eventName : ArithmeticOp → String
  | .add => "__add" | .sub => "__sub" | .mul => "__mul" | .div => "__div"
  | .floorDiv => "__idiv" | .modulo => "__mod" | .power => "__pow" | .band => "__band"
  | .bor => "__bor" | .bxor => "__bxor" | .shiftLeft => "__shl" | .shiftRight => "__shr"

/-- The metamethod of the first of two operands that has one. -/
def binaryMethod (s : State) (a b : Value) (event : String) : Value :=
  match s.metamethod a event with
  | .nil => s.metamethod b event
  | m => m

def undefinedText : Number.Undefined → String
  | .divisionByZero => "attempt to perform 'n//0'"
  | .moduloByZero => "attempt to perform 'n%%0'"
  | .noInteger => "number has no integer representation"

def isNumber (v : Value) : Bool := v.number?.isSome

/-- The operands as numbers; bit operations also take texts of numbers. -/
def operandNumber? (op : ArithmeticOp) (v : Value) : Option Number :=
  if Number.isBitwise op then v.coerceNumber? else v.number?

def arithmetic (s : State) (op : ArithmeticOp) (a b : Value) (left right : Expr) (line : Nat)
    (env : Env) (k : List Frame) : Next :=
  match operandNumber? op a, operandNumber? op b with
  | some m, some n =>
    match Number.arithmetic op m n with
    | .ok r => ⟨s, .give [.ofNumber r], k⟩
    | .error u => throwAt s env line (undefinedText u) k
  | _, _ =>
    match binaryMethod s a b (eventName op) with
    | .nil =>
      let action := if Number.isBitwise op then "perform bitwise operation on"
        else "perform arithmetic on"
      let (v, e) := if isNumber a then (b, right) else (a, left)
      throwAt s env line (typeProblem s action v e.operandLabel) k
    | m =>
      ⟨s, .apply m [a, b] { place := some (env.chunk, line), depth := env.depth } false,
        .first :: k⟩

def bytesLess (a b : Bytes) : Bool := a.toList < b.toList

def compareBytes (op : CompareOp) (a b : Bytes) : Bool :=
  match op with
  | .less => bytesLess a b
  | .lessEqual => !bytesLess b a
  | .greater => bytesLess b a
  | .greaterEqual => !bytesLess a b

def compareValues (s : State) (op : CompareOp) (a b : Value) (line : Nat) (env : Env)
    (k : List Frame) : Next :=
  match a.number?, b.number? with
  | some m, some n => ⟨s, .give [.bool (Number.holds op m n)], k⟩
  | _, _ =>
    match a, b with
    | .str x, .str y => ⟨s, .give [.bool (compareBytes op x y)], k⟩
    | _, _ =>
      let (first, second, event) : Value × Value × String := match op with
        | .less => (a, b, "__lt")
        | .lessEqual => (a, b, "__le")
        | .greater => (b, a, "__lt")
        | .greaterEqual => (b, a, "__le")
      match binaryMethod s first second event with
      | .nil =>
        let (t, u) := (typeNameOf s first, typeNameOf s second)
        let what := if t = u then "two " ++ t ++ " values" else t ++ " with " ++ u
        throwAt s env line ("attempt to compare " ++ what) k
      | m => ⟨s, .apply m [first, second] { depth := env.depth } false, .truth false :: k⟩

def equalValues (s : State) (a b : Value) (wanted : Bool) (env : Env) (k : List Frame) : Next :=
  if a.same b then ⟨s, .give [.bool wanted], k⟩
  else
    match a, b with
    | .table _, .table _ =>
      match binaryMethod s a b "__eq" with
      | .nil => ⟨s, .give [.bool !wanted], k⟩
      | m => ⟨s, .apply m [a, b] { depth := env.depth } false, .truth (!wanted) :: k⟩
    | _, _ => ⟨s, .give [.bool !wanted], k⟩

/-- Join from the right what is text; `pending` holds the operands to the left, reversed. -/
def joinTexts : List Value → Bytes → List Value × Bytes
  | [], out => ([], out)
  | v :: rest, out =>
    match v.coerceBytes? with
    | some b => joinTexts rest (b ++ out)
    | none => (v :: rest, out)

/-- Join the operands to the left of a value that has been joined already. -/
def join (s : State) (pending : List Value) (value : Value) (e : Expr) (env : Env)
    (k : List Frame) : Next :=
  let (line, parts) := match e with
    | .concat parts line => (line, parts)
    | _ => (0, [])
  match pending with
  | [] => ⟨s, .give [value], k⟩
  | left :: rest =>
    match value.coerceBytes?, left.coerceBytes? with
    | some b, some a =>
      let (pending, out) := joinTexts rest (a ++ b)
      match pending with
      | [] => ⟨s.chargeText out, .give [.str out], k⟩
      | pending => ⟨s.chargeText out, .give [.str out], .joinRest pending e env :: k⟩
    | _, _ =>
      match binaryMethod s left value "__concat" with
      | .nil =>
        let fresh := pending.length + 1 == parts.length
        let (v, label) : Value × Option (String × String) :=
          if left.coerceBytes?.isSome then
            (value, if fresh then (parts.getLast?.bind Expr.operandLabel) else none)
          else (left, (parts[pending.length - 1]?).bind Expr.operandLabel)
        throwAt s env line (typeProblem s "concatenate" v label) k
      | m =>
        ⟨s, .apply m [left, value] { depth := env.depth } false,
          .first :: .joinRest rest e env :: k⟩

def unaryOperation (s : State) (op : UnaryOp) (v : Value) (operand : Expr) (line : Nat) (env : Env)
    (k : List Frame) : Next :=
  let ask (event action : String) : Next :=
    match s.metamethod v event with
    | .nil => throwAt s env line (typeProblem s action v operand.operandLabel) k
    | m =>
      ⟨s, .apply m [v, v] { place := some (env.chunk, line), depth := env.depth } false,
        .first :: k⟩
  match op with
  | .not => ⟨s, .give [.bool !v.truthy], k⟩
  | .negate =>
    match v.number? with
    | some n => ⟨s, .give [.ofNumber n.negate], k⟩
    | none => ask "__unm" "perform arithmetic on"
  | .complement =>
    match v.coerceNumber? with
    | some n =>
      match n.toInt64? with
      | some i => ⟨s, .give [.int (~~~i)], k⟩
      | none => throwAt s env line "number has no integer representation" k
    | none => ask "__bnot" "perform bitwise operation on"
  | .length =>
    match v with
    | .str b => ⟨s, .give [.int (Int64.ofNat b.size)], k⟩
    | .table id =>
      match s.metamethod v "__len" with
      | .nil => ⟨s, .give [.int (Int64.ofNat (s.table id).length)], k⟩
      | m => ⟨s, .apply m [v] { depth := env.depth } false, .first :: k⟩
    | _ => ask "__len" "get length of"

/-- The table of the evaluated items of a constructor; what follows the items continues the
positional ones. -/
def buildTable : List Item → List Value → Table → Nat → Except String Table
  | [], vs, t, n => .ok (fillFrom t n vs)
  | [.positional _], vs, t, n => .ok (fillFrom t n vs)
  | .positional _ :: rest, vs, t, n => buildTable rest vs.tail (fillFrom t n [head vs]) (n + 1)
  | .keyed _ _ _ :: rest, key :: value :: vs, t, n =>
    match key with
    | .nil => .error "table index is nil"
    | key =>
      if key.key?.isNone then .error "table index is NaN"
      else buildTable rest vs (t.set key value) n
  | .keyed _ _ _ :: rest, _, t, n => buildTable rest [] t n
where
  fillFrom (t : Table) (n : Nat) : List Value → Table
    | [] => t
    | v :: vs =>
      let t := if n = t.items.size then { t with items := t.items.push v }
        else t.set (.int (Int64.ofNat (n + 1))) v
      fillFrom t (n + 1) vs

/-- Literals and variables, which are loaded by one instruction where they stand alone. -/
def isLoad : Expr → Bool
  | .nil | .boolean _ | .int _ | .float _ | .str _ | .slot .. | .global _ => true
  | _ => false

/-- Count the instructions that load the given expressions. -/
def State.loads (s : State) (es : List Expr) : State :=
  { s with instructions := s.instructions + es.countP isLoad }

/-- A function value with the variables in sight. -/
def makeFunction (s : State) (code : Function) (slots : List Nat) (chunk : String) :
    State × Value :=
  ({ s with functions := s.functions + 1, held := s.held + 40 + 8 * slots.length },
    .function s.functions code slots chunk)

/-- An expression that gives exactly one value. -/
def single : Expr → Expr
  | .call f args line => .group (.call f args line)
  | .invoke o n args l line => .group (.invoke o n args l line)
  | .rest => .group .rest
  | e => e

/-- The last of several expressions gives exactly one value. -/
def singleLast : List Expr → List Expr
  | [] => []
  | [e] => [single e]
  | e :: rest => e :: singleLast rest

def itemOperands : List Item → List Expr
  | [] => []
  | [.positional e] => [e]
  | [.keyed k v _] => [k, single v]
  | .positional e :: rest => e :: itemOperands rest
  | .keyed k v _ :: rest => k :: v :: itemOperands rest

/-- The operands of an expression, in the order of their evaluation. -/
def Expr.operands : Expr → List Expr
  | .index object key _ => [object, single key]
  | .call callee [] _ => [single callee]
  | .call callee args _ => callee :: args
  | .unary _ e _ => [single e]
  | .arithmetic _ a b _ => [a, single b]
  | .compare _ a b _ => [a, single b]
  | .equal a b _ _ => [a, single b]
  | .concat parts _ => singleLast parts
  | .table items _ => itemOperands items
  | _ => []

/-- What an expression gives once its operands are known. -/
def operate (s : State) (e : Expr) (env : Env) (tail : Bool) (vs : List Value) (k : List Frame) :
    Next :=
  match e, vs with
  | .index object _ line, [o, key] => readField s o key object.operandLabel env line k
  | .call callee _ line, f :: args =>
    ⟨{ s with instructions := s.instructions + args.length + 1 },
      .apply f args ⟨some (env.chunk, line), callee.label, env.depth⟩ tail, k⟩
  | .unary op operand line, [v] => unaryOperation s op v operand line env k
  | .arithmetic op left right line, [a, b] => arithmetic s op a b left right line env k
  | .compare op _ _ line, [a, b] => compareValues s op a b line env k
  | .equal _ _ wanted _, [a, b] => equalValues s a b wanted env k
  | .concat parts line, vs =>
    match vs.reverse with
    | [] => ⟨s, .give [.nil], k⟩
    | last :: pending => join s pending last (.concat parts line) env k
  | .table items line, vs =>
    match buildTable items vs {} 0 with
    | .ok t =>
      let (s, id) := s.allocate t
      ⟨s, .give [.table id], k⟩
    | .error m => throwAt s env line m k
  | _, _ => ⟨s, .give [.nil], k⟩

/-! ## Expressions -/

/-- The value of an expression that needs no further steps. -/
def atom? (s : State) (env : Env) : Expr → Option Value
  | .nil => some .nil
  | .boolean b => some (.bool b)
  | .int n => some (.int n)
  | .float x => some (.float x)
  | .str b => some (.str b)
  | .slot i _ _ => some (((env.slots[i]?).map s.cell).getD .nil)
  | .global name =>
    let t := s.table State.globals
    match t.getKey (.str name) with
    | .nil => if t.metatable.isNone then some .nil else none
    | v => some v
  | _ => none

/-- Evaluate expressions in order; the last one may give any number of values. -/
def operands (s : State) (env : Env) (k : List Frame) : List Value → List Expr → Next
  | done, [] => ⟨s, .give done.reverse, k⟩
  | done, [.rest] => ⟨s, .give (done.reverse ++ env.extra), k⟩
  | done, e :: rest =>
    match atom? s env e with
    | some v => operands s env k (v :: done) rest
    | none => ⟨s, .eval e env false, .collect done rest env :: k⟩

def eval (s : State) (e : Expr) (env : Env) (tail : Bool) (k : List Frame) : Next :=
  match atom? s env e with
  | some v => ⟨s, .give [v], k⟩
  | none =>
    match e with
    | .global name =>
      readField s (.table State.globals) (.str name) none env 0 k
    | .rest => ⟨s, .give env.extra, k⟩
    | .function params variadic body =>
      let (s, f) := makeFunction s ⟨params, variadic, body⟩ env.slots env.chunk
      ⟨s.tick, .give [f], k⟩
    | .group inner => ⟨s, .eval inner env false, .first :: k⟩
    | .both left right => ⟨s.tick, .eval left env false, .shortCircuit true right env :: k⟩
    | .either left right => ⟨s.tick, .eval left env false, .shortCircuit false right env :: k⟩
    | .invoke object _ _ _ _ => ⟨s.tick, .eval object env false, .object e env tail :: k⟩
    | e => operands s.tick env (.operate e env tail :: k) [] e.operands

/-- The method of an object is known: evaluate the arguments. -/
def withMethod (s : State) (object f : Value) (e : Expr) (env : Env) (tail : Bool)
    (k : List Frame) : Next :=
  match e with
  | .invoke _ name args _ line =>
    let site : Site := ⟨some (env.chunk, line), some ("method", Value.textOf name), env.depth⟩
    operands s env (.apply f site tail :: k) [object] args
  | _ => ⟨s, .give [.nil], k⟩

/-! ## Statements -/

/-- The operands of the targets of an assignment. -/
def targetOperands : List Expr → List Expr
  | [] => []
  | .index o key _ :: rest => o :: key :: targetOperands rest
  | _ :: rest => targetOperands rest

/-- Pair the targets with their operands. -/
def pairTargets : List Expr → List Value → List (Value × Value × Expr) × List Value
  | [], vs => ([], vs)
  | .index o key line :: rest, vs =>
    let (pairs, vs') := pairTargets rest (vs.drop 2)
    ((head vs, head vs.tail, .index o key line) :: pairs, vs')
  | e :: rest, vs =>
    let (pairs, vs') := pairTargets rest vs
    ((.nil, .nil, e) :: pairs, vs')

/-- The stores of an assignment, the last target first. -/
def planStores : List (Value × Value × Expr) → List Value → List (Value × Value × Value × Expr)
  | [], _ => []
  | (o, key, e) :: rest, vs => planStores rest vs.tail ++ [(o, key, head vs, e)]

/-- Do one store of an assignment. -/
def store (s : State) (o key value : Value) (target : Expr) (line : Nat) (env : Env)
    (k : List Frame) : Next :=
  match target with
  | .slot i _ _ =>
    match env.slots[i]? with
    | some id => ⟨s.setCell id value, .give [], k⟩
    | none => ⟨s, .give [], k⟩
  | .global name => place (.table State.globals) (.str name) none
  | .index object _ _ => place o key object.operandLabel
  | _ => ⟨s, .give [], k⟩
where
  place (o key : Value) (label : Option (String × String)) : Next :=
    match s.storing State.chainLimit o key with
    | .into id =>
      match State.badKey? key with
      | some m => throwAt s env line m k
      | none => ⟨s.rawSet id key value, .give [], k⟩
    | .ask f object => ⟨s, .apply f [object, key, value] { depth := env.depth } false, k⟩
    | .refused v =>
      throwAt s env line (typeProblem s "index" v (if v.same o then label else none)) k
    | .endless => throwAt s env line "'__newindex' chain too long; possibly a loop" k

/-- Push the rest of a block, unless nothing is left. -/
def andThen (rest : List Stat) (env : Env) (k : List Frame) : List Frame :=
  match rest with
  | [] => k
  | rest => .seq rest env :: k

/-- The call of an expression that is returned is a tail call. -/
def isCall : Expr → Bool
  | .call .. | .invoke .. => true
  | _ => false

def exec (s : State) (body : List Stat) (env : Env) (k : List Frame) : Next :=
  match body with
  | [] => ⟨s, .give [], k⟩
  | stat :: rest =>
    match stat with
    | .expression e => ⟨s, .eval e env false, .seq rest env :: k⟩
    | .locals count values => operands (s.loads values) env (.locals count rest env :: k) [] values
    | .localFunction params variadic code =>
      let (s, id) := s.newCell .nil
      let env := { env with slots := id :: env.slots }
      let (s, f) := makeFunction s ⟨params, variadic, code⟩ env.slots env.chunk
      ⟨(s.setCell id f).tick, .exec rest env, k⟩
    | .assign targets values line =>
      operands (s.loads values) env (.places targets values.length line rest env :: k) []
        (targetOperands targets ++ values)
    | .block inner => ⟨s, .exec inner env, andThen rest env k⟩
    | .cond test yes no =>
      ⟨s.loads [test], .eval test env false, .branch yes no env :: andThen rest env k⟩
    | .whileLoop test inner =>
      ⟨s.loads [test], .eval test env false, .whileTest test inner env :: andThen rest env k⟩
    | .repeatLoop inner => ⟨s, .exec inner env, .repeatBody inner env :: andThen rest env k⟩
    | .leaveIf test => ⟨s.loads [test], .eval test env false, .leaveTest :: k⟩
    | .countLoop start limit step inner line =>
      operands s.tick env (.countStart inner line env :: andThen rest env k) []
        [start, limit, single step]
    | .eachLoop count sources inner line =>
      operands s.tick env (.eachStart count inner line env :: andThen rest env k) [] sources
    | .leave => ⟨s.tick, .give [], leaveLoop k⟩
    | .result [e] =>
      if isCall e then ⟨s.tick, .eval e env true, .result :: k⟩
      else operands s.tick env (.result :: k) [] [e]
    | .result values => operands s.tick env (.result :: k) [] values

/-! ### Loops -/

/-- How often an integer loop runs. -/
def countRuns (start limit step : Int) : Nat :=
  if 0 < step then if limit < start then 0 else ((limit - start) / step).toNat + 1
  else if start < limit then 0 else ((start - limit) / (-step)).toNat + 1

/-- The bound of an integer loop. -/
def intLimit (limit : Number) (step : Int) : Int :=
  match limit with
  | .int n => n.toInt
  | .float x =>
    if Decimal.isNaN x then (if 0 < step then Decimal.minInt - 1 else Decimal.maxInt + 1)
    else
      match Decimal.floorInt? x with
      | some floor =>
        if 0 < step then floor
        else if Decimal.toInt? x = some floor then floor else floor + 1
      | none => if Decimal.signBit x then Decimal.minInt - 1 else Decimal.maxInt + 1

/-- The value a counting loop runs its body with, and the loop after that. -/
def Count.next : Count → Option (Value × Count)
  | .int n step (left + 1) => some (.int n, .int (n + step) step left)
  | .int _ _ 0 => none
  | .float x limit step =>
    if (if 0 < step then x ≤ limit else limit ≤ x) then
      some (.float x, .float (x + step) limit step)
    else none

/-- Run the body of a counting loop once more, if it is to run again. -/
def countOn (s : State) (count : Count) (body : List Stat) (env : Env) (k : List Frame) : Next :=
  match count.next with
  | some (v, next) =>
    let (s, id) := s.newCell v
    ⟨s.tick, .exec body { env with slots := id :: env.slots }, .countBody next body env :: k⟩
  | none => ⟨s.tick, .give [], k⟩

def startCount (s : State) (start limit step : Value) (body : List Stat) (line : Nat) (env : Env)
    (k : List Frame) : Next :=
  let bad (what : String) (v : Value) : Next :=
    throwAt s env line
      ("bad 'for' " ++ what ++ " (number expected, got " ++ typeNameOf s v ++ ")") k
  match start.number?, limit.number?, step.number? with
  | some (.int a), some l, some (.int d) =>
    if d = 0 then throwAt s env line "'for' step is zero" k
    else countOn s (.int a d (countRuns a.toInt (intLimit l d.toInt) d.toInt)) body env k
  | some a, some l, some d =>
    if d.toFloat == 0 then throwAt s env line "'for' step is zero" k
    else countOn s (.float a.toFloat l.toFloat d.toFloat) body env k
  | a, l, _ =>
    if l.isNone then bad "limit" limit
    else if a.isNone then bad "initial value" start
    else bad "step" step

/-- Ask the iterator of a loop for the next values. -/
def eachOn (s : State) (f source control : Value) (count : Nat) (body : List Stat) (line : Nat)
    (env : Env) (k : List Frame) : Next :=
  ⟨s.tick, .apply f [source, control]
    ⟨some (env.chunk, line), some ("for iterator", "for iterator"), env.depth⟩ false,
    .eachNext f source count body line env :: k⟩

/-! ## Values and errors arrive -/

/-- The topmost frame takes values. -/
def give (s : State) (vs : List Value) (frame : Frame) (k : List Frame) : Next :=
  match frame with
  | .collect done [] _ => ⟨s, .give (done.reverse ++ vs), k⟩
  | .collect done rest env => operands s env k (head vs :: done) rest
  | .operate e env tail => operate s e env tail vs k
  | .object e env tail =>
    match e with
    | .invoke object name _ line _ =>
      let o := head vs
      match s.index State.chainLimit o (.str name) with
      | .found f => withMethod s o f e env tail k
      | _ => readField s o (.str name) object.operandLabel env line (.method o e env tail :: k)
    | _ => ⟨s, .give [.nil], k⟩
  | .method o e env tail => withMethod s o (head vs) e env tail k
  | .apply f site tail => ⟨s, .apply f vs site tail, k⟩
  | .shortCircuit wanted right env =>
    if (head vs).truthy == wanted then ⟨s, .eval (single right) env false, k⟩
    else ⟨s, .give [head vs], k⟩
  | .first => ⟨s, .give [head vs], k⟩
  | .truth negated => ⟨s, .give [.bool ((head vs).truthy != negated)], k⟩
  | .joinRest pending e env => join s pending (head vs) e env k
  | .seq rest env => ⟨s, .exec rest env, k⟩
  | .locals count rest env =>
    let (s, slots) := s.declare count vs env.slots
    ⟨s, .exec rest { env with slots := slots }, k⟩
  | .places targets _ line rest env =>
    let (pairs, values) := pairTargets targets vs
    match planStores pairs values with
    | [(o, key, v, e)] => store s o key v e line env (andThenAlways rest env k)
    | plan => ⟨s, .give [], .stores plan line rest env :: k⟩
  | .stores [] _ rest env => ⟨s, .exec rest env, k⟩
  | .stores ((o, key, v, e) :: plan) line rest env =>
    store s o key v e line env (.stores plan line rest env :: k)
  | .branch yes no env => ⟨s, .exec (if (head vs).truthy then yes else no) env, k⟩
  | .whileTest test body env =>
    if (head vs).truthy then ⟨s, .exec body env, .whileBody test body env :: k⟩
    else ⟨s, .give [], k⟩
  | .whileBody test body env => ⟨s.tick, .eval test env false, .whileTest test body env :: k⟩
  | .repeatBody body env => ⟨s.tick, .exec body env, .repeatBody body env :: k⟩
  | .leaveTest => if (head vs).truthy then ⟨s, .give [], leaveLoop k⟩ else ⟨s, .give [], k⟩
  | .countStart body line env =>
    match fit 3 vs with
    | [a, l, d] => startCount s a l d body line env k
    | _ => ⟨s, .give [], k⟩
  | .countBody count body env => countOn s count body env k
  | .eachStart count body line env =>
    match fit 3 vs with
    | [f, source, control] => eachOn s f source control count body line env k
    | _ => ⟨s, .give [], k⟩
  | .eachNext f source count body line env =>
    match head vs with
    | .nil => ⟨s, .give [], k⟩
    | control =>
      let (s, slots) := s.declare count vs env.slots
      ⟨s, .exec body { env with slots := slots },
        .eachBody f source control count body line env :: k⟩
  | .eachBody f source control count body line env =>
    eachOn s f source control count body line env k
  | .result => ⟨s, .give vs, leaveFunction k⟩
  | .activation _ => ⟨s, .give vs, k⟩
  | .protect _ => ⟨s, .give (.bool true :: vs), k⟩
  | .handler _ _ => ⟨s, .give (.bool true :: vs), k⟩
  | .handled => ⟨s, .give (.bool false :: vs), k⟩
  | .substitute work site =>
    match work.put (head vs) with
    | .ok work => substitute s work site k
    | .error m => throwFrom s site m k
  | .text site =>
    match head vs with
    | .str b => ⟨s, .give [.str b], k⟩
    | .int n => ⟨s, .give [.ofString (Number.text (.int n))], k⟩
    | .float x => ⟨s, .give [.ofString (Number.text (.float x))], k⟩
    | _ => throwFrom s site "'__tostring' must return a string" k
where
  andThenAlways (rest : List Stat) (env : Env) (k : List Frame) : List Frame := .seq rest env :: k

/-- The value of a fault for the functions that catch it. -/
def Fault.value : Fault → Value
  | .thrown v => v
  | .exhausted => .ofString "not enough memory"

/-- Unwind the stack to a frame that catches. -/
def unwind (s : State) (fault : Fault) : List Frame → Option Next
  | [] => none
  | .protect _ :: k => some ⟨s, .give [.bool false, fault.value], k⟩
  | .handler f site :: k => some ⟨s, .apply f [fault.value] (inner site) false, .handled :: k⟩
  | _ :: k => unwind s fault k

/-! ## Running -/

/-- What a configuration comes to. -/
inductive Progress where
  | next (n : Next)
  | done (s : State) (values : List Value)
  | failed (s : State) (fault : Fault)

def step (n : Next) : Progress :=
  match n.control with
  | .eval e env tail => .next (eval n.state e env tail n.stack)
  | .operands done rest env => .next (operands n.state env n.stack done rest)
  | .exec body env => .next (exec n.state body env n.stack)
  | .apply f args site tail => .next (apply n.state f args site tail n.stack)
  | .give vs =>
    match n.stack with
    | [] => .done n.state vs
    | frame :: k => .next (give n.state vs frame k)
  | .raise fault =>
    match unwind n.state fault n.stack with
    | some n => .next n
    | none => .failed n.state fault

/-- How many instructions pass between two looks at the limit. -/
def checkInterval : Nat := 10000

/-- The instruction limit is passed; it is looked at after every `checkInterval` instructions. -/
def State.overrun (s : State) : Bool :=
  s.counting && s.limits.instructions < s.instructions / checkInterval * checkInterval

/-- Fault a configuration that is beyond its limits. -/
def Next.checked (n : Next) : Next :=
  match n.control with
  | .raise _ => n
  | _ =>
    if n.state.overrun then
      { n with
        state := { n.state with instructions := n.state.instructions % checkInterval +
          (n.state.limits.instructions / checkInterval) * checkInterval }
        control := .raise (.thrown (.failure "runtime error: Script exceeded instruction limit")) }
    else if n.state.limits.memory != 0 && n.state.limits.memory < n.state.held then
      -- only the bound on what is held is passed so far; the heap is measured now
      let live := n.live
      let n := { n with state := { n.state with held := live } }
      if n.state.limits.memory < live then { n with control := .raise .exhausted } else n
    else n

/-- Run for at most `fuel` steps; a run that is not over by then counts as exhausted. -/
def run : Nat → Next → State × Except Fault (List Value)
  | 0, n => (n.state, .error .exhausted)
  | fuel + 1, n =>
    match step n with
    | .next n => run fuel n.checked
    | .done s vs => (s, .ok vs)
    | .failed s fault => (s, .error fault)

/-- More steps than any run takes. -/
def enoughSteps : Nat := Nat.pow 2 62

def State.callValue (s : State) (f : Value) (args : List Value) :
    State × Except Fault (List Value) :=
  run enoughSteps ⟨s, .apply f args {} false, []⟩

end DiceHost.Engine
