import DiceHost.Engine.Token

/-! # Reading chunks

A recursive descent over the tokens that resolves names while it reads. Text outside the
grammar has no reading; there are no messages.

The line of an index operation is the line of the last token that was consumed when its
value was needed, so it is filled in by `Expr.settle` once the parser knows where that is.
The line of an operator is its own, that of a call the line of its arguments' first token.
-/
namespace DiceHost.Engine

/-- Give a pending index operation its line. -/
def Expr.settle (line : Nat) : Expr → Expr
  | .index object key 0 => .index object key line
  | e => e

namespace Parse

/-- A variable that can be seen, the function depth it belongs to, and whether it is constant. -/
structure Visible where
  name : String
  level : Nat
  fixed : Bool

/-- What the parser knows about its surroundings. -/
structure Scope where
  visible : List Visible := []
  level : Nat := 0
  variadic : Bool := true
  inLoop : Bool := false

/-- The tokens ahead, and the line of the last token that was consumed. -/
structure Ahead where
  tokens : List Placed
  last : Nat

abbrev Parser := StateT Ahead Option

def peek : Parser Placed := fun s =>
  match s.tokens with
  | [] => some (⟨.finish, s.last⟩, s)
  | t :: _ => some (t, s)

def skip : Parser Unit := fun s =>
  match s.tokens with
  | [] => some ((), s)
  | t :: rest => some ((), ⟨rest, t.line⟩)

def lastLine : Parser Nat := fun s => some (s.last, s)

def isMark (s : String) (t : Placed) : Bool :=
  match t.token with
  | .mark m => m == s
  | _ => false

def accept (s : String) : Parser Bool := do
  if isMark s (← peek) then
    skip
    return true
  else return false

def expect (s : String) : Parser Unit := do
  if ← accept s then return () else failure

def name : Parser String := do
  match (← peek).token with
  | .name s =>
    skip
    return s
  | _ => failure

def bytes (s : String) : Bytes := s.toUTF8

/-- Fill in the line of the last consumed token. -/
def settled (e : Expr) : Parser Expr := return e.settle (← lastLine)

/-! ## Names -/

def Scope.declare (scope : Scope) (name : String) (fixed : Bool) : Scope :=
  { scope with visible := ⟨name, scope.level, fixed⟩ :: scope.visible }

def Scope.declareAll (scope : Scope) (names : List (String × Bool)) : Scope :=
  names.foldl (fun s n => s.declare n.1 n.2) scope

def Scope.find (scope : Scope) (name : String) : Option (Nat × Visible) :=
  match scope.visible.findIdx? (fun v => v.name == name) with
  | some i => (scope.visible[i]?).map (fun v => (i, v))
  | none => none

def Scope.resolve (scope : Scope) (name : String) : Expr :=
  match scope.find name with
  | some (i, v) => .slot i name (v.level != scope.level)
  | none => .global (bytes name)

/-- A target may be any place but a constant variable. -/
def Scope.assignable (scope : Scope) : Expr → Bool
  | .slot _ name _ => ((scope.find name).map (fun (_, v) => !v.fixed)).getD true
  | .global _ => true
  | .index .. => true
  | _ => false

def Scope.function (scope : Scope) (params : List String) (variadic : Bool) : Scope :=
  { visible :=
        (params.map fun p => (⟨p, scope.level + 1, false⟩ : Visible)).reverse ++ scope.visible
    level := scope.level + 1
    variadic := variadic
    inLoop := false }

/-! ## Operators -/

/-- How a binary operator binds to its left and right, and what it builds. -/
structure Binary where
  left : Nat
  right : Nat
  build : Expr → Expr → Nat → Expr

def arith (left right : Nat) (op : ArithmeticOp) : Binary := ⟨left, right, .arithmetic op⟩

def comparison (op : CompareOp) : Binary := ⟨3, 3, .compare op⟩

/-- A chain of concatenations is one operation on the line of its last operator. -/
def joinParts (left right : Expr) (line : Nat) : Expr :=
  match right with
  | .concat parts inner => .concat (left :: parts) inner
  | _ => .concat [left, right] line

def binary? (t : Placed) : Option Binary :=
  match t.token with
  | .mark "or" => some ⟨1, 1, fun a b _ => .either a b⟩
  | .mark "and" => some ⟨2, 2, fun a b _ => .both a b⟩
  | .mark "<" => some (comparison .less)
  | .mark "<=" => some (comparison .lessEqual)
  | .mark ">" => some (comparison .greater)
  | .mark ">=" => some (comparison .greaterEqual)
  | .mark "==" => some ⟨3, 3, fun a b line => .equal a b true line⟩
  | .mark "~=" => some ⟨3, 3, fun a b line => .equal a b false line⟩
  | .mark "|" => some (arith 4 4 .bor)
  | .mark "~" => some (arith 5 5 .bxor)
  | .mark "&" => some (arith 6 6 .band)
  | .mark "<<" => some (arith 7 7 .shiftLeft)
  | .mark ">>" => some (arith 7 7 .shiftRight)
  | .mark ".." => some ⟨9, 8, joinParts⟩
  | .mark "+" => some (arith 10 10 .add)
  | .mark "-" => some (arith 10 10 .sub)
  | .mark "*" => some (arith 11 11 .mul)
  | .mark "/" => some (arith 11 11 .div)
  | .mark "//" => some (arith 11 11 .floorDiv)
  | .mark "%" => some (arith 11 11 .modulo)
  | .mark "^" => some (arith 14 13 .power)
  | _ => none

def unary? (t : Placed) : Option UnaryOp :=
  match t.token with
  | .mark "not" => some .not
  | .mark "-" => some .negate
  | .mark "#" => some .length
  | .mark "~" => some .complement
  | _ => none

/-- The strength of unary operators. -/
def unaryStrength : Nat := 12

/-- Tokens that end a block. -/
def endsBlock (t : Placed) : Bool :=
  match t.token with
  | .finish => true
  | .mark m => ["else", "elseif", "end", "until"].contains m
  | _ => false

def params : Nat → List String → Parser (List String × Bool)
  | 0, _ => failure
  | fuel + 1, found => do
    if ← accept "..." then
      expect ")"
      return (found.reverse, true)
    else
      let p ← name
      if ← accept "," then params fuel (p :: found)
      else
        expect ")"
        return ((p :: found).reverse, false)

def paramList (fuel : Nat) : Parser (List String × Bool) := do
  expect "("
  if ← accept ")" then return ([], false) else params fuel []

def moreNames : Nat → List String → Parser (List String)
  | 0, _ => failure
  | fuel + 1, found => do
    if ← accept "," then moreNames fuel ((← name) :: found) else return found.reverse

/-- A local name, which may be marked as constant. -/
def attributedName : Parser (String × Bool) := do
  let n ← name
  if ← accept "<" then
    if (← name) == "const" then
      expect ">"
      return (n, true)
    else failure
  else return (n, false)

def moreAttributedNames : Nat → List (String × Bool) → Parser (List (String × Bool))
  | 0, _ => failure
  | fuel + 1, found => do
    if ← accept "," then moreAttributedNames fuel ((← attributedName) :: found)
    else return found.reverse

mutual
/-- An expression whose operators bind more strongly than `limit`. -/
def expr (scope : Scope) (limit : Nat) : Nat → Parser Expr
  | 0 => failure
  | fuel + 1 => do
    let t ← peek
    let first ← match unary? t with
      | some op =>
        skip
        let operand ← expr scope unaryStrength fuel
        return ← operators scope limit fuel (.unary op (← settled operand) t.line)
      | none => simple scope fuel
    operators scope limit fuel first

/-- The operators after an operand. -/
def operators (scope : Scope) (limit : Nat) : Nat → Expr → Parser Expr
  | 0, _ => failure
  | fuel + 1, left => do
    let t ← peek
    match binary? t with
    | none => return left
    | some op =>
      if op.left ≤ limit then return left
      else
        skip
        let left ← settled left
        let right ← expr scope op.right fuel
        operators scope limit fuel (op.build left (← settled right) t.line)

def simple (scope : Scope) : Nat → Parser Expr
  | 0 => failure
  | fuel + 1 => do
    match (← peek).token with
    | .number (.int n) => skip; return .int n
    | .number (.float x) => skip; return .float x
    | .str s => skip; return .str s
    | .mark "nil" => skip; return .nil
    | .mark "true" => skip; return .boolean true
    | .mark "false" => skip; return .boolean false
    | .mark "..." => if scope.variadic then skip; return .rest else failure
    | .mark "\x7b" => table scope fuel
    | .mark "function" => skip; function scope [] fuel
    | _ => suffixed scope fuel

/-- A name or a parenthesised expression with everything that may follow it. -/
def suffixed (scope : Scope) : Nat → Parser Expr
  | 0 => failure
  | fuel + 1 => do
    match (← peek).token with
    | .name n =>
      skip
      suffixes scope fuel (scope.resolve n)
    | .mark "(" =>
      skip
      let inner ← expr scope 0 fuel
      expect ")"
      suffixes scope fuel (.group (← settled inner))
    | _ => failure

def suffixes (scope : Scope) : Nat → Expr → Parser Expr
  | 0, _ => failure
  | fuel + 1, e => do
    let t ← peek
    match t.token with
    | .mark "." =>
      let e ← settled e
      skip
      suffixes scope fuel (.index e (.str (bytes (← name))) 0)
    | .mark "[" =>
      let e ← settled e
      skip
      let key ← expr scope 0 fuel
      let key ← settled key
      expect "]"
      suffixes scope fuel (.index e key 0)
    | .mark ":" =>
      skip
      let method ← name
      let line ← lastLine
      let (args, callLine) ← arguments scope fuel
      suffixes scope fuel (.invoke (e.settle line) (bytes method) args line callLine)
    | .mark "(" | .mark "\x7b" | .str _ =>
      let e ← settled e
      let (args, line) ← arguments scope fuel
      suffixes scope fuel (.call e args line)
    | _ => return e

/-- The arguments of a call, and the line of their first token. -/
def arguments (scope : Scope) : Nat → Parser (List Expr × Nat)
  | 0 => failure
  | fuel + 1 => do
    let t ← peek
    match t.token with
    | .str s => skip; return ([.str s], t.line)
    | .mark "\x7b" => return ([← table scope fuel], t.line)
    | .mark "(" =>
      skip
      if ← accept ")" then return ([], t.line)
      else
        let args ← exprs scope fuel
        expect ")"
        let line ← lastLine
        return (args.map (Expr.settle line), t.line)
    | _ => failure

/-- Expressions with commas between them; the last one is not settled. -/
def exprs (scope : Scope) : Nat → Parser (List Expr)
  | 0 => failure
  | fuel + 1 => do
    let e ← expr scope 0 fuel
    if ← accept "," then
      let e ← settled e
      return e :: (← exprs scope fuel)
    else return [e]

def table (scope : Scope) : Nat → Parser Expr
  | 0 => failure
  | fuel + 1 => do
    expect "\x7b"
    let found ← items scope fuel
    return .table found (← lastLine)

/-- The items of a table and its closing brace. -/
def items (scope : Scope) : Nat → Parser (List Item)
  | 0 => failure
  | fuel + 1 => do
    if ← accept "\x7d" then return []
    else
      let first ← item scope fuel
      let separated ← (do if ← accept "," then return true else accept ";")
      if separated then
        let line ← lastLine
        return settleItem line first :: (← items scope fuel)
      else
        expect "\x7d"
        return [settleItem (← lastLine) first]
where
  settleItem (line : Nat) : Item → Item
    | .positional e => .positional (e.settle line)
    | i => i

def item (scope : Scope) : Nat → Parser Item
  | 0 => failure
  | fuel + 1 => do
    let s ← get
    match s.tokens with
    | ⟨.name n, _⟩ :: ⟨.mark "=", _⟩ :: _ =>
      skip
      skip
      let value ← expr scope 0 fuel
      return .keyed (.str (bytes n)) (← settled value) (← lastLine)
    | ⟨.mark "[", _⟩ :: _ =>
      skip
      let key ← expr scope 0 fuel
      let key ← settled key
      expect "]"
      expect "="
      let value ← expr scope 0 fuel
      return .keyed key (← settled value) (← lastLine)
    | _ => return .positional (← expr scope 0 fuel)

/-- The parameters and the body of a function; `leading` parameters come first. -/
def function (scope : Scope) (leading : List String) : Nat → Parser Expr
  | 0 => failure
  | fuel + 1 => do
    let (names, variadic) ← paramList fuel
    let all := leading ++ names
    let body ← block (scope.function all variadic) fuel
    expect "end"
    return .function all.length variadic body

/-- Statements up to a token that ends a block. -/
def block (scope : Scope) : Nat → Parser (List Stat)
  | 0 => failure
  | fuel + 1 => do
    let t ← peek
    if endsBlock t then return []
    else if isMark "return" t then
      skip
      let next ← peek
      let values ← (do
        if endsBlock next || isMark ";" next then return []
        else
          let es ← exprs scope fuel
          let line ← lastLine
          return es.map (Expr.settle line))
      let _ ← accept ";"
      if endsBlock (← peek) then return [.result values] else failure
    else
      let (stats, scope) ← statement scope fuel
      return stats ++ (← block scope fuel)

/-- One statement, as no or one statement, and the scope after it. -/
def statement (scope : Scope) : Nat → Parser (List Stat × Scope)
  | 0 => failure
  | fuel + 1 => do
    let t ← peek
    match t.token with
    | .mark ";" => skip; return ([], scope)
    | .mark "break" => if scope.inLoop then skip; return ([.leave], scope) else failure
    | .mark "do" =>
      skip
      let body ← block scope fuel
      expect "end"
      return ([.block body], scope)
    | .mark "while" =>
      skip
      let test ← expr scope 0 fuel
      let test ← settled test
      expect "do"
      let body ← block { scope with inLoop := true } fuel
      expect "end"
      return ([.whileLoop test body], scope)
    | .mark "repeat" =>
      skip
      let body ← repeatBody { scope with inLoop := true } fuel
      return ([.repeatLoop body], scope)
    | .mark "if" =>
      skip
      return ([← condition scope fuel], scope)
    | .mark "for" =>
      skip
      return ([← forLoop scope fuel], scope)
    | .mark "function" =>
      skip
      let target := scope.resolve (← name)
      let (target, leading) ← functionName fuel target
      let f ← function scope leading fuel
      if scope.assignable target then return ([.assign [target] [f] t.line], scope) else failure
    | .mark "local" =>
      skip
      if ← accept "function" then
        let n ← name
        let scope := scope.declare n false
        match ← function scope [] fuel with
        | .function params variadic body => return ([.localFunction params variadic body], scope)
        | _ => failure
      else
        let names ← moreAttributedNames fuel [← attributedName]
        let values ← (do
          if ← accept "=" then
            let es ← exprs scope fuel
            let line ← lastLine
            return es.map (Expr.settle line)
          else return [])
        return ([.locals names.length values], scope.declareAll names)
    | _ =>
      let target ← suffixed scope fuel
      let next ← peek
      if isMark "=" next || isMark "," next then
        let targets ← moreTargets scope fuel [target]
        expect "="
        let es ← exprs scope fuel
        let line ← lastLine
        if targets.all scope.assignable then
          return ([.assign targets (es.map (Expr.settle line)) line], scope)
        else failure
      else
        match target with
        | .call .. | .invoke .. => return ([.expression target], scope)
        | _ => failure

/-- The body of a repeat loop; its condition sees the variables of the body. -/
def repeatBody (scope : Scope) : Nat → Parser (List Stat)
  | 0 => failure
  | fuel + 1 => do
    if ← accept "until" then
      let test ← expr scope 0 fuel
      return [.leaveIf (← settled test)]
    else
      let t ← peek
      if endsBlock t then failure
      else if isMark "return" t then
        let body ← block scope fuel
        expect "until"
        let _ ← expr scope 0 fuel
        return body
      else
        let (stats, scope) ← statement scope fuel
        return stats ++ (← repeatBody scope fuel)

/-- What follows `if` or `elseif`. -/
def condition (scope : Scope) : Nat → Parser Stat
  | 0 => failure
  | fuel + 1 => do
    let test ← expr scope 0 fuel
    expect "then"
    let test ← settled test
    let yes ← block scope fuel
    if ← accept "elseif" then return .cond test yes [← condition scope fuel]
    else if ← accept "else" then
      let no ← block scope fuel
      expect "end"
      return .cond test yes no
    else
      expect "end"
      return .cond test yes []

/-- What follows `for`. -/
def forLoop (scope : Scope) : Nat → Parser Stat
  | 0 => failure
  | fuel + 1 => do
    let first ← name
    if ← accept "=" then
      let start ← expr scope 0 fuel
      let start ← settled start
      expect ","
      let limit ← expr scope 0 fuel
      let limit ← settled limit
      let step ← (do
        if ← accept "," then
          let e ← expr scope 0 fuel
          settled e
        else return .int 1)
      expect "do"
      let line ← lastLine
      let body ← block { scope.declare first false with inLoop := true } fuel
      expect "end"
      return .countLoop start limit step body line
    else
      let names ← moreNames fuel [first]
      expect "in"
      let line := (← peek).line
      let es ← exprs scope fuel
      let last ← lastLine
      expect "do"
      let inner := scope.declareAll (names.map fun n => (n, false))
      let body ← block { inner with inLoop := true } fuel
      expect "end"
      return .eachLoop names.length (es.map (Expr.settle last)) body line

/-- The rest of a function's name, and the parameter it brings with it. -/
def functionName : Nat → Expr → Parser (Expr × List String)
  | 0, _ => failure
  | fuel + 1, e => do
    let e ← settled e
    if ← accept "." then functionName fuel (.index e (.str (bytes (← name))) 0)
    else if ← accept ":" then return (.index e (.str (bytes (← name))) 0, ["self"])
    else return (e, [])

/-- More targets of an assignment, after a comma. -/
def moreTargets (scope : Scope) : Nat → List Expr → Parser (List Expr)
  | 0, _ => failure
  | fuel + 1, found => do
    if ← accept "," then
      let target ← suffixed scope fuel
      moreTargets scope fuel (target :: found)
    else return found.reverse
end

/-- The body of a chunk. -/
def chunk (text : String) : Option (List Stat) :=
  match Token.scan text with
  | none => none
  | some tokens =>
    let read : Parser (List Stat) := do
      let body ← block {} (16 * tokens.length + 64)
      match (← peek).token with
      | .finish => return body
      | _ => failure
    (read ⟨tokens, 1⟩).map (·.1)

end Parse
end DiceHost.Engine
