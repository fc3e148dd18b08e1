import DiceHost.Formula.Expr
import DiceHost.Formula.Token

/-! # Reading formulas

```
expr   := term (('+' | '-') term)*
term   := unary (('*' | '/' | '%') unary)*
unary  := '-' unary | '+' unary | atom
atom   := number | 'this' '.' ident | '(' expr ')'
```

Each level of the grammar is a function of the reader for what stands in parentheses;
`exprAt` ties the knot with a bound on the nesting.
-/
namespace DiceHost.Formula

/-- A reader of a prefix of the words. -/
abbrev Reader := List Token → Except String (Expr × List Token)

def atom (inner : Reader) : Reader
  | [] => .error "unexpected end of formula"
  | .number x :: rest => .ok (.number x, rest)
  | .ident word :: rest =>
    if word = "this" then
      match rest with
      | .dot :: .ident name :: rest => .ok (.field name, rest)
      | .dot :: _ => .error "expected field name after 'this.'"
      | _ => .error "expected '.' after 'this'"
    else .error ("unsupported identifier '" ++ word ++ "'")
  | .opening :: rest =>
    match inner rest with
    | .error e => .error e
    | .ok (e, .closing :: rest) => .ok (e, rest)
    | .ok (_, _) => .error "missing ')'"
  | token :: _ => .error ("unexpected token " ++ token.describe)

def unary (inner : Reader) : List Token → Except String (Expr × List Token)
  | .minus :: rest =>
    match unary inner rest with
    | .ok (e, rest) => .ok (.neg e, rest)
    | .error e => .error e
  | .plus :: rest => unary inner rest
  | words => atom inner words

def sumOp? : Token → Option Op
  | .plus => some .add
  | .minus => some .sub
  | _ => none

def productOp? : Token → Option Op
  | .star => some .mul
  | .slash => some .div
  | .percent => some .rem
  | _ => none

/-- Join further operands to the left; `fuel` bounds their number. -/
def chain (op? : Token → Option Op) (operand : Reader) : Nat → Expr → Reader
  | 0, left, words => .ok (left, words)
  | _ + 1, left, [] => .ok (left, [])
  | fuel + 1, left, token :: rest =>
    match op? token with
    | none => .ok (left, token :: rest)
    | some op =>
      match operand rest with
      | .ok (right, rest) => chain op? operand fuel (.binary op left right) rest
      | .error e => .error e

def term (inner : Reader) (limit : Nat) : Reader := fun words =>
  match unary inner words with
  | .ok (left, rest) => chain productOp? (unary inner) limit left rest
  | .error e => .error e

def expr (inner : Reader) (limit : Nat) : Reader := fun words =>
  match term inner limit words with
  | .ok (left, rest) => chain sumOp? (term inner limit) limit left rest
  | .error e => .error e

/-- An expression with at most the given nesting of parentheses. -/
def exprAt (limit : Nat) : Nat → List Token → Except String (Expr × List Token)
  | 0, _ => .error "unexpected end of formula"
  | depth + 1, words => expr (exprAt limit depth) limit words

/-- Read a formula from all its words; its text is only for the message about trailing words. -/
def ofTokens (src : String) (words : List Token) : Except String Expr := do
  if words.isEmpty then throw "empty formula"
  let (e, rest) ← exprAt (words.length + 1) (words.length + 1) words
  if rest.isEmpty then return e else throw ("trailing input in '" ++ src ++ "'")

/-- Read a formula; the message of a failure says what is wrong with the text. -/
def parse (src : String) : Except String Expr := do
  let words ← tokens src.toList
  ofTokens src words

end DiceHost.Formula
