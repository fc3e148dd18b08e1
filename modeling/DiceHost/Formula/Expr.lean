import DiceHost.Decimal.Binary

/-! # Formulas

A template field can be computed from other fields of the same card by plain arithmetic
on doubles. A field is read as `this.<name>`.
-/
namespace DiceHost.Formula
open DiceHost.Decimal

inductive Op where
  | add | sub | mul | div | rem
deriving DecidableEq, Repr

inductive Expr where
  | number (x : Float)
  | field (name : String)
  | neg (inner : Expr)
  | binary (op : Op) (left right : Expr)
deriving DecidableEq, Repr

/-- Add a name to a list unless it is there. -/
def addName (names : List String) (name : String) : List String :=
  if names.contains name then names else names ++ [name]

/-- The fields a formula reads, after the ones already known. -/
def Expr.referencesOnto (names : List String) : Expr → List String
  | number _ => names
  | field name => addName names name
  | neg inner => inner.referencesOnto names
  | binary _ left right => right.referencesOnto (left.referencesOnto names)

/-- The fields a formula reads, in the order of first use. -/
def Expr.references (e : Expr) : List String := e.referencesOnto []

/-- Apply an operation; there is no division by either zero. -/
def Op.apply (op : Op) (a b : Float) : Except String Float :=
  match op with
  | add => .ok (a + b)
  | sub => .ok (a - b)
  | mul => .ok (a * b)
  | div => if b == 0.0 then .error "division by zero" else .ok (a / b)
  | rem => if b == 0.0 then .error "division by zero" else .ok (remainder a b)

/-- The value of a formula, which need not be finite. -/
def Expr.value (lookup : String → Option Float) : Expr → Except String Float
  | number x => .ok x
  | field name =>
    match lookup name with
    | some x => .ok x
    | none => .error ("unknown field 'this." ++ name ++ "'")
  | neg inner => do
    let x ← inner.value lookup
    return -x
  | binary op left right => do
    let a ← left.value lookup
    let b ← right.value lookup
    op.apply a b

/-- The value of a formula on a card. -/
def Expr.eval (lookup : String → Option Float) (e : Expr) : Except String Float := do
  let x ← e.value lookup
  if isFinite x then return x else throw "result is not a finite number"

end DiceHost.Formula
