import DiceHost.Decimal.Layout
import DiceHost.Decimal.Numeral
import DiceHost.Engine.Code

/-! # Numbers of scripts

A number is a 64-bit integer, whose arithmetic wraps, or a double. Two integers give an
integer except under division and power; a double that stands for an integer is equal to
it. Comparisons between the two kinds are exact.
-/
namespace DiceHost.Engine
open DiceHost.Text DiceHost.Decimal

inductive Number where
  | int (n : Int64)
  | float (x : Float)
deriving Inhabited

namespace Number

def toFloat : Number → Float
  | int n => Float.ofInt n.toInt
  | float x => x

/-- The integer that a number stands for exactly. -/
def toInt64? : Number → Option Int64
  | int n => some n
  | float x => ((toInt? x).filter isInt64).map Int64.ofInt

def text : Number → String
  | int n => toString n.toInt
  | float x => significant x

/-! ## Reading -/

def isGap (c : Char) : Bool := c == ' ' || ('\t'.toNat ≤ c.toNat && c.toNat ≤ '\r'.toNat)

/-- Hexadecimal digits, an optional fraction and an optional power of two. -/
def hexFloat? (negative : Bool) (cs : List Char) : Option Float :=
  let (whole, rest) := cs.span isHexDigit
  let (fraction, rest) :=
    match rest with
    | '.' :: after => after.span isHexDigit
    | _ => ([], rest)
  let power : Option Int :=
    match rest with
    | [] => some 0
    | p :: after => if p == 'p' || p == 'P' then exponent? after else none
  if whole.isEmpty && fraction.isEmpty then none
  else power.map fun p =>
    let x := Float.scaleB (Float.ofNat (natOfBase 16 (whole ++ fraction))) (p - 4 * fraction.length)
    if negative then -x else x

/-- The number a text denotes, with blanks around it and a sign in front. -/
def ofChars? (cs : List Char) : Option Number :=
  let cs := ((cs.dropWhile isGap).reverse.dropWhile isGap).reverse
  let (negative, body) := takeSign cs
  match body with
  | '0' :: 'x' :: digits | '0' :: 'X' :: digits =>
    if !digits.isEmpty && digits.all isHexDigit then
      let n : Int := natOfBase 16 digits
      some (int (Int64.ofInt (if negative then -n else n)))
    else (hexFloat? negative digits).map float
  | _ =>
    if !body.isEmpty && body.all isAsciiDigit then
      let n : Int := natOf body
      let n := if negative then -n else n
      if isInt64 n then some (int (Int64.ofInt n))
      else some (float (nearest negative (natOf body) 0))
    else (decimal? negative body).map float

/-- The integer a text denotes in a base from 2 to 36. -/
def ofCharsInBase? (base : Nat) (cs : List Char) : Option Number :=
  let cs := ((cs.dropWhile isGap).reverse.dropWhile isGap).reverse
  let (negative, digits) := takeSign cs
  let value? (c : Char) : Option Nat :=
    let v := if isAsciiDigit c then c.toNat - '0'.toNat else c.toLower.toNat - 'a'.toNat + 10
    if (isAsciiDigit c || isAsciiLetter c) && v < base then some v else none
  match digits.mapM value? with
  | none => none
  | some [] => none
  | some vs =>
    let n := vs.foldl (fun n v => n * base + v) 0
    some (int (Int64.ofInt (if negative then -(n : Int) else n)))

/-! ## Comparing -/

/-- Compare an integer with a double: the order of the two, absent for not-a-number. -/
def orderIntFloat (n : Int) (x : Float) : Option Ordering :=
  if isNaN x then none
  else match ofFloat? x, floorInt? x with
    | some _, some floor =>
      if n < floor then some .lt
      else if floor < n then some .gt
      else if toInt? x = some n then some .eq else some .lt
    | _, _ => some (if signBit x then .gt else .lt)

def orderFloats (x y : Float) : Option Ordering :=
  if x < y then some .lt else if y < x then some .gt else if x == y then some .eq else none

/-- The order of two numbers, absent when one is not a number. -/
def order : Number → Number → Option Ordering
  | int a, int b => some (compare a.toInt b.toInt)
  | int a, float y => orderIntFloat a.toInt y
  | float x, int b => (orderIntFloat b.toInt x).map Ordering.swap
  | float x, float y => orderFloats x y

def equal (a b : Number) : Bool := order a b == some .eq

/-- Whether a comparison holds of two numbers. -/
def holds (op : CompareOp) (a b : Number) : Bool :=
  match op, order a b with
  | .less, some .lt => true
  | .lessEqual, some .lt | .lessEqual, some .eq => true
  | .greater, some .gt => true
  | .greaterEqual, some .gt | .greaterEqual, some .eq => true
  | _, _ => false

/-! ## Arithmetic -/

/-- The remainder with the sign of the divisor. -/
def floatModulo (x y : Float) : Float :=
  let m := remainder x y
  if (if m > 0 then y < 0 else m < 0 && y > 0) then m + y else m

/-- Shift to the left, or to the right by a negative amount; bits that leave are lost. -/
def shift (n amount : Int64) : Int64 :=
  let places := amount.toInt
  if places ≤ -64 ∨ 64 ≤ places then 0
  else if 0 ≤ places then ⟨n.toUInt64 <<< UInt64.ofNat places.toNat⟩
  else ⟨n.toUInt64 >>> UInt64.ofNat (-places).toNat⟩

/-- An operation on integers; absent when it divides by zero. -/
def intArithmetic (op : ArithmeticOp) (a b : Int64) : Option Number :=
  match op with
  | .add => some (int (a + b))
  | .sub => some (int (a - b))
  | .mul => some (int (a * b))
  | .floorDiv => if b = 0 then none else some (int (Int64.ofInt (a.toInt.fdiv b.toInt)))
  | .modulo => if b = 0 then none else some (int (Int64.ofInt (a.toInt.fmod b.toInt)))
  | .div => some (float (Float.ofInt a.toInt / Float.ofInt b.toInt))
  | .power => some (float (Float.pow (Float.ofInt a.toInt) (Float.ofInt b.toInt)))
  | .band => some (int (a &&& b))
  | .bor => some (int (a ||| b))
  | .bxor => some (int (a ^^^ b))
  | .shiftLeft => some (int (shift a b))
  | .shiftRight => some (int (if b.toInt = minInt then 0 else shift a (-b)))

def floatArithmetic (op : ArithmeticOp) (x y : Float) : Float :=
  match op with
  | .add => x + y
  | .sub => x - y
  | .mul => x * y
  | .div => x / y
  | .floorDiv => (x / y).floor
  | .modulo => floatModulo x y
  | _ => Float.pow x y

def isBitwise : ArithmeticOp → Bool
  | .band | .bor | .bxor | .shiftLeft | .shiftRight => true
  | _ => false

/-- Why an operation on two numbers has no result. -/
inductive Undefined where
  | divisionByZero | moduloByZero | noInteger
deriving DecidableEq, Repr

def arithmetic (op : ArithmeticOp) (a b : Number) : Except Undefined Number :=
  if isBitwise op then
    match a.toInt64?, b.toInt64? with
    | some m, some n => .ok ((intArithmetic op m n).getD (int 0))
    | _, _ => .error .noInteger
  else
    match a, b with
    | int m, int n =>
      match intArithmetic op m n with
      | some r => .ok r
      | none => .error (if op = .modulo then .moduloByZero else .divisionByZero)
    | _, _ => .ok (float (floatArithmetic op a.toFloat b.toFloat))

def negate : Number → Number
  | int n => int (-n)
  | float x => float (-x)

end Number
end DiceHost.Engine
