import DiceHost.Decimal.Binary
import DiceHost.Text.Letter

/-! # Reading numerals

`nearest` is the correctly rounded value of a decimal. The scanners take a whole
character list and accept it only if nothing is left over.
-/
namespace DiceHost.Decimal
open DiceHost.Text

def natOf (ds : List Char) : Nat := ds.foldl (fun n c => n * 10 + digitValue c) 0

def natOfBase (base : Nat) (ds : List Char) : Nat :=
  ds.foldl (fun n c => n * base + (hexValue? c).getD 0) 0

/-- Bounds for the decimal logarithm of a number: `10 ^ low ≤ n < 10 ^ high` for `0 < n`,
because `0.301` and `0.302` lie on both sides of the logarithm of two. -/
def magnitude (n : Nat) : Nat × Nat := (n.log2 * 301 / 1000, n.log2 * 302 / 1000 + 1)

/-- The double nearest to `significand * 10 ^ exponent`; numbers that are certainly out of
range are settled before any power of ten is formed. -/
def nearest (negative : Bool) (significand : Nat) (exponent : Int) : Float :=
  let (low, high) := magnitude significand
  let x : Float :=
    if significand = 0 then 0.0
    else if 310 < low + exponent then infinity
    else if high + exponent < -330 then 0.0
    else Float.ofScientific significand (exponent < 0) exponent.natAbs
  if negative then -x else x

def takeSign : List Char → Bool × List Char
  | '-' :: rest => (true, rest)
  | '+' :: rest => (false, rest)
  | rest => (false, rest)

/-- A signed run of digits that is the whole input. -/
def exponent? (cs : List Char) : Option Int :=
  let (negative, ds) := takeSign cs
  if ds.isEmpty || !ds.all isAsciiDigit then none
  else some (if negative then -(natOf ds : Int) else natOf ds)

/-- Digits, an optional fraction and an optional exponent: the whole input. -/
def decimal? (negative : Bool) (cs : List Char) : Option Float :=
  let (whole, rest) := cs.span isAsciiDigit
  let (fraction, rest) :=
    match rest with
    | '.' :: after => after.span isAsciiDigit
    | _ => ([], rest)
  if whole.isEmpty && fraction.isEmpty then none
  else
    let significand := natOf (whole ++ fraction)
    let places : Int := fraction.length
    match rest with
    | [] => some (nearest negative significand (-places))
    | e :: after =>
      if e == 'e' || e == 'E' then
        (exponent? after).map (fun n => nearest negative significand (n - places))
      else none

/-- A float numeral: a decimal, or a word for infinity or not-a-number in any case. -/
def float? (cs : List Char) : Option Float :=
  let (negative, body) := takeSign cs
  let word := lowerAscii (String.ofList body)
  if word == "inf" || word == "infinity" then some (if negative then -infinity else infinity)
  else if word == "nan" then some notANumber
  else decimal? negative body

/-- The greatest signed and unsigned 64-bit integers. -/
def maxInt : Int := 9223372036854775807
def minInt : Int := -9223372036854775808
def maxNat : Int := 18446744073709551615

def isInt64 (n : Int) : Bool := minInt ≤ n && n ≤ maxInt

def isNat64 (n : Int) : Bool := 0 ≤ n && n ≤ maxNat

/-- A signed numeral in a base, whatever its size. -/
def integer? (isDigit : Char → Bool) (base : Nat) (cs : List Char) : Option Int :=
  let (negative, ds) := takeSign cs
  if ds.isEmpty || !ds.all isDigit then none
  else
    let n : Int := natOfBase base ds
    some (if negative then -n else n)

/-- A decimal numeral of a signed 64-bit integer. -/
def int64? (cs : List Char) : Option Int :=
  (integer? isAsciiDigit 10 cs).filter isInt64

/-- A decimal numeral of an unsigned 64-bit integer, without a minus sign. -/
def nat64? (cs : List Char) : Option Int :=
  if cs.head? == some '-' then none else (integer? isAsciiDigit 10 cs).filter isNat64

end DiceHost.Decimal
