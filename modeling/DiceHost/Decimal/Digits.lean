import DiceHost.Decimal.Binary

/-! # The decimal digits of a double

`shortest` finds the fewest digits that still read back as the same double, and of
those the nearest ones. `rounded` finds a fixed number of digits of the exact value,
ties to even. Both compare exact fractions, so neither can be off by a rounding error.
-/
namespace DiceHost.Decimal

/-- The number `d.ddd * 10 ^ exponent`, where the first digit is the leading one. -/
structure Digits where
  digits : List Char
  exponent : Int
deriving DecidableEq, Repr

def natDigits (n : Nat) : List Char := Nat.toDigits 10 n

/-- Digits of `n`, scaled so that a number of `width` digits has the given exponent;
zeros at the end are dropped. -/
def Digits.ofNat (n width : Nat) (exponent : Int) : Digits :=
  let ds := natDigits n
  let kept := (ds.reverse.dropWhile (· == '0')).reverse
  ⟨if kept.isEmpty then ['0'] else kept, exponent + (ds.length : Int) - width⟩

/-- A positive fraction. -/
structure Ratio where
  num : Nat
  den : Nat

/-- `n * 2 ^ e` as a fraction. -/
def Ratio.scaled (n : Nat) (e : Int) : Ratio :=
  if 0 ≤ e then ⟨n * Nat.pow 2 e.toNat, 1⟩ else ⟨n, Nat.pow 2 (-e).toNat⟩

/-- The fraction times `10 ^ e`. -/
def Ratio.times10 (r : Ratio) (e : Int) : Ratio :=
  if 0 ≤ e then ⟨r.num * Nat.pow 10 e.toNat, r.den⟩
  else ⟨r.num, r.den * Nat.pow 10 (-e).toNat⟩

/-- The number of decimal places before the first non-zero digit of a fraction below one. -/
def leadingZeros : Nat → Nat → Nat → Nat
  | 0, _, _ => 0
  | fuel + 1, num, den => if den ≤ num then 0 else leadingZeros fuel (num * 10) den + 1

/-- The exponent of the leading decimal digit. -/
def Ratio.magnitude (r : Ratio) : Int :=
  if r.den ≤ r.num then (natDigits (r.num / r.den)).length - 1
  else -(leadingZeros 400 r.num r.den : Int)

/-- The numbers that round to one double, as fractions over one denominator. -/
structure Interval where
  low : Nat
  exact : Nat
  high : Nat
  den : Nat
  closed : Bool

/-- The rounding interval of a positive double. -/
def Binary.interval (b : Binary) : Interval :=
  -- below a power of two the next double is half as far away
  let below := if b.mantissa = Nat.pow 2 52 ∧ -1074 < b.exponent then 1 else 2
  let unit := Ratio.scaled 1 (b.exponent - 2)
  ⟨(4 * b.mantissa - below) * unit.num, 4 * b.mantissa * unit.num,
    (4 * b.mantissa + 2) * unit.num, unit.den, b.mantissa % 2 == 0⟩

def Interval.times10 (i : Interval) (e : Int) : Interval :=
  if 0 ≤ e then
    let f := Nat.pow 10 e.toNat
    ⟨i.low * f, i.exact * f, i.high * f, i.den, i.closed⟩
  else ⟨i.low, i.exact, i.high, i.den * Nat.pow 10 (-e).toNat, i.closed⟩

/-- The integer inside a scaled interval that is nearest to its exact value. -/
def Interval.pick (i : Interval) : Option Nat :=
  let n := i.exact / i.den
  let rest := i.exact % i.den
  let lowIn := if i.closed then i.low ≤ n * i.den else i.low < n * i.den
  let highIn := if i.closed then (n + 1) * i.den ≤ i.high else (n + 1) * i.den < i.high
  if lowIn ∧ highIn then
    some (if 2 * rest < i.den ∨ (2 * rest = i.den ∧ n % 2 = 0) then n else n + 1)
  else if lowIn then some n
  else if highIn then some (n + 1)
  else none

/-- Try `width` digits, then one more, as long as `fuel` lasts. -/
def shortestFrom (i : Interval) (magnitude : Int) : Nat → Nat → Digits
  | 0, width =>
    let scaled := i.times10 (width - 1 - magnitude)
    Digits.ofNat (scaled.exact / scaled.den) width magnitude
  | fuel + 1, width =>
    match (i.times10 (width - 1 - magnitude)).pick with
    | some n => Digits.ofNat n width magnitude
    | none => shortestFrom i magnitude fuel (width + 1)

/-- The shortest digits that read back as this positive double. -/
def shortest (b : Binary) : Digits :=
  shortestFrom b.interval (Ratio.scaled b.mantissa b.exponent).magnitude 17 1

/-- The quotient rounded to the nearest integer, ties to even. -/
def Ratio.round (r : Ratio) : Nat :=
  let n := r.num / r.den
  let rest := r.num % r.den
  if 2 * rest < r.den ∨ (2 * rest = r.den ∧ n % 2 = 0) then n else n + 1

/-- The exact value of a positive double rounded to `width` digits. -/
def rounded (width : Nat) (b : Binary) : Digits :=
  let r := Ratio.scaled b.mantissa b.exponent
  Digits.ofNat (r.times10 (width - 1 - r.magnitude)).round width r.magnitude

end DiceHost.Decimal
