/-! # The binary form of a double

A finite double is a mantissa times a power of two. Printing, remainder and
rounding all work on this form with exact natural numbers.
-/
namespace DiceHost.Decimal

/-- The number `± mantissa * 2 ^ exponent`. -/
structure Binary where
  negative : Bool
  mantissa : Nat
  exponent : Int
deriving DecidableEq, Repr

def signBit (x : Float) : Bool := Nat.pow 2 63 ≤ x.toBits.toNat

def exponentBits (x : Float) : Nat := x.toBits.toNat / Nat.pow 2 52 % Nat.pow 2 11

def fractionBits (x : Float) : Nat := x.toBits.toNat % Nat.pow 2 52

def isFinite (x : Float) : Bool := exponentBits x != 2047

def isNaN (x : Float) : Bool := exponentBits x == 2047 && fractionBits x != 0

def ofFloat? (x : Float) : Option Binary :=
  match exponentBits x with
  | 2047 => none
  | 0 => some ⟨signBit x, fractionBits x, -1074⟩
  | e => some ⟨signBit x, Nat.pow 2 52 + fractionBits x, (e : Int) - 1075⟩

/-- Multiply by a power of two, cutting off bits when the power is negative. -/
def shift (n : Nat) (places : Int) : Nat :=
  if 0 ≤ places then n * Nat.pow 2 places.toNat else n / Nat.pow 2 (-places).toNat

/-- The double with this binary form, exact when one exists. -/
def Binary.toFloat (b : Binary) : Float :=
  let sign : Nat := if b.negative then Nat.pow 2 63 else 0
  if b.mantissa = 0 then Float.ofBits (UInt64.ofNat sign)
  else
    let top : Int := b.mantissa.log2
    let exponent := b.exponent + top - 52
    if exponent < -1074 then
      Float.ofBits (UInt64.ofNat (sign + shift b.mantissa (b.exponent + 1074)))
    else if 971 < exponent then Float.ofBits (UInt64.ofNat (sign + 2047 * Nat.pow 2 52))
    else
      Float.ofBits (UInt64.ofNat
        (sign + (exponent + 1075).toNat * Nat.pow 2 52 +
          (shift b.mantissa (52 - top) - Nat.pow 2 52)))

def infinity : Float := Float.ofBits 0x7FF0000000000000

def notANumber : Float := Float.ofBits 0x7FF8000000000000

/-- The remainder of truncated division, with the sign of the dividend. -/
def remainder (x y : Float) : Float :=
  match ofFloat? x, ofFloat? y with
  | none, _ => notANumber
  | some a, none => if isNaN y then notANumber else a.toFloat
  | some a, some b =>
    if b.mantissa = 0 then notANumber
    else
      let e := min a.exponent b.exponent
      let rest := shift a.mantissa (a.exponent - e) % shift b.mantissa (b.exponent - e)
      Binary.toFloat ⟨a.negative, rest, e⟩

/-- The integer a finite double stands for, when it has no fraction. -/
def toInt? (x : Float) : Option Int :=
  match ofFloat? x with
  | none => none
  | some b =>
    let sign : Int := if b.negative then -1 else 1
    if 0 ≤ b.exponent then some (sign * (b.mantissa * Nat.pow 2 b.exponent.toNat : Nat))
    else
      let scale := Nat.pow 2 (-b.exponent).toNat
      if b.mantissa % scale = 0 then some (sign * (b.mantissa / scale : Nat)) else none

def floorInt? (x : Float) : Option Int :=
  match ofFloat? x with
  | none => none
  | some b =>
    let n : Int := if b.negative then -(b.mantissa : Int) else b.mantissa
    if 0 ≤ b.exponent then some (n * Nat.pow 2 b.exponent.toNat)
    else some (n.fdiv (Nat.pow 2 (-b.exponent).toNat))

def ofInt (n : Int) : Float := Float.ofInt n

end DiceHost.Decimal
