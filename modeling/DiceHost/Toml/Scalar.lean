import DiceHost.Toml.Value
import DiceHost.Decimal.Numeral
import DiceHost.Text.Split

/-! # TOML numbers, words and dates

A scalar that is not quoted is one unbroken run of characters, except that a single
space may stand between a day and a time. Each reader below takes the whole run.
-/
namespace DiceHost.Toml
open DiceHost.Text DiceHost.Decimal

/-- Characters that occur in scalars without quotes. -/
def isScalarChar (c : Char) : Bool :=
  isAsciiAlphanumeric c || c == '_' || c == '+' || c == '-' || c == '.' || c == ':'

/-- Digits in which single underscores may stand between two digits. -/
def digits? (isDigit : Char → Bool) (cs : List Char) : Option (List Char) :=
  let groups := pieces (· == '_') cs
  if groups.all (fun g => !g.isEmpty && g.all isDigit) then some groups.flatten else none

def isOctal (c : Char) : Bool := '0' ≤ c && c ≤ '7'

def isBinary (c : Char) : Bool := c == '0' || c == '1'

/-- Whole digits of a decimal number: no zero in front of others. -/
def wholeDigits? (cs : List Char) : Option (List Char) :=
  match digits? isAsciiDigit cs with
  | some ('0' :: _ :: _) => none
  | ds => ds

/-- A signed 64-bit integer, or an unsigned one in another base. -/
def integer? (cs : List Char) : Option Int :=
  let based (isDigit : Char → Bool) (base : Nat) (ds : List Char) : Option Int :=
    (digits? isDigit ds).map (fun ds => (natOfBase base ds : Int))
  let n := match cs with
    | '0' :: 'x' :: ds => based isHexDigit 16 ds
    | '0' :: 'o' :: ds => based isOctal 8 ds
    | '0' :: 'b' :: ds => based isBinary 2 ds
    | _ =>
      let (negative, ds) := takeSign cs
      (wholeDigits? ds).map (fun ds => if negative then -(natOf ds : Int) else natOf ds)
  n.filter isInt64

/-- A float: a fraction, an exponent or both, or one of the words `inf` and `nan`. A value
above the greatest double is refused. -/
def float? (cs : List Char) : Option Float :=
  let (negative, body) := takeSign cs
  if body == ['i', 'n', 'f'] then some (if negative then -infinity else infinity)
  else if body == ['n', 'a', 'n'] then some notANumber
  else
    let (mantissa, exponent) :=
      match cutFirst (fun c => c == 'e' || c == 'E') body with
      | some (m, e) => (m, some e)
      | none => (body, none)
    let (whole, fraction) :=
      match cutFirst (· == '.') mantissa with
      | some (w, f) => (w, some f)
      | none => (mantissa, none)
    if exponent.isNone && fraction.isNone then none
    else
      let e : Option Int := match exponent with
        | none => some 0
        | some e =>
          let (down, ds) := takeSign e
          (digits? isAsciiDigit ds).map
            (fun ds => if down then -(natOf ds : Int) else natOf ds)
      let f := match fraction with
        | none => some []
        | some f => digits? isAsciiDigit f
      match wholeDigits? whole, f, e with
      | some w, some f, some e =>
        let x := nearest negative (natOf (w ++ f)) (e - f.length)
        if x == infinity then none else some x
      | _, _, _ => none

/-- Exactly `width` digits. -/
def fixed? (width : Nat) (cs : List Char) : Option Nat :=
  if cs.length = width && cs.all isAsciiDigit then some (natOf cs) else none

def isLeapYear (y : Nat) : Bool := y % 4 == 0 && (y % 100 != 0 || y % 400 == 0)

def daysIn (y m : Nat) : Nat :=
  if m = 2 then (if isLeapYear y then 29 else 28)
  else if m = 4 || m = 6 || m = 9 || m = 11 then 30 else 31

/-- A day `YYYY-MM-DD`. -/
def day? (cs : List Char) : Option Day :=
  match pieces (· == '-') cs with
  | [y, m, d] =>
    match fixed? 4 y, fixed? 2 m, fixed? 2 d with
    | some y, some m, some d =>
      if 1 ≤ m && m ≤ 12 && 1 ≤ d && d ≤ daysIn y m then some ⟨y, m, d⟩ else none
    | _, _, _ => none
  | _ => none

/-- The nanoseconds of a fraction; digits after the ninth do not count. -/
def nanoseconds? (cs : List Char) : Option Nat :=
  if cs.isEmpty || !cs.all isAsciiDigit then none
  else
    let ds := cs.take 9
    some (natOf ds * Nat.pow 10 (9 - ds.length))

/-- A time `HH:MM:SS` with an optional fraction. -/
def clock? (cs : List Char) : Option Clock :=
  match pieces (· == ':') cs with
  | [h, m, s] =>
    let (s, fraction) := match cutFirst (· == '.') s with
      | some (s, f) => (s, nanoseconds? f)
      | none => (s, some 0)
    match fixed? 2 h, fixed? 2 m, fixed? 2 s, fraction with
    | some h, some m, some s, some f =>
      if h ≤ 23 && m ≤ 59 && s ≤ 60 then some ⟨h, m, s, f⟩ else none
    | _, _, _, _ => none
  | _ => none

/-- An offset `±HH:MM`. -/
def offset? (negative : Bool) (cs : List Char) : Option Offset :=
  match pieces (· == ':') cs with
  | [h, m] =>
    match fixed? 2 h, fixed? 2 m with
    | some h, some m =>
      if h ≤ 23 && m ≤ 59 then
        let n : Int := h * 60 + m
        some (.minutes (if negative then -n else n))
      else none
    | _, _ => none
  | _ => none

/-- A time with an optional offset. -/
def zoned? (cs : List Char) : Option (Clock × Option Offset) :=
  match cs.reverse with
  | 'Z' :: rest => (clock? rest.reverse).map (fun c => (c, some .zulu))
  | 'z' :: rest => (clock? rest.reverse).map (fun c => (c, some .zulu))
  | _ =>
    match cutFirst (fun c => c == '+' || c == '-') cs with
    | none => (clock? cs).map (fun c => (c, none))
    | some (clock, offset) =>
      match clock? clock, offset? (cs.contains '-') offset with
      | some c, some o => some (c, some o)
      | _, _ => none

/-- A day, a time, or both with `T` between them. -/
def moment? (cs : List Char) : Option Moment :=
  match cutFirst (fun c => c == 'T' || c == 't') cs with
  | some (day, clock) =>
    match day? day, zoned? clock with
    | some d, some (c, o) => some ⟨some d, some c, o⟩
    | _, _ => none
  | none =>
    match day? cs with
    | some d => some ⟨some d, none, none⟩
    | none => (clock? cs).map (fun c => ⟨none, some c, none⟩)

/-- The value of a run of scalar characters. -/
def scalar? (cs : List Char) : Option Toml :=
  if cs == "true".toList then some (.bool true)
  else if cs == "false".toList then some (.bool false)
  else
    match moment? cs with
    | some m => some (.moment m)
    | none =>
      match float? cs with
      | some x => some (.float x)
      | none => (integer? cs).map .int

/-- A run of scalar characters; a day may be continued by a space and a time. -/
def scalar (cs : List Char) : Option (Toml × List Char) :=
  let (run, rest) := cs.span isScalarChar
  let alone := (scalar? run).map (fun v => (v, rest))
  match day? run, rest with
  | some d, ' ' :: after =>
    let (more, rest) := after.span isScalarChar
    if more.isEmpty then alone
    else (zoned? more).map (fun (c, o) => (.moment ⟨some d, some c, o⟩, rest))
  | _, _ => alone

end DiceHost.Toml
