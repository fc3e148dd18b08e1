import DiceHost.KeyTable
import DiceHost.Decimal.Layout

/-! # TOML values

Configuration, plugin manifests and command definitions are TOML documents. Dates and
times are kept in parts, so that two spellings of one moment have one text.
-/
namespace DiceHost

/-- A calendar day. -/
structure Day where
  year : Nat
  month : Nat
  day : Nat
deriving DecidableEq, Repr

/-- A time of day with nanoseconds. -/
structure Clock where
  hour : Nat
  minute : Nat
  second : Nat
  nanosecond : Nat
deriving DecidableEq, Repr

/-- The distance from universal time: none written as `Z`, or signed minutes. -/
inductive Offset where
  | zulu
  | minutes (n : Int)
deriving DecidableEq, Repr

/-- A day, a time, or both, then possibly with an offset. -/
structure Moment where
  day : Option Day
  clock : Option Clock
  offset : Option Offset
deriving DecidableEq, Repr

/-- Digits with zeros in front. -/
def padded (width n : Nat) : List Char :=
  let ds := Decimal.natDigits n
  List.replicate (width - ds.length) '0' ++ ds

def Day.text (d : Day) : List Char :=
  padded 4 d.year ++ '-' :: (padded 2 d.month ++ '-' :: padded 2 d.day)

def Clock.text (c : Clock) : List Char :=
  let fraction :=
    if c.nanosecond = 0 then []
    else '.' :: ((padded 9 c.nanosecond).reverse.dropWhile (· == '0')).reverse
  padded 2 c.hour ++ ':' :: (padded 2 c.minute ++ ':' :: (padded 2 c.second ++ fraction))

def Offset.text : Offset → List Char
  | zulu => ['Z']
  | minutes n =>
    (if n < 0 then '-' else '+') ::
      (padded 2 (n.natAbs / 60) ++ ':' :: padded 2 (n.natAbs % 60))

/-- The text of a moment. -/
def Moment.text (m : Moment) : String :=
  let day := (m.day.map Day.text).getD []
  let clock := (m.clock.map Clock.text).getD []
  let mark := if m.day.isSome && m.clock.isSome then ['T'] else []
  String.ofList (day ++ mark ++ clock ++ (m.offset.map Offset.text).getD [])

/-- A TOML value. -/
inductive Toml where
  | str (s : String)
  | int (n : Int)
  | float (x : Float)
  | bool (b : Bool)
  | moment (m : Moment)
  | arr (items : List Toml)
  | table (fields : List (String × Toml))
deriving Inhabited, Repr, BEq

end DiceHost
