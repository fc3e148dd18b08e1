import DiceHost.Json.Value
import DiceHost.Decimal.Layout

/-! # Compact JSON text

Pieces are collected in a reversed list and joined once.
-/
namespace DiceHost.Json
open DiceHost

/-- One lower-case hexadecimal digit. -/
def hexDigit (n : Nat) : Char := Char.ofNat (if n < 10 then 48 + n else 87 + n)

def escape (c : Char) : List Char :=
  if c == '"' then ['\\', '"']
  else if c == '\\' then ['\\', '\\']
  else if c == '\n' then ['\\', 'n']
  else if c == '\r' then ['\\', 'r']
  else if c == '\t' then ['\\', 't']
  else if c.toNat == 8 then ['\\', 'b']
  else if c.toNat == 12 then ['\\', 'f']
  else if c.toNat < 0x20 then
    ['\\', 'u', '0', '0', hexDigit (c.toNat / 16), hexDigit (c.toNat % 16)]
  else [c]

def quote (s : String) : String :=
  String.ofList ('"' :: (s.toList.flatMap escape ++ ['"']))

mutual
/-- Write a value onto a reversed list of pieces. -/
def pushValue (out : List String) : Json → List String
  | null => "null" :: out
  | bool b => (if b then "true" else "false") :: out
  | int n => toString n :: out
  | float x => (if Decimal.isFinite x then Decimal.jsonLayout.write x else "null") :: out
  | str s => quote s :: out
  | arr items => "]" :: pushItems ("[" :: out) items
  | obj fields => "\x7d" :: pushFields ("\x7b" :: out) fields

def pushItems (out : List String) : List Json → List String
  | [] => out
  | [v] => pushValue out v
  | v :: rest => pushItems ("," :: pushValue out v) rest

def pushFields (out : List String) : List (String × Json) → List String
  | [] => out
  | [(k, v)] => pushValue (":" :: quote k :: out) v
  | (k, v) :: rest => pushFields ("," :: pushValue (":" :: quote k :: out) v) rest
end

def compact (v : Json) : String := String.join (pushValue [] v).reverse

end DiceHost.Json
