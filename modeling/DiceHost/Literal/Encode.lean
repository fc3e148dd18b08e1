import DiceHost.Json.Value
import DiceHost.Decimal.Layout
import DiceHost.Text.Letter

/-! # Table literals: writing

Cards travel through the store as text that a script engine can read as a table
constructor. Keys that are identifiers stand bare, all other keys in brackets.
-/
namespace DiceHost.Literal
open DiceHost DiceHost.Text

/-- Words that cannot stand as bare keys. -/
def keywords : List String :=
  ["and", "break", "do", "else", "elseif", "end", "false", "for", "function", "goto", "if",
    "in", "local", "nil", "not", "or", "repeat", "return", "then", "true", "until", "while"]

def isNameStart (c : Char) : Bool := isAsciiLetter c || c == '_'

def isNameChar (c : Char) : Bool := isAsciiAlphanumeric c || c == '_'

/-- A key that may stand bare. -/
def isBareKey (key : String) : Bool :=
  match key.toList with
  | [] => false
  | c :: rest => isNameStart c && rest.all isNameChar && !keywords.contains key

/-- Three decimal digits. -/
def threeDigits (n : Nat) : List Char :=
  [Char.ofNat (48 + n / 100), Char.ofNat (48 + n / 10 % 10), Char.ofNat (48 + n % 10)]

def escape (c : Char) : List Char :=
  if c == '\\' then ['\\', '\\']
  else if c == '"' then ['\\', '"']
  else if c == '\n' then ['\\', 'n']
  else if c == '\r' then ['\\', 'r']
  else if c == '\t' then ['\\', 't']
  else if c.toNat < 0x20 || c.toNat == 0x7F then '\\' :: threeDigits c.toNat
  else [c]

def quote (s : String) : List Char := '"' :: (s.toList.flatMap escape ++ ['"'])

def keyChars (key : String) : List Char :=
  if isBareKey key then key.toList else '[' :: (quote key ++ [']'])

mutual
/-- The characters of a literal. -/
def chars : Json → List Char
  | .null => ['n', 'i', 'l']
  | .bool true => ['t', 'r', 'u', 'e']
  | .bool false => ['f', 'a', 'l', 's', 'e']
  | .int n => (toString n).toList
  | .float x => (Decimal.literalLayout.write x).toList
  | .str s => quote s
  | .arr items => '{' :: itemChars items
  | .obj fields => '{' :: fieldChars fields

/-- The items of a list and the closing brace. -/
def itemChars : List Json → List Char
  | [] => ['}']
  | [v] => chars v ++ ['}']
  | v :: rest => chars v ++ ',' :: itemChars rest

/-- The fields of an object and the closing brace. -/
def fieldChars : List (String × Json) → List Char
  | [] => ['}']
  | [(k, v)] => keyChars k ++ '=' :: (chars v ++ ['}'])
  | (k, v) :: rest => keyChars k ++ '=' :: (chars v ++ ',' :: fieldChars rest)
end

def encode (v : Json) : String := String.ofList (chars v)

end DiceHost.Literal
