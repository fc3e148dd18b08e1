import DiceHost.Decimal.Layout
import DiceHost.Decimal.Numeral
import DiceHost.Text.Blank

/-! # Words of formulas

A formula is cut into numbers, identifiers and single-character marks. A number starts
with an ASCII digit; an identifier is a run of alphanumeric characters of any script.
-/
namespace DiceHost.Formula
open DiceHost.Text DiceHost.Decimal

inductive Token where
  | number (x : Float)
  | ident (name : String)
  | dot | plus | minus | star | slash | percent | opening | closing
deriving DecidableEq, Repr

/-- How a word is named in messages. -/
def Token.describe : Token → String
  | number x => "Number(" ++ literalLayout.write x ++ ")"
  | ident name => "Ident(" ++ quoteName name ++ ")"
  | dot => "Dot"
  | plus => "Plus"
  | minus => "Minus"
  | star => "Star"
  | slash => "Slash"
  | percent => "Percent"
  | opening => "LParen"
  | closing => "RParen"
where
  /-- Identifiers hold no character that needs an escape. -/
  quoteName (name : String) : String := "\"" ++ name ++ "\""

def isIdentChar (c : Char) : Bool := isAlphanumeric c || c == '_'

def isNumberChar (c : Char) : Bool := isAsciiDigit c || c == '.'

/-- The mark a character stands for. -/
def mark? (c : Char) : Option Token :=
  if c == '.' then some .dot
  else if c == '+' then some .plus
  else if c == '-' then some .minus
  else if c == '*' then some .star
  else if c == '/' then some .slash
  else if c == '%' then some .percent
  else if c == '(' then some .opening
  else if c == ')' then some .closing
  else none

/-- The words of a text, onto a reversed list; `fuel` bounds their number. -/
def tokensOnto : Nat → List Token → List Char → Except String (List Token)
  | 0, acc, _ => .ok acc.reverse
  | _ + 1, acc, [] => .ok acc.reverse
  | fuel + 1, acc, c :: rest =>
    if isBlank c then tokensOnto fuel acc rest
    else if isAsciiDigit c then
      let (text, rest) := (c :: rest).span isNumberChar
      match float? text with
      | some x => tokensOnto fuel (.number x :: acc) rest
      | none => .error ("invalid number '" ++ String.ofList text ++ "'")
    else
      match mark? c with
      | some token => tokensOnto fuel (token :: acc) rest
      | none =>
        if isIdentChar c then
          let (name, rest) := (c :: rest).span isIdentChar
          tokensOnto fuel (.ident (String.ofList name) :: acc) rest
        else .error ("unexpected character '" ++ String.singleton c ++ "'")

def tokens (cs : List Char) : Except String (List Token) := tokensOnto cs.length [] cs

end DiceHost.Formula
