import DiceHost.Engine.Number
import DiceHost.Text.Utf8
import DiceHost.Text.Split

/-! # Cutting a chunk into tokens

Every token carries the line on which it ends. Text that cannot be cut has no tokens;
there are no messages.
-/
namespace DiceHost.Engine
open DiceHost.Text

inductive Token where
  | name (s : String)
  /-- a reserved word or an operator -/
  | mark (s : String)
  | number (n : Number)
  | str (s : Bytes)
  | finish
deriving Inhabited

structure Placed where
  token : Token
  line : Nat
deriving Inhabited

namespace Token

def reserved : List String :=
  ["and", "break", "do", "else", "elseif", "end", "false", "for", "function", "goto", "if",
    "in", "local", "nil", "not", "or", "repeat", "return", "then", "true", "until", "while"]

/-- The operators, longer ones before their beginnings. -/
def operators : List (List Char) :=
  ["...", "..", "==", "~=", "<=", ">=", "//", "::", "<<", ">>", "+", "-", "*", "/", "%", "^",
    "#", "&", "~", "|", "<", ">", "=", "(", ")", "\x7b", "\x7d", "[", "]", ";",
    ":", ",", "."].map String.toList

def isNameStart (c : Char) : Bool := isAsciiLetter c || c == '_'

def isNameChar (c : Char) : Bool := isAsciiAlphanumeric c || c == '_'

def isLineBreak (c : Char) : Bool := c == '\n' || c == '\r'

structure Place where
  rest : List Char
  line : Nat

/-- Step over a line break; two different break characters are one break. -/
def afterBreak (c : Char) (rest : List Char) (line : Nat) : Place :=
  match rest with
  | d :: more => if isLineBreak d && d != c then ⟨more, line + 1⟩ else ⟨rest, line + 1⟩
  | [] => ⟨[], line + 1⟩

/-- Bytes onto a reversed list. -/
def pushChar (c : Char) (out : List UInt8) : List UInt8 := (encodeChar c).reverse ++ out

/-- The equals signs of an opening long bracket, and the text after it. -/
def longBracket? (cs : List Char) : Option (Nat × List Char) :=
  match cs with
  | '[' :: rest =>
    let (level, rest) := rest.span (· == '=')
    match rest with
    | '[' :: inner => some (level.length, inner)
    | _ => none
  | _ => none

/-- The text up to a closing long bracket, onto reversed bytes. -/
def longText (close : List Char) : Nat → List UInt8 → Place → Option (List UInt8 × Place)
  | 0, _, _ => none
  | fuel + 1, out, place =>
    match stripPrefixChars close place.rest with
    | some rest => some (out, ⟨rest, place.line⟩)
    | none =>
      match place.rest with
      | [] => none
      | c :: rest =>
        if isLineBreak c then longText close fuel (10 :: out) (afterBreak c rest place.line)
        else longText close fuel (pushChar c out) ⟨rest, place.line⟩

/-- A long text whose opening bracket has been read; a line break at its start is dropped. -/
def longString (level : Nat) (place : Place) : Option (List UInt8 × Place) :=
  let close := ']' :: (List.replicate level '=' ++ [']'])
  let start :=
    match place.rest with
    | c :: rest => if isLineBreak c then afterBreak c rest place.line else place
    | [] => place
  longText close (start.rest.length + 1) [] start

def encodePoint (n : Nat) : List UInt8 :=
  let tail (k : Nat) : List UInt8 :=
    (List.range k).reverse.map (fun i => UInt8.ofNat (0x80 + n / Nat.pow 64 i % 64))
  if n < 0x80 then [UInt8.ofNat n]
  else if n < 0x800 then UInt8.ofNat (0xC0 + n / 64) :: tail 1
  else if n < 0x10000 then UInt8.ofNat (0xE0 + n / Nat.pow 64 2) :: tail 2
  else if n < 0x200000 then UInt8.ofNat (0xF0 + n / Nat.pow 64 3) :: tail 3
  else if n < 0x4000000 then UInt8.ofNat (0xF8 + n / Nat.pow 64 4) :: tail 4
  else UInt8.ofNat (0xFC + n / Nat.pow 64 5) :: tail 5

/-- The character that a one-letter escape stands for. -/
def simpleEscape? (c : Char) : Option UInt8 :=
  match c with
  | 'a' => some 7 | 'b' => some 8 | 'f' => some 12 | 'n' => some 10 | 'r' => some 13
  | 't' => some 9 | 'v' => some 11 | '\\' => some 92 | '"' => some 34 | '\'' => some 39
  | _ => none

/-- Step over blanks and line breaks. -/
def skipBlank : Nat → Place → Place
  | 0, place => place
  | fuel + 1, place =>
    match place.rest with
    | c :: rest =>
      if isLineBreak c then skipBlank fuel (afterBreak c rest place.line)
      else if Number.isGap c then skipBlank fuel ⟨rest, place.line⟩
      else place
    | [] => place

/-- What follows a backslash, onto reversed bytes. -/
def escape (out : List UInt8) (place : Place) : Option (List UInt8 × Place) :=
  match place.rest with
  | 'x' :: a :: b :: rest =>
    if isHexDigit a && isHexDigit b then
      some (UInt8.ofNat (Decimal.natOfBase 16 [a, b]) :: out, ⟨rest, place.line⟩)
    else none
  | 'z' :: rest => some (out, skipBlank (rest.length + 1) ⟨rest, place.line⟩)
  | 'u' :: c :: rest =>
    if c.toNat != 0x7b then none
    else
      let (digits, after) := rest.span isHexDigit
      let n := Decimal.natOfBase 16 digits
      match after with
      | d :: after =>
        if d.toNat == 0x7d && !digits.isEmpty && n < Nat.pow 2 31 then
          some ((encodePoint n).reverse ++ out, ⟨after, place.line⟩)
        else none
      | [] => none
  | c :: rest =>
    if isLineBreak c then some (10 :: out, afterBreak c rest place.line)
    else if isAsciiDigit c then
      let digits := ((c :: rest).take 3).takeWhile isAsciiDigit
      let n := Decimal.natOf digits
      if n < 256 then some (UInt8.ofNat n :: out, ⟨(c :: rest).drop digits.length, place.line⟩)
      else none
    else (simpleEscape? c).map (fun b => (b :: out, ⟨rest, place.line⟩))
  | [] => none

/-- The text up to a closing quote, onto reversed bytes. -/
def quoted (quote : Char) : Nat → List UInt8 → Place → Option (List UInt8 × Place)
  | 0, _, _ => none
  | fuel + 1, out, place =>
    match place.rest with
    | [] => none
    | c :: rest =>
      if c == quote then some (out, ⟨rest, place.line⟩)
      else if isLineBreak c then none
      else if c == '\\' then
        match escape out ⟨rest, place.line⟩ with
        | some (out, place) => quoted quote fuel out place
        | none => none
      else quoted quote fuel (pushChar c out) ⟨rest, place.line⟩

def toBytes (reversed : List UInt8) : Bytes := ByteArray.mk reversed.reverse.toArray

/-- The characters of a numeral: digits, points and exponents; a sign may follow an
exponent mark. -/
def numeralChars (isMark : Char → Bool) (marked : Bool) : List Char → List Char × List Char
  | [] => ([], [])
  | c :: rest =>
    if isMark c || isHexDigit c || c == '.' || (marked && (c == '+' || c == '-')) then
      let (digits, after) := numeralChars isMark (isMark c) rest
      (c :: digits, after)
    else ([], c :: rest)

/-- A numeral; a letter right after it spoils it. -/
def numeral (cs : List Char) : Option (Token × List Char) :=
  let hex := match cs with
    | '0' :: 'x' :: _ | '0' :: 'X' :: _ => true
    | _ => false
  let (lead, body) := if hex then (cs.take 2, cs.drop 2) else ([], cs)
  let isMark (c : Char) : Bool := if hex then c == 'p' || c == 'P' else c == 'e' || c == 'E'
  let (digits, rest) := numeralChars isMark false body
  if (rest.head?.map isNameChar).getD false then none
  else (Number.ofChars? (lead ++ digits)).map (fun n => (.number n, rest))

/-- The rest of a comment whose two dashes have been read. -/
def skipComment (place : Place) : Option Place :=
  match longBracket? place.rest with
  | some (level, inner) => (longString level ⟨inner, place.line⟩).map (·.2)
  | none => some ⟨place.rest.dropWhile (fun c => !isLineBreak c), place.line⟩

/-- The operator at the head of a text. -/
def operator? (cs : List Char) : Option (List Char × List Char) :=
  operators.findSome? (fun op => (stripPrefixChars op cs).map (fun rest => (op, rest)))

/-- Read one token; blanks and comments are read as no token. -/
def scanOne (place : Place) : Option (Option Token × Place) :=
  match place.rest with
  | [] => none
  | c :: rest =>
    if isLineBreak c then some (none, afterBreak c rest place.line)
    else if Number.isGap c then some (none, ⟨rest, place.line⟩)
    else if isNameStart c then
      let (word, rest) := (c :: rest).span isNameChar
      let s := String.ofList word
      some (some (if reserved.contains s then .mark s else .name s), ⟨rest, place.line⟩)
    else if isAsciiDigit c || (c == '.' && (rest.head?.map isAsciiDigit).getD false) then
      (numeral (c :: rest)).map (fun (t, rest) => (some t, ⟨rest, place.line⟩))
    else if c == '"' || c == '\'' then
      (quoted c (rest.length + 1) [] ⟨rest, place.line⟩).map
        (fun (out, place) => (some (.str (toBytes out)), place))
    else
      match stripPrefixChars ['-', '-'] (c :: rest) with
      | some comment => (skipComment ⟨comment, place.line⟩).map (fun place => (none, place))
      | none =>
        match longBracket? (c :: rest) with
        | some (level, inner) =>
          (longString level ⟨inner, place.line⟩).map
            (fun (out, place) => (some (.str (toBytes out)), place))
        | none =>
          (operator? (c :: rest)).map
            (fun (op, rest) => (some (.mark (String.ofList op)), ⟨rest, place.line⟩))

/-- Read tokens onto a reversed list; every step consumes a character. -/
def scanOnto : Nat → List Placed → Place → Option (List Placed)
  | 0, _, _ => none
  | fuel + 1, out, place =>
    if place.rest.isEmpty then some (⟨.finish, place.line⟩ :: out)
    else
      match scanOne place with
      | none => none
      | some (none, place) => scanOnto fuel out place
      | some (some t, place) => scanOnto fuel (⟨t, place.line⟩ :: out) place

/-- The tokens of a chunk; the last one is `finish`. -/
def scan (text : String) : Option (List Placed) :=
  let cs := text.toList
  (scanOnto (cs.length + 1) [] ⟨cs, 1⟩).map List.reverse

end Token
end DiceHost.Engine
