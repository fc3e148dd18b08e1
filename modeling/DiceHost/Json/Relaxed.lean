import DiceHost.Json.Read
import DiceHost.Json.Write

/-! # JSON as queries read it

A query over a column is less strict about its text than the host. It takes JSON5 too:
comments, single quotes, bare keys, a comma behind the last member, hexadecimal numbers and
named ones. The text ends at its first NUL character, and nesting is limited.

A query compares the members of a value with a text, one after the other until one is equal.
A string is equal to the text that it says, a nested list or object to its own compact form,
and nothing else to any text. Lone surrogates may be escaped, but no text has them.
-/
namespace DiceHost.Json.Relaxed
open DiceHost DiceHost.Text

/-- Space outside of comments. -/
def isBlank (c : Char) : Bool :=
  c == ' ' || ('\t' ≤ c && c ≤ '\r') || c == '\u00a0' || c == '\u1680' ||
    ('\u2000' ≤ c && c ≤ '\u200a') || c == '\u2028' || c == '\u2029' || c == '\u202f' ||
    c == '\u205f' || c == '\u3000' || c == '\ufeff'

def isLineEnd (c : Char) : Bool := c == '\n' || c == '\r' || c == '\u2028' || c == '\u2029'

mutual
/-- What comes behind space and comments. -/
def skipBlank : List Char → List Char
  | [] => []
  | [c] => if isBlank c then [] else [c]
  | c :: d :: rest =>
    if isBlank c then skipBlank (d :: rest)
    else if c == '/' && d == '/' then skipLine rest
    else if c == '/' && d == '*' then skipBlock rest
    else c :: d :: rest

def skipLine : List Char → List Char
  | [] => []
  | c :: rest => if isLineEnd c then skipBlank rest else skipLine rest

/-- An open comment is no space; a slash begins nothing else. -/
def skipBlock : List Char → List Char
  | [] => ['/']
  | [_] => ['/']
  | c :: d :: rest => if c == '*' && d == '/' then skipBlank rest else skipBlock (d :: rest)
end

/-! ## Strings -/

/-- A piece of a string: a character, an escape with its compact form and the number of its
character, or a line end that is escaped and says nothing. -/
inductive Piece where
  | plain (c : Char)
  | escape (written : List Char) (code : Nat)
  | join

namespace Piece

def written : Piece → List Char
  | plain c => Json.escape c
  | escape written _ => written
  | join => []

/-- The number `0x99999` means no character in an escape, and the character is lost. -/
def unlessLost (code : Nat) : List Nat := if code = 0x99999 then [] else [code]

/-- The numbers of the characters that pieces say. An escaped line end belongs to the
piece behind it; at the end of a string it is a NUL. -/
def codes : List Piece → List Nat
  | [] => []
  | [join] => [0]
  | join :: plain c :: rest => unlessLost c.toNat ++ codes rest
  | join :: rest => codes rest
  | plain c :: rest => c.toNat :: codes rest
  | escape _ n :: escape written m :: rest =>
    if isHighSurrogate n && isLowSurrogate m then
      unlessLost (joinSurrogates n m).toNat ++ codes rest
    else n :: codes (escape written m :: rest)
  | escape _ n :: rest => n :: codes rest

def char? (code : Nat) : Option Char :=
  if isHighSurrogate code || isLowSurrogate code then none else some (Char.ofNat code)

def text? (pieces : List Piece) : Option String :=
  ((codes pieces).mapM char?).map String.ofList

end Piece

/-- The character of an escape of one letter. -/
def letter? : Char → Option Char
  | '"' => some '"'
  | '\\' => some '\\'
  | '/' => some '/'
  | '\'' => some '\''
  | 'b' => some '\x08'
  | 'f' => some '\x0c'
  | 'n' => some '\n'
  | 'r' => some '\r'
  | 't' => some '\t'
  | 'v' => some '\x0b'
  | '0' => some '\x00'
  | _ => none

/-- The compact form of an escape of one letter; a vertical tab comes out as a tab. -/
def letterWritten (letter c : Char) : List Char :=
  if letter == '/' then ['\\', '/']
  else if letter == 'v' then ['\\', 'u', '0', '0', '0', '9']
  else Json.escape c

/-- The piece after a backslash. -/
def escaped : Scan Piece
  | 'u' :: rest =>
    (hexQuad rest).map (fun (n, after) => (.escape ('\\' :: 'u' :: rest.take 4) n, after))
  | 'x' :: a :: b :: rest =>
    match hexValue? a, hexValue? b with
    | some m, some n => some (.escape ['\\', 'u', '0', '0', a, b] (m * 16 + n), rest)
    | _, _ => none
  | '\r' :: '\n' :: rest => some (.join, rest)
  | c :: rest =>
    if isLineEnd c then some (.join, rest)
    else (letter? c).map (fun d => (.escape (letterWritten c d) d.toNat, rest))
  | [] => none

/-- The inside of a string up to its closing quote, onto a reversed list. -/
def stringBody (quote : Char) : Nat → List Piece → Scan (List Piece)
  | 0, _, _ => none
  | _ + 1, _, [] => none
  | fuel + 1, acc, c :: rest =>
    if c == quote then some (acc.reverse, rest)
    else if c == '\\' then
      match escaped rest with
      | some (piece, rest) => stringBody quote fuel (piece :: acc) rest
      | none => none
    else stringBody quote fuel (.plain c :: acc) rest

/-- The compact form of a string. -/
def quoted (inside : List Char) : List Char := '"' :: (inside ++ ['"'])

/-! ## Values -/

/-- What a value is in a comparison. A number that is too large cannot be compared. -/
inductive Value where
  | text (s : String)
  | other
  | oversized
deriving DecidableEq, Repr

/-- What a query sees of a value: its compact form, what it is itself, and its members. -/
structure Seen where
  written : List Char
  value : Value
  members : List Value

namespace Seen

/-- A value that is its own only member. -/
def single (written : List Char) (value : Value) : Seen := ⟨written, value, [value]⟩

def nested (written : List Char) (members : List Value) : Seen :=
  ⟨written, .text (String.ofList written), members⟩

def list (items : List Seen) : Seen :=
  nested ('[' :: (List.intercalate [','] (items.map written) ++ [']'])) (items.map value)

def table (fields : List (List Char × Seen)) : Seen :=
  let written := fields.map (fun (key, v) => key ++ ':' :: v.written)
  nested ('\x7b' :: (List.intercalate [','] written ++ ['\x7d']))
    (fields.map (fun (_, v) => v.value))

end Seen

def string (quote : Char) (limit : Nat) : Scan Seen := fun cs =>
  (stringBody quote limit [] cs).map (fun (pieces, rest) =>
    (.single (quoted (pieces.flatMap Piece.written)) ((Piece.text? pieces).elim .other .text),
      rest))

/-- The values that have names, with their compact forms. -/
def exactNames : List (String × String) :=
  [("null", "null"), ("true", "true"), ("false", "false")]

/-- The values that have names in either case of letters. -/
def foldedNames : List (String × String) :=
  [("inf", "9e999"), ("infinity", "9e999"), ("nan", "null"), ("qnan", "null"), ("snan", "null")]

/-- Take a name that no letter or digit follows. -/
def takeName (fold : Char → Char) (names : List (String × String)) : Scan Seen := fun cs =>
  names.findSome? (fun (name, written) =>
    let rest := cs.drop name.length
    if (cs.take name.length).map fold = name.toList && !rest.head?.any isAsciiAlphanumeric then
      some (.single written.toList .other, rest)
    else none)

/-- The digits after `0x`. A number of more than 64 bits is written as an infinite one. -/
def hexadecimal (sign : List Char) : Scan Seen := fun cs =>
  let (digits, rest) := cs.span isHexDigit
  let n := digits.foldl (fun n c => n * 16 + (hexValue? c).getD 0) 0
  if digits.isEmpty then none
  else if n ≤ maxSignificand then some (.single (sign ++ (toString n).toList) .other, rest)
  else some (.single (sign ++ "9.0e999".toList) .oversized, rest)

/-- The exponent of a number, if there is one. -/
def exponent : Scan (List Char)
  | c :: rest =>
    if c == 'e' || c == 'E' then
      let (sign, rest) :=
        match rest with
        | '+' :: rest => (['+'], rest)
        | '-' :: rest => (['-'], rest)
        | _ => ([], rest)
      let (digits, rest) := rest.span isAsciiDigit
      if digits.isEmpty then none else some (c :: (sign ++ digits), rest)
    else some ([], c :: rest)
  | [] => some ([], [])

/-- The digits in front of a point or behind it; one side may be left out. -/
def orZero (digits : List Char) : List Char := if digits.isEmpty then ['0'] else digits

def decimal (sign : List Char) : Scan Seen := fun cs =>
  let (whole, rest) := cs.span isAsciiDigit
  let (fraction, rest) :=
    match rest with
    | '.' :: rest => ((rest.span isAsciiDigit).map some id)
    | _ => (none, rest)
  if whole.isEmpty && (fraction.getD []).isEmpty then none
  else if whole.head? = some '0' && 1 < whole.length then none
  else
    let point := fraction.elim [] (fun digits => '.' :: orZero digits)
    (exponent rest).map (fun (power, rest) =>
      (.single (sign ++ orZero whole ++ point ++ power) .other, rest))

def unsigned (sign : List Char) : Scan Seen
  | '0' :: 'x' :: rest => hexadecimal sign rest
  | '0' :: 'X' :: rest => hexadecimal sign rest
  | cs => decimal sign cs

/-- A number after its sign. -/
def signed (sign : List Char) : Scan Seen := fun cs =>
  let startsWith (name : String) (cs : List Char) :=
    (cs.take name.length).map Char.toLower = name.toList
  if startsWith "inf" cs then
    let rest := cs.drop 3
    let after := if startsWith "inity" rest then rest.drop 5 else rest
    some (.single (sign ++ "9e999".toList) .other, after)
  else unsigned sign cs

def number : Scan Seen
  | '+' :: rest => signed [] rest
  | '-' :: rest => signed ['-'] rest
  | cs => unsigned [] cs

/-- A value without members that is no string. -/
def plainValue : Scan Seen := fun cs =>
  ((takeName id exactNames cs).orElse (fun _ => takeName Char.toLower foldedNames cs)).orElse
    (fun _ => number cs)

def isKeyStart (c : Char) : Bool :=
  isAsciiLetter c || c == '_' || c == '$' || (0x80 ≤ c.toNat && !isBlank c)

/-- Text begins with four digits after `u`. -/
def isUnicodeEscape : List Char → Bool
  | 'u' :: rest => (hexQuad rest).isSome
  | _ => false

/-- The rest of a key without quotes. -/
def bareRest : List Char → List Char × List Char
  | [] => ([], [])
  | c :: rest =>
    if isKeyStart c || isAsciiDigit c || (c == '\\' && isUnicodeEscape rest) then
      let (key, rest) := bareRest rest
      (c :: key, rest)
    else ([], c :: rest)

/-- A key without quotes; what is a value is no key. -/
def bareKey : Scan (List Char)
  | [] => none
  | c :: rest =>
    if (plainValue (c :: rest)).isSome then none
    else if isKeyStart c || (c == '\\' && isUnicodeEscape rest) then
      let (key, rest) := bareRest rest
      some (quoted (c :: key), rest)
    else none

def key (limit : Nat) : Scan (List Char) := fun cs =>
  match skipBlank cs with
  | '"' :: rest => (string '"' limit rest).map (fun (v, rest) => (v.written, rest))
  | '\'' :: rest => (string '\'' limit rest).map (fun (v, rest) => (v.written, rest))
  | cs => bareKey cs

def field (item : Scan Seen) (limit : Nat) : Scan (List Char × Seen) := fun cs =>
  match key limit cs with
  | some (key, rest) =>
    match skipBlank rest with
    | ':' :: rest => (item rest).map (fun (v, rest) => ((key, v), rest))
    | _ => none
  | none => none

/-- Members up to the closing bracket, onto a reversed list; a comma may stand before it. -/
def membersUpTo {α : Type} (close : Char) (member : Scan α) : Nat → List α → Scan (List α)
  | 0, _, _ => none
  | fuel + 1, acc, cs =>
    match skipBlank cs with
    | [] => none
    | c :: rest =>
      if c == close then some (acc.reverse, rest)
      else
        match member (c :: rest) with
        | none => none
        | some (v, rest) =>
          match skipBlank rest with
          | ',' :: rest => membersUpTo close member fuel (v :: acc) rest
          | c :: rest => if c == close then some ((v :: acc).reverse, rest) else none
          | [] => none

/-- A value, given the readers of what may be nested in it. -/
def valueWith (array object : Scan Seen) (limit : Nat) : Scan Seen := fun cs =>
  match skipBlank cs with
  | '[' :: rest => array rest
  | '\x7b' :: rest => object rest
  | '"' :: rest => string '"' limit rest
  | '\'' :: rest => string '\'' limit rest
  | cs => plainValue cs

/-- A value with at most the given nesting. -/
def valueAt (limit : Nat) : Nat → Scan Seen
  | 0 => valueWith (fun _ => none) (fun _ => none) limit
  | depth + 1 =>
    let item := valueAt limit depth
    valueWith
      (fun cs => (membersUpTo ']' item limit [] cs).map (fun (items, rest) => (.list items, rest)))
      (fun cs => (membersUpTo '\x7d' (field item limit) limit [] cs).map
        (fun (fields, rest) => (.table fields, rest))) limit

/-- The deepest nesting that queries read. -/
def maxDepth : Nat := 1000

/-- The value that a text holds. -/
def value? (text : String) : Option Seen :=
  let cs := text.toList.takeWhile (· != '\x00')
  match valueAt (cs.length + 1) maxDepth cs with
  | some (v, rest) => if (skipBlank rest).isEmpty then some v else none
  | none => none

/-- One of the values is equal to a text. -/
def anyEquals (text : String) : List Value → Option Bool
  | [] => some false
  | .text s :: rest => if s = text then some true else anyEquals text rest
  | .other :: rest => anyEquals text rest
  | .oversized :: _ => none

/-- A query finds a text among the members of the value that a column holds, unless it
cannot read the column. -/
def holds? (column text : String) : Option Bool :=
  (value? column).bind (fun v => anyEquals text v.members)

end DiceHost.Json.Relaxed
