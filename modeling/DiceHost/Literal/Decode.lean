import DiceHost.Literal.Encode
import DiceHost.Json.Read
import DiceHost.Decimal.Layout
import DiceHost.Text.Split
import DiceHost.Text.Utf8

/-! # Table literals: reading

The reader takes table constructors and, where it can be told apart, JSON: braces hold
positional items and named fields, brackets hold items only. A table with positional
items only is a list; every other table, the empty one included, is an object in which
positional items get the keys `"1"`, `"2"`, ….

`valueAt` recurses on the nesting still allowed. The loops over items and characters
are bounded by `limit`, which is more than the length of the whole input.
-/
namespace DiceHost.Literal
open DiceHost DiceHost.Text DiceHost.Decimal

/-- A reader of a prefix of the input. -/
abbrev Scan (α : Type) := List Char → Option (α × List Char)

/-- Skip blanks and comments, which run from `--` to the end of the line; `comment`
tells whether a comment is open. -/
def skipFrom (comment : Bool) : List Char → List Char
  | [] => []
  | c :: rest =>
    if comment then skipFrom (c != '\n') rest
    else if isAsciiBlank c then skipFrom false rest
    else if c == '-' && rest.head? == some '-' then skipFrom true rest
    else c :: rest

def skip (cs : List Char) : List Char := skipFrom false cs

/-- The rest after a word that is not continued by a name character. -/
def word? (word : List Char) (cs : List Char) : Option (List Char) :=
  match stripPrefixChars word cs with
  | some rest => if (rest.head?.map isNameChar).getD false then none else some rest
  | none => none

/-- A hexadecimal digit, or a sign in front of the last ones. -/
def hexRun (ds : List Char) : Option Nat :=
  let body := match ds with
    | '+' :: rest => rest
    | _ => ds
  if body.isEmpty || !body.all isHexDigit then none else some (natOfBase 16 body)

/-- A given number of characters read as a hexadecimal number. -/
def hexFixed (width : Nat) : Scan Nat := fun cs =>
  let ds := cs.take width
  if ds.length < width then none
  else (hexRun ds).map (fun n => (n, cs.drop width))

/-- The scalar value with a code point. -/
def scalar? (n : Nat) : Option Char :=
  if n < 0xD800 || (0xE000 ≤ n && n < 0x110000) then some (Char.ofNat n) else none

/-- The character after `\u`: braces around hexadecimal digits, or four of them, where a
high surrogate must be followed by the escape of a low one. -/
def unicodeEscape : Scan Char
  | '{' :: rest =>
    let (ds, rest) := rest.span isHexDigit
    match rest with
    | '}' :: rest =>
      if ds.isEmpty then none else (scalar? (natOfBase 16 ds)).map (fun c => (c, rest))
    | _ => none
  | cs =>
    match hexFixed 4 cs with
    | none => none
    | some (high, rest) =>
      if 0xD800 ≤ high && high < 0xDC00 then
        match rest with
        | '\\' :: 'u' :: rest =>
          match hexFixed 4 rest with
          | some (low, rest) =>
            if 0xDC00 ≤ low && low < 0xE000 then
              some (Json.joinSurrogates high low, rest)
            else none
          | none => none
        | _ => none
      else (scalar? high).map (fun c => (c, rest))

/-- The bytes an escape stands for, after the backslash. -/
def escaped : Scan (List UInt8)
  | [] => none
  | c :: rest =>
    if c == 'n' then some ([10], rest)
    else if c == 't' then some ([9], rest)
    else if c == 'r' then some ([13], rest)
    else if c == 'a' then some ([7], rest)
    else if c == 'b' then some ([8], rest)
    else if c == 'f' then some ([12], rest)
    else if c == 'v' then some ([11], rest)
    else if c == '\\' || c == '"' || c == '\'' || c == '/' || c == '\n' then
      some (encodeChar c, rest)
    else if c == 'z' then some ([], rest.dropWhile isAsciiBlank)
    else if c == 'x' then (hexFixed 2 rest).map (fun (n, rest) => ([UInt8.ofNat n], rest))
    else if isAsciiDigit c then
      let more := (rest.take 2).takeWhile isAsciiDigit
      let n := natOf (c :: more)
      if n < 256 then some ([UInt8.ofNat n], rest.drop more.length) else none
    else if c == 'u' then (unicodeEscape rest).map (fun (c, rest) => (encodeChar c, rest))
    else none

/-- The bytes of a string up to its closing quote, onto a reversed list. -/
def stringBody (closing : Char) : Nat → List UInt8 → Scan (List UInt8)
  | 0, _, _ => none
  | _ + 1, _, [] => none
  | fuel + 1, acc, c :: rest =>
    if c == closing then some (acc.reverse, rest)
    else if c == '\n' then none
    else if c == '\\' then
      match escaped rest with
      | some (bytes, rest) => stringBody closing fuel (bytes.reverse ++ acc) rest
      | none => none
    else stringBody closing fuel ((encodeChar c).reverse ++ acc) rest

/-- A string after its opening quote; its bytes must be well-formed UTF-8. -/
def string (limit : Nat) (closing : Char) : Scan String := fun cs =>
  match stringBody closing limit [] cs with
  | some (bytes, rest) => (ofBytes? bytes).map (fun s => (s, rest))
  | none => none

/-- The text up to the first occurrence of `closing`, onto a reversed list. -/
def untilText (closing : List Char) (acc : List Char) : Scan String
  | [] => none
  | c :: rest =>
    match stripPrefixChars closing (c :: rest) with
    | some after => some (String.ofList acc.reverse, after)
    | none => untilText closing (c :: acc) rest

/-- A long string after its first bracket: any number of `=` and a second bracket open it,
and the same number between closing brackets ends it. One line break after the opening is
dropped. -/
def longString : Scan String := fun cs =>
  let (level, rest) := cs.span (· == '=')
  match rest with
  | '[' :: rest =>
    let rest := match rest with
      | '\r' :: after => after
      | _ => rest
    let rest := match rest with
      | '\n' :: after => after
      | _ => rest
    untilText (']' :: (level ++ [']'])) [] rest
  | _ => none

/-- A sign is part of a numeral only after the exponent letter. -/
def numeralBody (acc : List Char) : List Char → List Char × List Char
  | [] => (acc.reverse, [])
  | c :: rest =>
    let afterE := acc.head? == some 'e' || acc.head? == some 'E'
    if isAsciiDigit c || c == '.' || c == 'e' || c == 'E' ||
        ((c == '+' || c == '-') && afterE) then
      numeralBody (c :: acc) rest
    else (acc.reverse, c :: rest)

/-- The value of a decimal numeral: an integer when it fits, else a finite float. -/
def numeral? (cs : List Char) : Option Json :=
  let float := ((float? cs).filter isFinite).map Json.float
  if cs.any (fun c => c == '.' || c == 'e' || c == 'E') then float
  else
    match int64? cs with
    | some n => some (.int n)
    | none =>
      match nat64? cs with
      | some n => some (.int n)
      | none => float

/-- A number after its sign. -/
def unsigned (negative : Bool) : Scan Json := fun cs =>
  let hex (rest : List Char) : Option (Json × List Char) :=
    let (ds, rest) := rest.span isHexDigit
    let n := natOfBase 16 ds
    if ds.isEmpty || 9223372036854775807 < n then none
    else some (.int (if negative then -(n : Int) else n), rest)
  match cs with
  | '0' :: 'x' :: rest => hex rest
  | '0' :: 'X' :: rest => hex rest
  | _ =>
    let (ds, rest) := numeralBody [] cs
    (numeral? (if negative then '-' :: ds else ds)).map (fun v => (v, rest))

def number : Scan Json
  | '-' :: rest => unsigned true rest
  | cs => unsigned false cs

/-- The text of a value used as a key in brackets. -/
def keyText : Json → Option String
  | .str s => some s
  | .int n => some (toString n)
  | .float x => some (Decimal.jsonLayout.write x)
  | .bool b => some (if b then "true" else "false")
  | _ => none

/-- Whether a bracket opens a long string. -/
def opensLong (cs : List Char) : Bool := cs.head? == some '[' || cs.head? == some '='

/-- A single equals sign. -/
def equals? : List Char → Option (List Char)
  | '=' :: rest => if rest.head? == some '=' then none else some rest
  | _ => none

/-- The key in front of an item: `some none` when the item is positional. -/
def key (value : Scan Json) (limit : Nat) : Scan (Option String) := fun cs =>
  match cs with
  | [] => none
  | c :: rest =>
    if c == '[' && !opensLong rest then
      match value rest with
      | none => none
      | some (k, rest) =>
        match skip rest with
        | ']' :: rest =>
          match skip rest with
          | '=' :: rest => (keyText k).map (fun k => (some k, rest))
          | _ => none
        | _ => none
    else if c == '"' || c == '\'' then
      match string limit c rest with
      | none => none
      | some (k, rest) =>
        match skip rest with
        -- a colon binds the key alone, and together with an equals sign
        | ':' :: '=' :: rest => some (some k, rest)
        | ':' :: rest => some (some k, rest)
        | rest =>
          match equals? rest with
          | some rest => some (some k, rest)
          | none => some (none, cs)
    else if isNameStart c then
      let (name, rest) := cs.span isNameChar
      match equals? (skip rest) with
      | some rest => some (some (String.ofList name), rest)
      | none => some (none, cs)
    else some (none, cs)

/-- The items of a table: positional ones and named ones, each reversed. -/
abbrev Items := List Json × List (String × Json)

/-- The value a table stands for. -/
def tableValue (items : Items) : Json :=
  match items.2 with
  | [] =>
    if items.1.isEmpty then .obj [] else .arr items.1.reverse
  | _ =>
    let positional := items.1.reverse.mapIdx (fun i v => (toString (i + 1), v))
    .obj (KeyTable.ofList (positional ++ items.2.reverse))

/-- The items of a table up to its closing brace. -/
def table (value : Scan Json) (limit : Nat) : Nat → Items → Scan Json
  | 0, _, _ => none
  | fuel + 1, items, cs =>
    match skip cs with
    | '}' :: rest => some (tableValue items, rest)
    | cs =>
      match key value limit cs with
      | none => none
      | some (k, rest) =>
        match value rest with
        | none => none
        | some (v, rest) =>
          let items : Items := match k with
            | none => (v :: items.1, items.2)
            | some k => (items.1, (k, v) :: items.2)
          match skip rest with
          | ',' :: rest => table value limit fuel items rest
          | ';' :: rest => table value limit fuel items rest
          | '}' :: rest => some (tableValue items, rest)
          | _ => none

/-- The items of a list up to its closing bracket. -/
def list (value : Scan Json) : Nat → List Json → Scan Json
  | 0, _, _ => none
  | fuel + 1, items, cs =>
    match skip cs with
    | ']' :: rest => some (.arr items.reverse, rest)
    | cs =>
      match value cs with
      | none => none
      | some (v, rest) =>
        match skip rest with
        | ',' :: rest => list value fuel (v :: items) rest
        | ']' :: rest => some (.arr (v :: items).reverse, rest)
        | _ => none

/-- The literals that are words. -/
def wordValue (cs : List Char) : Option (Json × List Char) :=
  match word? ['n', 'i', 'l'] cs with
  | some rest => some (.null, rest)
  | none =>
    match word? ['n', 'u', 'l', 'l'] cs with
    | some rest => some (.null, rest)
    | none =>
      match word? ['t', 'r', 'u', 'e'] cs with
      | some rest => some (.bool true, rest)
      | none =>
        (word? ['f', 'a', 'l', 's', 'e'] cs).map (fun rest => (.bool false, rest))

/-- A value, given the readers of tables and lists after their opening character. -/
def valueWith (table list : Scan Json) (limit : Nat) : Scan Json := fun cs =>
  match skip cs with
  | [] => none
  | c :: rest =>
    if c == '{' then table rest
    else if c == '[' then
      if opensLong rest then (longString rest).map (fun (s, rest) => (.str s, rest))
      else list rest
    else if c == '"' || c == '\'' then
      (string limit c rest).map (fun (s, rest) => (.str s, rest))
    else if c == '-' || isAsciiDigit c || c == '.' then number (c :: rest)
    else wordValue (c :: rest)

/-- A value with at most the given nesting. -/
def valueAt (limit : Nat) : Nat → List Char → Option (Json × List Char)
  | 0, cs => valueWith (fun _ => none) (fun _ => none) limit cs
  | depth + 1, cs =>
    valueWith (table (valueAt limit depth) limit limit ([], []))
      (list (valueAt limit depth) limit []) limit cs

/-- The deepest nesting of tables that is read. -/
def maxDepth : Nat := 128

def decodeChars (cs : List Char) : Option Json :=
  match valueAt (cs.length + 1) maxDepth cs with
  | some (v, rest) => if (skip rest).isEmpty then some v else none
  | none => none

/-- Read a table literal; malformed text has no value. -/
def decode (text : String) : Option Json := decodeChars text.toList

end DiceHost.Literal
