import DiceHost.Json.Value

/-! # Reading JSON text

The reader follows RFC 8259 and accepts nothing more: no leading zeros, no control
characters inside strings, no lone surrogates, nothing after the value. Nesting is
limited; `valueAt` recurses on the nesting still allowed, and the loops over items
are bounded by the length of the whole input.

A number without fraction and exponent that fits 64 bits is an integer. Every other
number is a float, computed from at most 64 bits of its digits and one correctly
rounded power of ten, so its last bit can differ from the nearest double.
-/
namespace DiceHost.Json
open DiceHost DiceHost.Text DiceHost.Decimal

/-- A reader of a prefix of the input. -/
abbrev Scan (α : Type) := List Char → Option (α × List Char)

def isSpace (c : Char) : Bool := c == ' ' || c == '\n' || c == '\t' || c == '\r'

def skipSpace (cs : List Char) : List Char := cs.dropWhile isSpace

def hexQuad : Scan Nat
  | a :: b :: c :: d :: rest =>
    match hexValue? a, hexValue? b, hexValue? c, hexValue? d with
    | some a, some b, some c, some d => some (a * 4096 + b * 256 + c * 16 + d, rest)
    | _, _, _, _ => none
  | _ => none

def isHighSurrogate (n : Nat) : Bool := 0xD800 ≤ n && n ≤ 0xDBFF

def isLowSurrogate (n : Nat) : Bool := 0xDC00 ≤ n && n ≤ 0xDFFF

/-- The character of a surrogate pair. -/
def joinSurrogates (high low : Nat) : Char :=
  Char.ofNat (0x10000 + (high - 0xD800) * 0x400 + (low - 0xDC00))

/-- The character after `\u`, with the second half of a surrogate pair. -/
def unicodeEscape : Scan Char := fun cs =>
  match hexQuad cs with
  | none => none
  | some (n, rest) =>
    if isHighSurrogate n then
      match rest with
      | '\\' :: 'u' :: rest =>
        match hexQuad rest with
        | some (m, rest) => if isLowSurrogate m then some (joinSurrogates n m, rest) else none
        | none => none
      | _ => none
    else if isLowSurrogate n then none
    else some (Char.ofNat n, rest)

/-- The character after a backslash. -/
def escaped : Scan Char
  | '"' :: rest => some ('"', rest)
  | '\\' :: rest => some ('\\', rest)
  | '/' :: rest => some ('/', rest)
  | 'b' :: rest => some (Char.ofNat 8, rest)
  | 'f' :: rest => some (Char.ofNat 12, rest)
  | 'n' :: rest => some ('\n', rest)
  | 'r' :: rest => some ('\r', rest)
  | 't' :: rest => some ('\t', rest)
  | 'u' :: rest => unicodeEscape rest
  | _ => none

/-- The inside of a string up to its closing quote, onto a reversed list. -/
def stringBody : Nat → List Char → Scan String
  | 0, _, _ => none
  | _ + 1, _, [] => none
  | fuel + 1, acc, c :: rest =>
    if c == '"' then some (String.ofList acc.reverse, rest)
    else if c == '\\' then
      match escaped rest with
      | some (d, rest) => stringBody fuel (d :: acc) rest
      | none => none
    else if c.toNat < 0x20 then none
    else stringBody fuel (c :: acc) rest

/-- `10 ^ n` rounded once. -/
def power10 (n : Nat) : Float := Float.ofScientific 1 false n

/-- Divide by powers of ten that are themselves doubles. -/
def divide10 : Nat → Float → Nat → Float
  | 0, x, _ => x
  | fuel + 1, x, n =>
    if n ≤ 308 then x / power10 n
    else if x == 0.0 then x
    else divide10 fuel (x / power10 308) (n - 308)

/-- The double of a 64-bit significand and a decimal exponent; overflow has no value. -/
def floatOfParts (negative : Bool) (significand : Nat) (exponent : Int) : Option Float :=
  let x := (UInt64.ofNat significand).toFloat
  let y :=
    if exponent < 0 then some (divide10 (exponent.natAbs / 308 + 2) x exponent.natAbs)
    else if 308 < exponent then (if x == 0.0 then some x else none)
    else
      let y := x * power10 exponent.natAbs
      if isFinite y then some y else none
  y.map (fun y => if negative then -y else y)

def maxSignificand : Nat := 18446744073709551615

/-- Take digits into a 64-bit significand; the first digit that does not fit stops it.
The result is the significand, the number of digits taken, and the rest. -/
def takeDigits (significand count : Nat) : List Char → Nat × Nat × List Char
  | [] => (significand, count, [])
  | c :: rest =>
    if isAsciiDigit c && significand * 10 + digitValue c ≤ maxSignificand then
      takeDigits (significand * 10 + digitValue c) (count + 1) rest
    else (significand, count, c :: rest)

/-- The exponent after `e`. A value beyond 32 bits is an overflow, or zero. -/
def exponentPart (negative : Bool) (significand : Nat) (start : Int) : Scan Json := fun cs =>
  let (down, rest) := takeSign cs
  let (ds, rest) := rest.span isAsciiDigit
  if ds.isEmpty then none
  else
    let e := natOf ds
    if 2147483647 < e then
      if significand ≠ 0 && !down then none
      else some (float (if negative then -0.0 else 0.0), rest)
    else
      (floatOfParts negative significand (if down then start - e else start + e)).map
        (fun x => (float x, rest))

/-- What may follow the digits of a float. -/
def afterDigits (negative : Bool) (significand : Nat) (exponent : Int) : Scan Json := fun cs =>
  match cs with
  | 'e' :: rest => exponentPart negative significand exponent rest
  | 'E' :: rest => exponentPart negative significand exponent rest
  | _ => (floatOfParts negative significand exponent).map (fun x => (float x, cs))

/-- The fraction after the point. -/
def fractionPart (negative : Bool) (significand : Nat) (start : Int) : Scan Json := fun cs =>
  let (n, count, rest) := takeDigits significand 0 cs
  let more := rest.dropWhile isAsciiDigit
  if count = 0 && more.length = rest.length then none
  else afterDigits negative n (start - count) more

/-- What follows the digits of the whole part, of which so many did not fit. -/
def afterWhole (negative : Bool) (n extra : Nat) : Scan Json := fun cs =>
  match cs with
  | '.' :: rest => fractionPart negative n extra rest
  | 'e' :: _ => afterDigits negative n extra cs
  | 'E' :: _ => afterDigits negative n extra cs
  | _ =>
    if 0 < extra then afterDigits negative n extra cs
    else if !negative then some (int n, cs)
    -- minus zero, and what lies below the least integer, are floats
    else if n = 0 || 9223372036854775808 < n then
      some (float (-(UInt64.ofNat n).toFloat), cs)
    else some (int (-(n : Int)), cs)

/-- A number without its sign. -/
def unsigned (negative : Bool) : Scan Json := fun cs =>
  match cs with
  | [] => none
  | c :: rest =>
    if !isAsciiDigit c then none
    else if c == '0' && (rest.head?.map isAsciiDigit).getD false then none
    else
      let (n, _, rest) := takeDigits 0 0 cs
      let (extra, rest) := rest.span isAsciiDigit
      afterWhole negative n extra.length rest

def number : Scan Json
  | '-' :: rest => unsigned true rest
  | cs => unsigned false cs

/-- The items of an array after `[` and an item, up to `]`. -/
def arrayRest (item : Scan Json) : Nat → List Json → Scan Json
  | 0, _, _ => none
  | fuel + 1, acc, cs =>
    match skipSpace cs with
    | ']' :: rest => some (arr acc.reverse, rest)
    | ',' :: rest =>
      match item rest with
      | some (v, rest) => arrayRest item fuel (v :: acc) rest
      | none => none
    | _ => none

/-- An array after its `[`. -/
def arrayBody (item : Scan Json) (limit : Nat) : Scan Json := fun cs =>
  match skipSpace cs with
  | ']' :: rest => some (arr [], rest)
  | cs =>
    match item cs with
    | some (v, rest) => arrayRest item limit [v] rest
    | none => none

/-- One `"key": value`. -/
def field (item : Scan Json) (limit : Nat) : Scan (String × Json) := fun cs =>
  match skipSpace cs with
  | '"' :: rest =>
    match stringBody limit [] rest with
    | some (key, rest) =>
      match skipSpace rest with
      | ':' :: rest => (item rest).map (fun (v, rest) => ((key, v), rest))
      | _ => none
    | none => none
  | _ => none

def objectRest (item : Scan Json) (limit : Nat) : Nat → List (String × Json) → Scan Json
  | 0, _, _ => none
  | fuel + 1, acc, cs =>
    match skipSpace cs with
    | '\x7d' :: rest => some (obj acc.reverse, rest)
    | ',' :: rest =>
      match field item limit rest with
      | some (f, rest) => objectRest item limit fuel (f :: acc) rest
      | none => none
    | _ => none

/-- An object after its opening brace. -/
def objectBody (item : Scan Json) (limit : Nat) : Scan Json := fun cs =>
  match skipSpace cs with
  | '\x7d' :: rest => some (obj [], rest)
  | cs =>
    match field item limit cs with
    | some (f, rest) => objectRest item limit limit [f] rest
    | none => none

/-- A value, given the readers of what may be nested in it. -/
def valueWith (array object : Scan Json) (limit : Nat) : Scan Json := fun cs =>
  match skipSpace cs with
  | '[' :: rest => array rest
  | '\x7b' :: rest => object rest
  | '"' :: rest => (stringBody limit [] rest).map (fun (s, rest) => (str s, rest))
  | 'n' :: 'u' :: 'l' :: 'l' :: rest => some (null, rest)
  | 't' :: 'r' :: 'u' :: 'e' :: rest => some (bool true, rest)
  | 'f' :: 'a' :: 'l' :: 's' :: 'e' :: rest => some (bool false, rest)
  | cs => number cs

/-- A value with at most the given nesting. -/
def valueAt (limit : Nat) : Nat → List Char → Option (Json × List Char)
  | 0, cs => valueWith (fun _ => none) (fun _ => none) limit cs
  | depth + 1, cs =>
    valueWith (arrayBody (valueAt limit depth) limit) (objectBody (valueAt limit depth) limit)
      limit cs

/-- The deepest nesting that is read. -/
def maxDepth : Nat := 127

/-- Read a whole text; objects keep their fields as written. -/
def readRaw (text : String) : Option Json :=
  let cs := text.toList
  match valueAt (cs.length + 1) maxDepth cs with
  | some (v, rest) => if (skipSpace rest).isEmpty then some v else none
  | none => none

def read (text : String) : Option Json := (readRaw text).map order

end DiceHost.Json
