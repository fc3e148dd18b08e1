import DiceHost.Toml.Scalar
import DiceHost.Toml.Tree

/-! # Reading TOML

The reader follows TOML 1.0. A document is a sequence of lines, each a key with its value,
a table header, or nothing, with a comment at the end if there is one. Only well-formed
documents have a value; there are no messages.
-/
namespace DiceHost.Toml
open DiceHost.Text DiceHost.Decimal

/-- A reader of a prefix of the input. -/
abbrev Scan (α : Type) := List Char → Option (α × List Char)

def isSpace (c : Char) : Bool := c == ' ' || c == '\t'

def skipSpace (cs : List Char) : List Char := cs.dropWhile isSpace

/-- A character that may stand in comments and strings. -/
def isPrintable (c : Char) : Bool := c == '\t' || (0x20 ≤ c.toNat && c.toNat != 0x7F)

/-- The rest after a line break. -/
def newline? : List Char → Option (List Char)
  | '\n' :: rest => some rest
  | '\r' :: '\n' :: rest => some rest
  | _ => none

/-- The rest after a comment, if one starts here and holds no control character. -/
def comment : List Char → Option (List Char)
  | '#' :: rest =>
    let after := rest.dropWhile isPrintable
    if after.isEmpty || (newline? after).isSome then some after else none
  | cs => some cs

/-- The rest after blanks, comments and line breaks; `fuel` bounds the number of lines. -/
def skipLines : Nat → List Char → Option (List Char)
  | 0, _ => none
  | fuel + 1, cs =>
    match comment (skipSpace cs) with
    | none => none
    | some rest =>
      match newline? rest with
      | some rest => skipLines fuel rest
      | none => some rest

/-- A character given by hexadecimal digits. -/
def codePoint (width : Nat) : Scan Char := fun cs =>
  let ds := cs.take width
  let n := natOfBase 16 ds
  if ds.length = width && ds.all isHexDigit &&
      (n < 0xD800 || (0xE000 ≤ n && n < 0x110000)) then
    some (Char.ofNat n, cs.drop width)
  else none

/-- The character after a backslash. -/
def escaped : Scan Char
  | 'b' :: rest => some (Char.ofNat 8, rest)
  | 't' :: rest => some ('\t', rest)
  | 'n' :: rest => some ('\n', rest)
  | 'f' :: rest => some (Char.ofNat 12, rest)
  | 'r' :: rest => some ('\r', rest)
  | '"' :: rest => some ('"', rest)
  | '\\' :: rest => some ('\\', rest)
  | 'u' :: rest => codePoint 4 rest
  | 'U' :: rest => codePoint 8 rest
  | _ => none

/-- The inside of a one-line string; only quoted ones know escapes. -/
def lineBody (quote : Char) : Nat → List Char → Scan String
  | 0, _, _ => none
  | _ + 1, _, [] => none
  | fuel + 1, acc, c :: rest =>
    if c == quote then some (String.ofList acc.reverse, rest)
    else if c == '\\' && quote == '"' then
      match escaped rest with
      | some (d, rest) => lineBody quote fuel (d :: acc) rest
      | none => none
    else if isPrintable c then lineBody quote fuel (c :: acc) rest
    else none

/-- The rest after blanks and line breaks. -/
def skipBreaks : List Char → List Char
  | '\r' :: '\n' :: rest => skipBreaks rest
  | c :: rest => if isSpace c || c == '\n' then skipBreaks rest else c :: rest
  | [] => []

/-- The rest after blanks and at least one line break. -/
def foldedBreak (cs : List Char) : Option (List Char) :=
  (newline? (skipSpace cs)).map skipBreaks

/-- The inside of a string between triple quotes. Up to two quotes may stand before the
closing ones; a line break is one line feed. -/
def blockBody (quote : Char) : Nat → List Char → Scan String
  | 0, _, _ => none
  | _ + 1, _, [] => none
  | fuel + 1, acc, c :: rest =>
    if c == quote then
      let (more, after) := rest.span (· == quote)
      if more.length < 2 then blockBody quote fuel (more ++ c :: acc) after
      else if more.length ≤ 4 then
        some (String.ofList (acc.reverse ++ List.replicate (more.length - 2) quote), after)
      else none
    else if c == '\\' && quote == '"' then
      match foldedBreak rest with
      | some rest => blockBody quote fuel acc rest
      | none =>
        match escaped rest with
        | some (d, rest) => blockBody quote fuel (d :: acc) rest
        | none => none
    else if isPrintable c then blockBody quote fuel (c :: acc) rest
    else
      match newline? (c :: rest) with
      | some rest => blockBody quote fuel ('\n' :: acc) rest
      | none => none

/-- A string after its first quote. -/
def string (limit : Nat) (quote : Char) : Scan String := fun cs =>
  match cs with
  | a :: b :: rest =>
    if a == quote && b == quote then
      blockBody quote limit [] ((newline? rest).getD rest)
    else lineBody quote limit [] cs
  | _ => lineBody quote limit [] cs

def isBareKeyChar (c : Char) : Bool := isAsciiAlphanumeric c || c == '_' || c == '-'

/-- One part of a key. -/
def keyPart (limit : Nat) : Scan String
  | '"' :: rest => lineBody '"' limit [] rest
  | '\'' :: rest => lineBody '\'' limit [] rest
  | cs =>
    let (name, rest) := cs.span isBareKeyChar
    if name.isEmpty then none else some (String.ofList name, rest)

/-- The most parts a key may have, plus one; also bounds the nesting of values. -/
def maxDepth : Nat := 80

/-- A key with its dots, and the blanks after it. -/
def key (limit : Nat) : Nat → List String → Scan (List String)
  | 0, _, _ => none
  | fuel + 1, acc, cs =>
    match keyPart limit (skipSpace cs) with
    | none => none
    | some (part, rest) =>
      match skipSpace rest with
      | '.' :: rest => key limit fuel (part :: acc) rest
      | rest => if acc.length + 1 < maxDepth then some ((part :: acc).reverse, rest) else none

/-- A key, an equals sign and a value. -/
def pair (value : Scan Toml) (limit : Nat) : Scan (List String × Toml) := fun cs =>
  match key limit limit [] cs with
  | some (path, '=' :: rest) =>
    (value (skipSpace rest)).map (fun (v, rest) => ((path, v), rest))
  | _ => none

/-- The items of an array, which may be spread over lines. -/
def array (value : Scan Toml) (limit : Nat) : Nat → List Toml → Scan Toml
  | 0, _, _ => none
  | fuel + 1, acc, cs =>
    match skipLines limit cs with
    | none => none
    | some (']' :: rest) => some (.arr acc.reverse, rest)
    | some cs =>
      match value cs with
      | none => none
      | some (v, rest) =>
        match skipLines limit rest with
        | some (',' :: rest) => array value limit fuel (v :: acc) rest
        | some (']' :: rest) => some (.arr (v :: acc).reverse, rest)
        | _ => none

/-- The pairs of an inline table after its first pair is due. -/
def inlinePairs (value : Scan Toml) (limit : Nat) : Nat → Draft → Scan Toml
  | 0, _, _ => none
  | fuel + 1, draft, cs =>
    match pair value limit cs with
    | none => none
    | some ((path, v), rest) =>
      match draft.add path v with
      | none => none
      | some draft =>
        match skipSpace rest with
        | ',' :: rest => inlinePairs value limit fuel draft rest
        | '}' :: rest => some (draft.node.finish, rest)
        | _ => none

/-- An inline table after its opening brace. -/
def inlineTable (value : Scan Toml) (limit : Nat) : Scan Toml := fun cs =>
  match skipSpace cs with
  | '}' :: rest => some (.table [], rest)
  | cs => inlinePairs value limit limit .empty cs

/-- A value, given the readers of arrays and inline tables. -/
def valueWith (array table : Scan Toml) (limit : Nat) : Scan Toml := fun cs =>
  match cs with
  | '"' :: rest => (string limit '"' rest).map (fun (s, rest) => (.str s, rest))
  | '\'' :: rest => (string limit '\'' rest).map (fun (s, rest) => (.str s, rest))
  | '[' :: rest => array rest
  | '{' :: rest => table rest
  | _ => scalar cs

/-- A value with at most the given nesting. -/
def valueAt (limit : Nat) : Nat → List Char → Option (Toml × List Char)
  | 0, cs => valueWith (fun _ => none) (fun _ => none) limit cs
  | depth + 1, cs =>
    valueWith (array (valueAt limit depth) limit limit [])
      (inlineTable (valueAt limit depth) limit) limit cs

/-- The rest after blanks, a comment and the end of the line. -/
def endOfLine (cs : List Char) : Option (List Char) :=
  match comment (skipSpace cs) with
  | some [] => some []
  | some rest => newline? rest
  | none => none

/-- A table header after its first bracket. -/
def header (limit : Nat) (doc : Document) : Scan Document
  | '[' :: rest =>
    match key limit limit [] rest with
    | some (path, ']' :: ']' :: rest) => (doc.openElement path).map (fun doc => (doc, rest))
    | _ => none
  | cs =>
    match key limit limit [] cs with
    | some (path, ']' :: rest) => (doc.openTable path).map (fun doc => (doc, rest))
    | _ => none

/-- The lines of a document. -/
def lines (limit : Nat) : Nat → Document → List Char → Option Document
  | 0, _, _ => none
  | fuel + 1, doc, cs =>
    match skipSpace cs with
    | [] => some doc
    | '[' :: rest =>
      match header limit doc rest with
      | none => none
      | some (doc, rest) => (endOfLine rest).bind (lines limit fuel doc)
    | cs =>
      if cs.head? == some '#' || (newline? cs).isSome then
        (endOfLine cs).bind (lines limit fuel doc)
      else
        match pair (valueAt limit (maxDepth - 1)) limit cs with
        | none => none
        | some ((path, v), rest) =>
          match doc.add path v with
          | none => none
          | some doc => (endOfLine rest).bind (lines limit fuel doc)

/-- The table of a whole document; a byte order mark may stand at its start. -/
def read (text : String) : Option (KeyTable Toml) :=
  let cs := match text.toList with
    | c :: rest => if c.toNat = 0xFEFF then rest else c :: rest
    | [] => []
  match (lines (cs.length + 2) (cs.length + 2) .start cs).bind Document.close with
  | none => none
  | some root => some (KeyTable.ofList (finishEntries root.entries))

end DiceHost.Toml
