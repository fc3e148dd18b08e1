import DiceHost.Decimal.Layout
import DiceHost.Yaml.Value

/-! # Writing YAML

Values are written in block style with an indentation of two; only empty collections are
written in brackets. A text is plain when it reads back as itself; otherwise it is quoted,
or a literal block if it has several lines. `Pen` is where the writer stands: whether the
last thing written leaves room for the next one on the same line decides about blanks and
line breaks.
-/
namespace DiceHost.Yaml
open DiceHost.Text DiceHost.Decimal

/-! ## What a text allows -/

/-- Printable characters; all others are escaped. -/
def isPrintable (c : Char) : Bool :=
  let n := c.toNat
  n == 10 || (0x20 ≤ n && n ≤ 0x7E) || (0xA0 ≤ n && n ≠ 0xFEFF && n ≠ 0xFFFE && n ≠ 0xFFFF)

/-- What is known about the characters of a text. -/
structure Traits where
  /-- an indicator forbids the plain form -/
  indicator : Bool := false
  breaks : Bool := false
  special : Bool := false
  edge : Bool := false
  trailingSpace : Bool := false
  breakSpace : Bool := false
  spaceBreak : Bool := false

/-- Look at one character between its neighbours. -/
def Traits.see (t : Traits) (before : Option Char) (c : Char) (rest : List Char) : Traits :=
  let gapAfter := isGap rest
  let gapBefore := (before.map (fun b => isSpaceOrTab b || isBreak b)).getD true
  let indicator :=
    match before with
    | none =>
      ("#,[]{}&*!|>'\"%@`".toList).contains c ||
        ((c == '?' || c == ':' || c == '-') && gapAfter)
    | some _ => (c == ':' && gapAfter) || (c == '#' && gapBefore)
  let space := c == ' '
  let lineBreak := isBreak c
  { indicator := t.indicator || indicator
    breaks := t.breaks || lineBreak
    special := t.special || !isPrintable c
    edge := t.edge || ((space || lineBreak) && (before.isNone || rest.isEmpty))
    trailingSpace := t.trailingSpace || (space && rest.isEmpty)
    breakSpace := t.breakSpace || (space && (before.map isBreak).getD false)
    spaceBreak := t.spaceBreak || (lineBreak && before == some ' ') }

def traitsFrom (t : Traits) (before : Option Char) : List Char → Traits
  | [] => t
  | c :: rest => traitsFrom (t.see before c rest) (some c) rest

/-- The traits of a text. -/
def traits (cs : List Char) : Traits :=
  let marker := cs.take 3 == ['-', '-', '-'] || cs.take 3 == ['.', '.', '.']
  traitsFrom { indicator := marker } none cs

def Traits.allowsPlain (t : Traits) : Bool :=
  !(t.edge || t.breakSpace || t.spaceBreak || t.special || t.breaks || t.indicator)

def Traits.allowsSingle (t : Traits) : Bool := !(t.breakSpace || t.spaceBreak || t.special)

def Traits.allowsBlock (t : Traits) : Bool := !(t.trailingSpace || t.spaceBreak || t.special)

/-- The ways to write a text. -/
inductive Style where
  | plain | single | double | literal
deriving DecidableEq, Repr

/-- Words that older readers take for booleans. -/
def booleanWords : List String :=
  ["y", "Y", "yes", "Yes", "YES", "n", "N", "no", "No", "NO", "true", "True", "TRUE",
    "false", "False", "FALSE", "on", "On", "ON", "off", "Off", "OFF"]

/-- The style asked for: quotes for a text that would read as something else. -/
def wantedStyle (s : String) : Style :=
  let cs := s.toList
  if booleanWords.contains s then .single
  else if cs.contains '\n' then .literal
  else if isPaddedDigits cs then .single
  else if s.isEmpty || isNull s || (integer? cs).isSome || (float? cs).isSome then .single
  else .plain

/-- The style used: the one asked for if the text allows it. -/
def chooseStyle (wanted : Style) (simpleKey : Bool) (cs : List Char) : Style :=
  let t := traits cs
  let wanted := if simpleKey && t.breaks then .double else wanted
  let quoted := if cs.isEmpty || t.allowsSingle then Style.single else .double
  match wanted with
  | .plain => if !cs.isEmpty && t.allowsPlain then .plain else quoted
  | .single => quoted
  | .double => .double
  | .literal => if simpleKey || cs.isEmpty || !t.allowsBlock then .double else .literal

/-! ## The pen -/

/-- Where the writer stands. -/
structure Pen where
  /-- the text so far, reversed -/
  out : List Char := []
  column : Nat := 0
  /-- a blank or a line start is right before -/
  spaced : Bool := true
  /-- only indentation and indicators are on this line -/
  fresh : Bool := true

namespace Pen

def put (p : Pen) (cs : List Char) : Pen :=
  { p with out := cs.reverse ++ p.out, column := p.column + cs.length }

def newline (p : Pen) (c : Char) : Pen := { p with out := c :: p.out, column := 0 }

/-- Go to an indentation, on a new line unless this one is still free up to there. -/
def indent (p : Pen) (width : Int) : Pen :=
  let width := width.toNat
  let p := if !p.fresh || width < p.column || (p.column = width && !p.spaced) then p.newline '\n'
    else p
  { p.put (List.replicate (width - p.column) ' ') with spaced := true, fresh := true }

/-- Write an indicator, after a blank if one is needed. -/
def indicator (p : Pen) (cs : List Char) (needsSpace spaced fresh : Bool) : Pen :=
  let p := if needsSpace && !p.spaced then p.put [' '] else p
  { p.put cs with spaced := spaced, fresh := p.fresh && fresh }

/-- The writer stands right after a scalar. -/
def finish (p : Pen) : Pen := { p with spaced := false, fresh := false }

/-- The characters of a text in single quotes; `after` when a line break came before. -/
def singleBody (width : Int) (after : Bool) (p : Pen) : List Char → Pen
  | [] => if after then p.indent width else p
  | c :: rest =>
    if isBreak c then
      let p := if !after && c == '\n' then p.newline '\n' else p
      singleBody width true { p.newline c with fresh := true } rest
    else if c == ' ' then singleBody width after (p.put [c]) rest
    else
      let p := if after then p.indent width else p
      singleBody width false { p.put (if c == '\'' then [c, c] else [c]) with fresh := false } rest

/-- Upper-case hexadecimal digits. -/
def hexDigits (width n : Nat) : List Char :=
  (List.range width).reverse.map (fun i =>
    let d := n / Nat.pow 16 i % 16
    Char.ofNat (if d < 10 then 48 + d else 55 + d))

/-- A character in double quotes. -/
def escape (c : Char) : List Char :=
  let n := c.toNat
  if c == '"' then ['\\', '"']
  else if c == '\\' then ['\\', '\\']
  else if isPrintable c && !isBreak c then [c]
  else if n == 0 then ['\\', '0']
  else if n == 7 then ['\\', 'a']
  else if n == 8 then ['\\', 'b']
  else if n == 9 then ['\\', 't']
  else if n == 10 then ['\\', 'n']
  else if n == 11 then ['\\', 'v']
  else if n == 12 then ['\\', 'f']
  else if n == 13 then ['\\', 'r']
  else if n == 27 then ['\\', 'e']
  else if n == 0x85 then ['\\', 'N']
  else if n == 0x2028 then ['\\', 'L']
  else if n == 0x2029 then ['\\', 'P']
  else if n ≤ 0xFF then '\\' :: 'x' :: hexDigits 2 n
  else if n ≤ 0xFFFF then '\\' :: 'u' :: hexDigits 4 n
  else '\\' :: 'U' :: hexDigits 8 n

/-- The lines of a literal block. -/
def literalBody (width : Int) (after : Bool) (p : Pen) : List Char → Pen
  | [] => p
  | c :: rest =>
    if isBreak c then literalBody width true { p.newline c with fresh := true } rest
    else
      let p := if after then p.indent width else p
      literalBody width false { p.put [c] with fresh := false } rest

/-- The hints of a literal block: an indentation when the first line hides it, and how the
text ends. -/
def literalHints (cs : List Char) : List Char :=
  let indentation := match cs with
    | c :: _ => if c == ' ' || isBreak c then ['2'] else []
    | [] => []
  let chomp := match cs.reverse with
    | [] => ['-']
    | c :: rest =>
      if !isBreak c then ['-']
      else if isGap rest && (rest.isEmpty || (rest.head?.map isBreak).getD false) then ['+']
      else []
  indentation ++ chomp

/-- Write a scalar; `width` is the indentation of further lines. -/
def scalar (p : Pen) (width : Int) (style : Style) (cs : List Char) : Pen :=
  match style with
  | .plain =>
    let p := if p.spaced || cs.isEmpty then p else p.put [' ']
    (p.put cs).finish
  | .single =>
    let p := p.indicator ['\''] true false false
    ((singleBody width false p cs).indicator ['\''] false false false).finish
  | .double =>
    let p := p.indicator ['"'] true false false
    ((p.put (cs.flatMap escape)).indicator ['"'] false false false).finish
  | .literal =>
    let p := (p.indicator ['|'] true false false).indicator (literalHints cs) false false false
    literalBody width true { p.newline '\n' with fresh := true, spaced := true } cs

end Pen

/-! ## Nodes -/

/-- A character of a tag; all others are written as escaped bytes. -/
def tagChars (c : Char) : List Char :=
  if isTagChar true c && c != '%' then [c]
  else (encodeChar c).flatMap (fun b => '%' :: Pen.hexDigits 2 b.toNat)

/-- Where a node stands. -/
inductive Place where
  | root
  | item
  | key
  /-- a key that is short enough to stand in front of its colon -/
  | simpleKey
  | value
deriving DecidableEq, Repr

/-- The text of a scalar and the style asked for. -/
def scalarText : Value → Option (String × Style)
  | .null => some ("null", .plain)
  | .bool b => some (if b then "true" else "false", .plain)
  | .int n => some (toString n, .plain)
  | .float x => some (yamlLayout.write x, .plain)
  | .str s => some (s, wantedStyle s)
  | _ => none

/-- A key that fits in front of its colon. -/
def isSimpleKey : Value → Bool
  | .tagged t v =>
    match scalarText v with
    | some (s, _) => byteLength t + 1 + byteLength s ≤ 128 && !s.toList.any isBreak
    | none =>
      match v with
      | .sequence [] => true
      | .mapping [] => true
      | _ => false
  | .sequence items => items.isEmpty
  | .mapping entries => entries.isEmpty
  | v =>
    match scalarText v with
    | some (s, _) => byteLength s ≤ 128 && !s.toList.any isBreak
    | none => false

/-- The indentation of a collection inside one of another indentation. -/
def deeper (indent : Int) : Int := if indent < 0 then 0 else indent + 2

mutual
/-- Write a node inside a collection with an indentation. -/
def writeNode (p : Pen) (indent : Int) (place : Place) : Value → Pen
  | .tagged t v =>
    let p := p.indicator ('!' :: t.toList.flatMap tagChars) true false false
    writeNode p indent place v
  | .sequence [] => (p.indicator ['['] true true false).indicator [']'] false false false
  | .mapping [] => (p.indicator ['{'] true true false).indicator ['}'] false false false
  | .sequence (v :: rest) =>
    let inMapping := place = .key || place = .simpleKey || place = .value
    let inner := if inMapping && !p.fresh && 0 ≤ indent then indent else deeper indent
    writeItems p inner (v :: rest)
  | .mapping (e :: rest) => writeEntries p (deeper indent) (e :: rest)
  | v =>
    match scalarText v with
    | some (s, wanted) =>
      let cs := s.toList
      let width := if indent < 0 then 2 else indent + 2
      p.scalar width (chooseStyle wanted (place = .simpleKey) cs) cs
    | none => p

def writeItems (p : Pen) (indent : Int) : List Value → Pen
  | [] => p
  | v :: rest =>
    let p := (p.indent indent).indicator ['-'] true false true
    writeItems (writeNode p indent .item v) indent rest

def writeEntries (p : Pen) (indent : Int) : List (Value × Value) → Pen
  | [] => p
  | (k, v) :: rest =>
    let p := p.indent indent
    let p :=
      if isSimpleKey k then (writeNode p indent .simpleKey k).indicator [':'] false false false
      else
        let p := writeNode (p.indicator ['?'] true false true) indent .key k
        (p.indent indent).indicator [':'] true false true
    writeEntries (writeNode p indent .value v) indent rest
end

/-- The text of a value, without blanks at its end. -/
def write (v : Value) : String :=
  String.ofList (trimEndChars (writeNode {} (-1) .root v).out.reverse)

end DiceHost.Yaml
