import DiceHost.Decimal.Numeral
import DiceHost.Text.Split
import DiceHost.Text.Utf8

/-! # Cutting YAML into tokens

Indentation, flow brackets and indicators become explicit tokens. A key of a mapping has no
indicator of its own: whatever may be a key is remembered with the number of its first
token, and when the colon follows, the tokens that open the mapping and the key are put in
at that number. Text that cannot be cut has no tokens; there are no messages.
-/
namespace DiceHost.Yaml
open DiceHost.Text DiceHost.Decimal

/-- The tokens of a YAML document. -/
inductive Token where
  | version (major minor : Nat)
  /-- a tag directive: a handle and what it stands for -/
  | tagHandle (handle expansion : String)
  | documentStart
  | documentEnd
  | blockSequence
  | blockMapping
  | blockEnd
  | flowSequence
  | flowSequenceEnd
  | flowMapping
  | flowMappingEnd
  | entry
  | comma
  | key
  | value
  | alias (name : String)
  | anchor (name : String)
  | tag (handle suffix : String)
  | scalar (text : String) (plain : Bool)
  | streamEnd
deriving DecidableEq, Repr, Inhabited

/-! ## Characters -/

def isSpaceOrTab (c : Char) : Bool := c == ' ' || c == '\t'

def isBreak (c : Char) : Bool :=
  c == '\r' || c == '\n' || c.toNat == 0x85 || c.toNat == 0x2028 || c.toNat == 0x2029

/-- The end of the input, a space, a tab or a line break. -/
def isGap : List Char → Bool
  | [] => true
  | c :: _ => isSpaceOrTab c || isBreak c

def isBreakOrEnd : List Char → Bool
  | [] => true
  | c :: _ => isBreak c

def isNameChar (c : Char) : Bool := isAsciiAlphanumeric c || c == '_' || c == '-'

/-- The characters that a document may hold. -/
def isAllowed (c : Char) : Bool :=
  let n := c.toNat
  n == 9 || n == 10 || n == 13 || (0x20 ≤ n && n ≤ 0x7E) || n == 0x85 ||
    (0xA0 ≤ n && n ≤ 0xD7FF) || (0xE000 ≤ n && n ≤ 0xFFFD) || 0x10000 ≤ n

/-! ## The cursor -/

/-- A place in the input. -/
structure Cursor where
  rest : List Char
  line : Nat
  column : Nat
  index : Nat
deriving Inhabited

/-- Step over characters that are not line breaks. -/
def Cursor.skip (c : Cursor) (n : Nat) : Cursor :=
  { c with rest := c.rest.drop n, column := c.column + n, index := c.index + n }

def Cursor.head? (c : Cursor) : Option Char := c.rest.head?

def Cursor.at (c : Cursor) (d : Char) : Bool := c.rest.head? == some d

/-- Step over a line break, if there is one, and give it as it counts in a scalar. -/
def Cursor.takeBreak (c : Cursor) : List Char × Cursor :=
  match c.rest with
  | '\r' :: '\n' :: rest => (['\n'], ⟨rest, c.line + 1, 0, c.index + 2⟩)
  | d :: rest =>
    if isBreak d then
      let kept := if d.toNat == 0x2028 || d.toNat == 0x2029 then d else '\n'
      ([kept], ⟨rest, c.line + 1, 0, c.index + 1⟩)
    else ([], c)
  | [] => ([], c)

/-- Step over the characters at the cursor that satisfy a condition; none is a line break. -/
def Cursor.takeWhile (c : Cursor) (p : Char → Bool) : List Char × Cursor :=
  let (taken, rest) := c.rest.span p
  (taken, { c with rest := rest, column := c.column + taken.length,
                   index := c.index + taken.length })

def Cursor.skipWhile (c : Cursor) (p : Char → Bool) : Cursor := (c.takeWhile p).2

/-- A document marker stands at the start of a line. -/
def Cursor.atMarker (c : Cursor) : Bool :=
  c.column = 0 &&
    match c.rest with
    | '-' :: '-' :: '-' :: rest => isGap rest
    | '.' :: '.' :: '.' :: rest => isGap rest
    | _ => false

/-! ## Scalars -/

/-- Blanks and line breaks that were passed inside a scalar. -/
structure Pause where
  /-- the blanks, reversed, as long as no line break came -/
  blanks : List Char := []
  /-- a line break was passed -/
  broken : Bool := false
  /-- the first line break -/
  first : List Char := []
  /-- the further line breaks, reversed -/
  more : List Char := []

/-- What a pause contributes to the reversed text of a scalar: one line feed folds into a
space, or vanishes before further ones. -/
def Pause.push (p : Pause) (out : List Char) : List Char :=
  if p.broken then
    if p.first == ['\n'] then (if p.more.isEmpty then ' ' :: out else p.more ++ out)
    else p.more ++ p.first.reverse ++ out
  else p.blanks ++ out

/-- Pass blanks and line breaks. `tabs` is the column before which no tab may stand. -/
def passBlanks (tabs : Nat) : Nat → Pause → Cursor → Option (Pause × Cursor)
  | 0, p, c => some (p, c)
  | fuel + 1, p, c =>
    match c.rest with
    | [] => some (p, c)
    | d :: _ =>
      if isSpaceOrTab d then
        if p.broken then
          if d == '\t' && c.column < tabs then none else passBlanks tabs fuel p (c.skip 1)
        else passBlanks tabs fuel { p with blanks := d :: p.blanks } (c.skip 1)
      else if isBreak d then
        let (b, c) := c.takeBreak
        if p.broken then passBlanks tabs fuel { p with more := b.reverse ++ p.more } c
        else passBlanks tabs fuel { p with broken := true, first := b, blanks := [] } c
      else some (p, c)

/-- The characters that end a plain scalar inside brackets. -/
def isFlowMark (c : Char) : Bool := c == ',' || c == '[' || c == ']' || c == '{' || c == '}'

/-- The characters of a plain scalar up to a gap or an indicator; `none` when a colon in
brackets is followed by an indicator. -/
def plainRun (flow : Bool) (out : List Char) : List Char → Option (List Char × List Char)
  | [] => some (out, [])
  | d :: rest =>
    if isSpaceOrTab d || isBreak d then some (out, d :: rest)
    else if flow && d == ':' && (rest.head?.map (fun e => isFlowMark e || e == '?')).getD false then
      none
    else if (d == ':' && isGap rest) || (flow && isFlowMark d) then some (out, d :: rest)
    else plainRun flow (d :: out) rest

/-- A plain scalar, onto its reversed text. The result tells whether a line break was passed
at the end. -/
def plainScalar (flow : Bool) (indent : Nat) :
    Nat → List Char → Pause → Cursor → Option (String × Bool × Cursor)
  | 0, _, _, _ => none
  | fuel + 1, out, pause, c =>
    let finish := some (String.ofList out.reverse, pause.broken, c)
    if c.atMarker || c.at '#' then finish
    else
      match plainRun flow [] c.rest with
      | none => none
      | some (run, rest) =>
        let c' : Cursor := { c with rest := rest, column := c.column + run.length,
                                    index := c.index + run.length }
        let out := if run.isEmpty then out else run ++ pause.push out
        let pause := if run.isEmpty then pause else {}
        match rest with
        | d :: _ =>
          if isSpaceOrTab d || isBreak d then
            match passBlanks indent fuel pause c' with
            | none => none
            | some (pause, c) =>
              if !flow && c.column < indent then
                some (String.ofList out.reverse, pause.broken, c)
              else plainScalar flow indent fuel out pause c
          else some (String.ofList out.reverse, pause.broken, c')
        | [] => some (String.ofList out.reverse, pause.broken, c')

/-- A character given by a number of hexadecimal digits. -/
def codePoint (width : Nat) (cs : List Char) : Option Char :=
  let ds := cs.take width
  let n := natOfBase 16 ds
  if ds.length = width && ds.all isHexDigit && (n < 0xD800 || (0xE000 ≤ n && n < 0x110000)) then
    some (Char.ofNat n)
  else none

/-- The character that an escape stands for, and the number of characters after the
backslash. -/
def escape? : List Char → Option (Char × Nat)
  | '0' :: _ => some (Char.ofNat 0, 1)
  | 'a' :: _ => some (Char.ofNat 7, 1)
  | 'b' :: _ => some (Char.ofNat 8, 1)
  | 't' :: _ => some ('\t', 1)
  | '\t' :: _ => some ('\t', 1)
  | 'n' :: _ => some ('\n', 1)
  | 'v' :: _ => some (Char.ofNat 11, 1)
  | 'f' :: _ => some (Char.ofNat 12, 1)
  | 'r' :: _ => some ('\r', 1)
  | 'e' :: _ => some (Char.ofNat 27, 1)
  | ' ' :: _ => some (' ', 1)
  | '"' :: _ => some ('"', 1)
  | '/' :: _ => some ('/', 1)
  | '\\' :: _ => some ('\\', 1)
  | 'N' :: _ => some (Char.ofNat 0x85, 1)
  | '_' :: _ => some (Char.ofNat 0xA0, 1)
  | 'L' :: _ => some (Char.ofNat 0x2028, 1)
  | 'P' :: _ => some (Char.ofNat 0x2029, 1)
  | 'x' :: rest => (codePoint 2 rest).map (fun c => (c, 3))
  | 'u' :: rest => (codePoint 4 rest).map (fun c => (c, 5))
  | 'U' :: rest => (codePoint 8 rest).map (fun c => (c, 9))
  | _ => none

/-- The rest of a quoted scalar, onto its reversed text. -/
def quotedScalar (quote : Char) : Nat → List Char → Pause → Cursor → Option (String × Cursor)
  | 0, _, _, _ => none
  | fuel + 1, out, pause, c =>
    if c.atMarker then none
    else
      match c.rest with
      | [] => none
      | d :: rest =>
        if isSpaceOrTab d || isBreak d then
          match passBlanks 0 fuel pause c with
          | none => none
          | some (pause, c) => quotedScalar quote fuel out pause c
        else
          let out := pause.push out
          if d == quote then
            if quote == '\'' && rest.head? == some '\'' then
              quotedScalar quote fuel ('\'' :: out) {} (c.skip 2)
            else some (String.ofList out.reverse, c.skip 1)
          else if d == '\\' && quote == '"' then
            if !rest.isEmpty && isBreakOrEnd rest then
              let (_, c) := (c.skip 1).takeBreak
              quotedScalar quote fuel out { broken := true } c
            else
              match escape? rest with
              | some (e, n) => quotedScalar quote fuel (e :: out) {} (c.skip (n + 1))
              | none => none
          else quotedScalar quote fuel (d :: out) {} (c.skip 1)

/-- Pass the indentation of a block scalar. An indentation of zero is not known yet. The
result is the line breaks passed, reversed, and the greatest column seen. -/
def passIndentation (indent : Nat) :
    Nat → Nat → List Char → Cursor → Option (Nat × List Char × Cursor)
  | 0, deepest, breaks, c => some (deepest, breaks, c)
  | fuel + 1, deepest, breaks, c =>
    let spaces := (c.rest.takeWhile (· == ' ')).length
    let c := c.skip (if indent = 0 then spaces else min spaces (indent - c.column))
    let deepest := max deepest c.column
    if (indent = 0 || c.column < indent) && c.at '\t' then none
    else
      match c.takeBreak with
      | ([], c) => some (deepest, breaks, c)
      | (b, c) => passIndentation indent fuel deepest (b.reverse ++ breaks) c

/-- The text of a block scalar that is complete up to the last line. -/
structure Block where
  /-- the text, reversed -/
  out : List Char := []
  /-- the line break after the last line -/
  last : List Char := []
  /-- the line breaks after it, reversed -/
  trailing : List Char := []
  /-- the last line starts with a blank -/
  blank : Bool := false

/-- The lines of a block scalar. -/
def blockLines (literal : Bool) (indent : Nat) : Nat → Block → Cursor → Option (Block × Cursor)
  | 0, b, c => some (b, c)
  | fuel + 1, b, c =>
    if c.column = indent && !c.rest.isEmpty then
      let blank := (c.head?.map isSpaceOrTab).getD false
      let out :=
        if !literal && b.last == ['\n'] && !b.blank && !blank then
          if b.trailing.isEmpty then ' ' :: b.out else b.out
        else b.last.reverse ++ b.out
      let (line, c) := c.takeWhile (fun d => !isBreak d)
      let (last, c) := c.takeBreak
      match passIndentation indent fuel 0 [] c with
      | none => none
      | some (_, trailing, c) =>
        blockLines literal indent fuel
          ⟨line.reverse ++ (b.trailing ++ out), last, trailing, blank⟩ c
    else some (b, c)

/-- How a block scalar ends. -/
inductive Chomp where
  | strip | clip | keep
deriving DecidableEq, Repr

/-- The indicators after `|` or `>`: how the scalar ends, and its indentation, zero when it is
not given. -/
def blockHeader (c : Cursor) : Option (Chomp × Nat × Cursor) :=
  let chomp? (c : Cursor) : Option (Chomp × Cursor) :=
    if c.at '+' then some (.keep, c.skip 1)
    else if c.at '-' then some (.strip, c.skip 1)
    else none
  let digit? (c : Cursor) : Option (Nat × Cursor) :=
    match c.head? with
    | some d => if isAsciiDigit d then some (digitValue d, c.skip 1) else none
    | none => none
  match chomp? c with
  | some (chomp, c) =>
    match digit? c with
    | some (0, _) => none
    | some (n, c) => some (chomp, n, c)
    | none => some (chomp, 0, c)
  | none =>
    match digit? c with
    | some (0, _) => none
    | some (n, c) =>
      match chomp? c with
      | some (chomp, c) => some (chomp, n, c)
      | none => some (.clip, n, c)
    | none => some (.clip, 0, c)

/-- A block scalar after its indicator; `indent` is the indentation around it. -/
def blockScalar (literal : Bool) (indent : Int) (limit : Nat) (c : Cursor) :
    Option (String × Cursor) :=
  match blockHeader c with
  | none => none
  | some (chomp, given, c) =>
    let c := c.skipWhile isSpaceOrTab
    let c := if c.at '#' then c.skipWhile (fun d => !isBreak d) else c
    if !isBreakOrEnd c.rest then none
    else
      let c := c.takeBreak.2
      let known := if given = 0 then 0 else if 0 ≤ indent then indent.toNat + given else given
      match passIndentation known limit 0 [] c with
      | none => none
      | some (deepest, breaks, c) =>
        let level := if known = 0 then max deepest (max (indent + 1).toNat 1) else known
        match blockLines literal level limit { trailing := breaks } c with
        | none => none
        | some (b, c) =>
          let out := if chomp = .strip then b.out else b.last.reverse ++ b.out
          let out := if chomp = .keep then b.trailing ++ out else out
          some (String.ofList out.reverse, c)

/-! ## Names, tags and directives -/

/-- The name after `&` or `*`. -/
def anchorName (c : Cursor) : Option (String × Cursor) :=
  let (name, c) := c.takeWhile isNameChar
  let ends := isGap c.rest ||
    (match c.head? with
      | some d => ['?', ':', ',', ']', '}', '%', '@', '`'].contains d
      | none => true)
  if name.isEmpty || !ends then none else some (String.ofList name, c)

/-- The characters of a tag; `verbatim` tags also hold brackets and commas. -/
def isTagChar (verbatim : Bool) (c : Char) : Bool :=
  isNameChar c || (";/?:@&=+$.!~*'()%".toList).contains c ||
    (verbatim && (c == ',' || c == '[' || c == ']'))

/-- Bytes with the escaped ones put in. -/
def unescapeTag : List Char → Option (List UInt8)
  | [] => some []
  | '%' :: a :: b :: rest =>
    match hexValue? a, hexValue? b with
    | some a, some b => (unescapeTag rest).map (UInt8.ofNat (a * 16 + b) :: ·)
    | _, _ => none
  | '%' :: _ => none
  | c :: rest => (unescapeTag rest).map (encodeChar c ++ ·)

/-- A run of tag characters after `head`; together they must not be empty. -/
def tagRun (verbatim : Bool) (head : List Char) (c : Cursor) : Option (String × Cursor) :=
  let (run, c) := c.takeWhile (isTagChar verbatim)
  if head.isEmpty && run.isEmpty then none
  else
    match (unescapeTag run).bind decode? with
    | some text => some (String.ofList (head.drop 1 ++ text), c)
    | none => none

/-- A handle: an exclamation mark, name characters, and possibly a second mark. -/
def tagHandle (c : Cursor) : List Char × Cursor :=
  let (name, after) := (c.skip 1).takeWhile isNameChar
  if after.at '!' then ('!' :: (name ++ ['!']), after.skip 1) else ('!' :: name, after)

/-- A tag: its handle and its suffix. -/
def tagToken (flow : Bool) (c : Cursor) : Option (Token × Cursor) :=
  let found : Option (Token × Cursor) :=
    match c.rest with
    | '!' :: '<' :: _ =>
      match tagRun true [] (c.skip 2) with
      | some (suffix, c) => if c.at '>' then some (.tag "" suffix, c.skip 1) else none
      | none => none
    | _ =>
      let (handle, after) := tagHandle c
      if 1 < handle.length && handle.getLast? == some '!' then
        (tagRun false [] after).map
          (fun (suffix, c) => (.tag (String.ofList handle) suffix, c))
      else
        (tagRun false handle after).map (fun (suffix, c) =>
          if suffix.isEmpty then (.tag "" "!", c) else (.tag "!" suffix, c))
  match found with
  | some (t, c) => if isGap c.rest || (flow && c.at ',') then some (t, c) else none
  | none => none

/-- A number of a version, of at most nine digits. -/
def versionNumber (c : Cursor) : Option (Nat × Cursor) :=
  let (ds, c) := c.takeWhile isAsciiDigit
  if ds.isEmpty || 9 < ds.length then none else some (natOf ds, c)

/-- A directive after `%`, with the rest of its line. -/
def directive (c : Cursor) : Option (Token × Cursor) :=
  let (name, c) := c.takeWhile isNameChar
  let body : Option (Token × Cursor) :=
    if name == "YAML".toList then
      match versionNumber (c.skipWhile isSpaceOrTab) with
      | some (major, c) =>
        if c.at '.' then
          (versionNumber (c.skip 1)).map (fun (minor, c) => (.version major minor, c))
        else none
      | none => none
    else if name == "TAG".toList then
      let c := c.skipWhile isSpaceOrTab
      if !c.at '!' then none
      else
        let (handle, c) := tagHandle c
        if (1 < handle.length && handle.getLast? != some '!') ||
            !(c.head?.map isSpaceOrTab).getD false then none
        else
          match tagRun true [] (c.skipWhile isSpaceOrTab) with
          | some (expansion, c) =>
            if isGap c.rest then some (.tagHandle (String.ofList handle) expansion, c) else none
          | none => none
    else none
  if name.isEmpty || !isGap c.rest then none
  else
    match body with
    | none => none
    | some (t, c) =>
      let c := c.skipWhile isSpaceOrTab
      let c := if c.at '#' then c.skipWhile (fun d => !isBreak d) else c
      if isBreakOrEnd c.rest then some (t, c.takeBreak.2) else none

/-! ## The scanner -/

/-- Something that may turn out to be a key. -/
structure SimpleKey where
  /-- whether it still may -/
  possible : Bool
  /-- whether it must -/
  required : Bool
  /-- the number of its first token -/
  number : Nat
  line : Nat
  column : Nat
  index : Nat
deriving Inhabited

def SimpleKey.none : SimpleKey := ⟨false, false, 0, 0, 0, 0⟩

/-- The state of the scanner. -/
structure Scanner where
  cursor : Cursor
  /-- the tokens so far, reversed -/
  tokens : List Token := []
  count : Nat := 0
  indent : Int := -1
  indents : List Int := []
  /-- the nesting of flow brackets -/
  flow : Nat := 0
  keyAllowed : Bool := true
  key : SimpleKey := .none
  /-- the keys of the surrounding flow levels -/
  outer : List SimpleKey := []
deriving Inhabited

namespace Scanner

def push (s : Scanner) (t : Token) : Scanner :=
  { s with tokens := t :: s.tokens, count := s.count + 1 }

/-- Put tokens in, the latest first, before the token with a number. -/
def splice (s : Scanner) (number : Nat) (ts : List Token) : Scanner :=
  let after := s.count - number
  { s with tokens := s.tokens.take after ++ ts ++ s.tokens.drop after
           count := s.count + ts.length }

/-- Close the blocks that are indented more than a column. -/
def unroll (s : Scanner) (column : Int) : Scanner :=
  if s.flow ≠ 0 then s
  else s.indents.foldl (fun s outer =>
    if column < s.indent then
      { (s.push .blockEnd) with indent := outer, indents := s.indents.drop 1 }
    else s) s

/-- Forget the key of this level; it is an error if it is required. -/
def dropKey (s : Scanner) : Option Scanner :=
  if s.key.possible && s.key.required then none
  else some { s with key := { s.key with possible := false } }

/-- Remember that a key may start here. -/
def saveKey (s : Scanner) : Option Scanner :=
  if s.keyAllowed then
    let required := s.flow = 0 && s.indent == (s.cursor.column : Int)
    s.dropKey.map (fun s => { s with
      key := ⟨true, required, s.count, s.cursor.line, s.cursor.column, s.cursor.index⟩ })
  else some s

/-- Open a block at a column unless one is open there: the tokens come at the end. -/
def roll (s : Scanner) (column : Nat) (t : Token) : Scanner :=
  if s.flow = 0 && s.indent < (column : Int) then
    { (s.push t) with indent := column, indents := s.indent :: s.indents }
  else s

/-- A key is over when its line is over or it is too long. -/
def expired (c : Cursor) (k : SimpleKey) : Bool :=
  k.possible && (k.line < c.line || k.index + 1024 < c.index)

/-- Forget the keys that are over; it is an error if one of them is required. -/
def expire (s : Scanner) : Option Scanner :=
  let stale (k : SimpleKey) : Option SimpleKey :=
    if expired s.cursor k then
      (if k.required then Option.none else some { k with possible := false })
    else some k
  match stale s.key, s.outer.mapM stale with
  | some key, some outer => some { s with key := key, outer := outer }
  | _, _ => none

/-- Pass blanks, comments and line breaks. -/
def toNext : Nat → Scanner → Scanner
  | 0, s => s
  | fuel + 1, s =>
    let c := s.cursor
    let c := if c.index = 0 && (c.head?.map Char.toNat) == some 0xFEFF then c.skip 1 else c
    let c := c.skipWhile (fun d => d == ' ' || ((s.flow ≠ 0 || !s.keyAllowed) && d == '\t'))
    let c := if c.at '#' then c.skipWhile (fun d => !isBreak d) else c
    match c.takeBreak with
    | ([], c) => { s with cursor := c }
    | (_, c) =>
      toNext fuel { s with cursor := c, keyAllowed := if s.flow = 0 then true else s.keyAllowed }

/-- Push a token of a number of characters. -/
def mark (s : Scanner) (n : Nat) (t : Token) : Scanner :=
  { s with cursor := s.cursor.skip n }.push t

/-- The end of the input. -/
def finish (s : Scanner) : Option (List Token) :=
  ((s.unroll (-1)).dropKey).map (fun s => (s.push .streamEnd).tokens.reverse)

/-- A document marker. -/
def marker (s : Scanner) (t : Token) : Option Scanner :=
  ((s.unroll (-1)).dropKey).map (fun s => { s with keyAllowed := false }.mark 3 t)

def openFlow (s : Scanner) (t : Token) : Option Scanner :=
  s.saveKey.map (fun s =>
    { s with outer := s.key :: s.outer, key := .none, flow := s.flow + 1,
             keyAllowed := true }.mark 1 t)

def closeFlow (s : Scanner) (t : Token) : Option Scanner :=
  s.dropKey.map (fun s =>
    let s := match s.outer with
      | k :: outer =>
        if s.flow = 0 then s else { s with key := k, outer := outer, flow := s.flow - 1 }
      | [] => s
    { s with keyAllowed := false }.mark 1 t)

def blockEntry (s : Scanner) : Option Scanner :=
  if s.flow = 0 && !s.keyAllowed then none
  else (s.roll s.cursor.column .blockSequence).dropKey.map
    (fun s => { s with keyAllowed := true }.mark 1 .entry)

def explicitKey (s : Scanner) : Option Scanner :=
  if s.flow = 0 && !s.keyAllowed then none
  else (s.roll s.cursor.column .blockMapping).dropKey.map
    (fun s => { s with keyAllowed := s.flow = 0 }.mark 1 .key)

def valueMark (s : Scanner) : Option Scanner :=
  if s.key.possible then
    let k := s.key
    let opens := s.flow = 0 && s.indent < (k.column : Int)
    let s := s.splice k.number (if opens then [.key, .blockMapping] else [.key])
    let s := if opens then { s with indent := k.column, indents := s.indent :: s.indents } else s
    some ({ s with key := { k with possible := false }, keyAllowed := false }.mark 1 .value)
  else if s.flow = 0 && !s.keyAllowed then none
  else
    let s := s.roll s.cursor.column .blockMapping
    some ({ s with keyAllowed := s.flow = 0 }.mark 1 .value)

/-- A token that may start a key. -/
def keyToken (s : Scanner) (read : Cursor → Option (Token × Cursor)) : Option Scanner :=
  match s.saveKey with
  | none => none
  | some s =>
    (read s.cursor).map (fun (t, c) => { s with cursor := c, keyAllowed := false }.push t)

/-- A plain scalar may start with any character that is not an indicator, and with some
indicators when no gap follows. -/
def startsPlain (flow : Bool) (d : Char) (rest : List Char) : Bool :=
  let indicators := "-?:,[]{}#&*!|>'\"%@`".toList
  !(isSpaceOrTab d || isBreak d || indicators.contains d) ||
    (d == '-' && !(rest.head?.map isSpaceOrTab).getD false) ||
    (!flow && (d == '?' || d == ':') && !isGap rest)

/-- Read the next token that starts with a character. -/
def token (limit : Nat) (s : Scanner) (d : Char) (rest : List Char) : Option Scanner :=
  let flow := s.flow ≠ 0
  let c := s.cursor
  if c.column = 0 && d == '%' then
    ((s.unroll (-1)).dropKey).bind (fun s =>
      (directive (s.cursor.skip 1)).map (fun (t, c) =>
        { s with cursor := c, keyAllowed := false }.push t))
  else if c.atMarker then s.marker (if d == '-' then .documentStart else .documentEnd)
  else if d == '[' then s.openFlow .flowSequence
  else if d == '{' then s.openFlow .flowMapping
  else if d == ']' then s.closeFlow .flowSequenceEnd
  else if d == '}' then s.closeFlow .flowMappingEnd
  else if d == ',' then
    s.dropKey.map (fun s => { s with keyAllowed := true }.mark 1 .comma)
  else if d == '-' && isGap rest then s.blockEntry
  else if d == '?' && (flow || isGap rest) then s.explicitKey
  else if d == ':' && (flow || isGap rest) then s.valueMark
  else if d == '*' then
    s.keyToken (fun c => (anchorName (c.skip 1)).map (fun (n, c) => (.alias n, c)))
  else if d == '&' then
    s.keyToken (fun c => (anchorName (c.skip 1)).map (fun (n, c) => (.anchor n, c)))
  else if d == '!' then s.keyToken (tagToken flow)
  else if (d == '|' || d == '>') && !flow then
    s.dropKey.bind (fun s =>
      (blockScalar (d == '|') s.indent limit (s.cursor.skip 1)).map (fun (text, c) =>
        { s with cursor := c, keyAllowed := true }.push (.scalar text false)))
  else if d == '\'' || d == '"' then
    s.keyToken (fun c =>
      (quotedScalar d limit [] {} (c.skip 1)).map (fun (text, c) => (.scalar text false, c)))
  else if startsPlain flow d rest then
    s.saveKey.bind (fun s =>
      (plainScalar flow (s.indent + 1).toNat limit [] {} s.cursor).map (fun (text, broken, c) =>
        { s with cursor := c, keyAllowed := broken }.push (.scalar text true)))
  else none

/-- Read tokens up to the end of the input. -/
def run (limit : Nat) : Nat → Scanner → Option (List Token)
  | 0, _ => none
  | fuel + 1, s =>
    match (s.toNext limit).expire with
    | none => none
    | some s =>
      let s := s.unroll s.cursor.column
      match s.cursor.rest with
      | [] => s.finish
      | d :: rest => (s.token limit d rest).bind (run limit fuel)

end Scanner

/-- The tokens of a text. -/
def tokens (text : String) : Option (List Token) :=
  let cs := text.toList
  if cs.all isAllowed then
    let limit := cs.length + 2
    Scanner.run limit (2 * limit) { cursor := ⟨cs, 0, 0, 0⟩ }
  else none

end DiceHost.Yaml
