import DiceHost.Decimal.Numeral
import DiceHost.Text.Split

/-! # Reading markup

The reader turns markup into a list of events. It checks that tags are closed in the order
in which they were opened, but not that they are closed at all, nor that there is only one
outermost element. Blanks at both ends of a text are dropped; comments, processing
instructions and document types leave no event, but they end a text. Attributes and
entities are looked at only when somebody asks for them.
-/
namespace DiceHost.Xml
open DiceHost.Text DiceHost.Decimal

/-- A step through the markup. Attributes and text are still as written. -/
inductive Event where
  | start (name attributes : List Char)
  /-- a tag that closes itself -/
  | empty (name attributes : List Char)
  | close (name : List Char)
  | text (raw : List Char)
  | cdata (content : List Char)
deriving DecidableEq, Repr

def isSpace (c : Char) : Bool := c == ' ' || c == '\r' || c == '\n' || c == '\t'

/-- The characters before and after the first occurrence of a mark. -/
def cutAt (mark : List Char) (acc : List Char) : List Char → Option (List Char × List Char)
  | [] => none
  | c :: rest =>
    match stripPrefixChars mark (c :: rest) with
    | some after => some (acc.reverse, after)
    | none => cutAt mark (c :: acc) rest

/-- The inside of a tag up to the first `>` that is not quoted. -/
def tagBody (quote : Option Char) (acc : List Char) : List Char → Option (List Char × List Char)
  | [] => none
  | c :: rest =>
    match quote with
    | some q => tagBody (if c == q then none else quote) (c :: acc) rest
    | none =>
      if c == '>' then some (acc.reverse, rest)
      else tagBody (if c == '"' || c == '\'' then some c else none) (c :: acc) rest

/-- The inside of a document type; angle brackets inside must be balanced. -/
def doctypeBody (depth : Nat) (acc : List Char) : List Char → Option (List Char × List Char)
  | [] => none
  | c :: rest =>
    if c == '<' then doctypeBody (depth + 1) (c :: acc) rest
    else if c == '>' then
      match depth with
      | 0 => some (acc.reverse, rest)
      | n + 1 => doctypeBody n (c :: acc) rest
    else doctypeBody depth (c :: acc) rest

/-- The rest after a document type, which must have a name. -/
def doctype (cs : List Char) : Option (List Char) :=
  match doctypeBody 0 [] cs with
  | some (body, rest) =>
    match stripPrefix "doctype" (lowerAscii (String.ofList body)) with
    | some name => if name.toList.all isSpace then none else some rest
    | none => none
  | none => none

/-- The name at the start of a tag, and the rest. -/
def splitName (body : List Char) : List Char × List Char := body.span (fun c => !isSpace c)

/-- The event of an opening tag. -/
def tagEvent (body : List Char) : Event :=
  match body.reverse with
  | '/' :: inner =>
    let (name, attributes) := splitName inner.reverse
    .empty name attributes
  | _ =>
    let (name, attributes) := splitName body
    .start name attributes

/-- One piece of markup after its `<`: the event, if there is one, and the rest. -/
def markup : List Char → Option (Option Event × List Char)
  | '!' :: '-' :: '-' :: rest => (cutAt "-->".toList [] rest).map (fun (_, rest) => (none, rest))
  | '!' :: '[' :: 'C' :: 'D' :: 'A' :: 'T' :: 'A' :: '[' :: rest =>
    (cutAt "]]>".toList [] rest).map (fun (content, rest) => (some (.cdata content), rest))
  | '!' :: rest => (doctype rest).map (fun rest => (none, rest))
  | '?' :: '>' :: _ => none
  | '?' :: rest => (cutAt "?>".toList [] rest).map (fun (_, rest) => (none, rest))
  | '/' :: rest =>
    (cutAt ['>'] [] rest).map
      (fun (name, rest) => (some (.close (dropWhileEnd isSpace name)), rest))
  | rest => (tagBody none [] rest).map (fun (body, rest) => (some (tagEvent body), rest))

/-- The tags that are open after an event; a tag that closes another one is refused. -/
def track (opened : List (List Char)) : Event → Option (List (List Char))
  | .start name _ => some (name :: opened)
  | .close name =>
    match opened with
    | top :: rest => if top = name then some rest else none
    | [] => none
  | _ => some opened

/-- The events of a markup, onto a reversed list; `fuel` bounds their number. -/
def eventsOnto : Nat → List (List Char) → List Event → List Char → Option (List Event)
  | 0, _, _, _ => none
  | fuel + 1, opened, acc, cs =>
    match cs.dropWhile isSpace with
    | [] => some acc.reverse
    | '<' :: rest =>
      match markup rest with
      | none => none
      | some (none, rest) => eventsOnto fuel opened acc rest
      | some (some e, rest) =>
        match track opened e with
        | some opened => eventsOnto fuel opened (e :: acc) rest
        | none => none
    | cs =>
      let (raw, rest) := cs.span (· != '<')
      eventsOnto fuel opened (.text (dropWhileEnd isSpace raw) :: acc) rest

/-- The events of a whole text; a byte order mark may stand at its start. -/
def events (text : String) : Option (List Event) :=
  let cs := match text.toList with
    | c :: rest => if c.toNat = 0xFEFF then rest else c :: rest
    | [] => []
  eventsOnto (cs.length + 1) [] [] cs

/-- The character a reference names, without `&` and `;`. -/
def entity? (name : List Char) : Option Char :=
  let scalar (digits : Bool) (n : Nat) : Option Char :=
    if digits && n != 0 && (n < 0xD800 || (0xE000 ≤ n && n < 0x110000)) then
      some (Char.ofNat n)
    else none
  match name with
  | '#' :: 'x' :: ds => scalar (!ds.isEmpty && ds.all isHexDigit) (natOfBase 16 ds)
  | '#' :: ds => scalar (!ds.isEmpty && ds.all isAsciiDigit) (natOf ds)
  | _ =>
    if name == "lt".toList then some '<'
    else if name == "gt".toList then some '>'
    else if name == "amp".toList then some '&'
    else if name == "apos".toList then some '\''
    else if name == "quot".toList then some '"'
    else none

/-- Replace references, onto a reversed list; `name` is the reference that is open. -/
def unescapeOnto (acc : List Char) (name : Option (List Char)) : List Char → Option (List Char)
  | [] => if name.isNone then some acc.reverse else none
  | c :: rest =>
    match name with
    | none =>
      if c == '&' then unescapeOnto acc (some []) rest else unescapeOnto (c :: acc) none rest
    | some ds =>
      if c == ';' then
        match entity? ds.reverse with
        | some d => unescapeOnto (d :: acc) none rest
        | none => none
      else if c == '&' then none
      else unescapeOnto acc (some (c :: ds)) rest

/-- A text with its references replaced. -/
def unescape (cs : List Char) : Option (List Char) := unescapeOnto [] none cs

/-- One attribute: its key, its value as written, and the rest. -/
def attributePair (cs : List Char) : Option ((List Char × List Char) × List Char) :=
  match cs with
  | [] => none
  | c :: rest =>
    let (more, rest) := rest.span (fun c => c != '=' && !isSpace c)
    match rest.dropWhile isSpace with
    | '=' :: rest =>
      match rest.dropWhile isSpace with
      | quote :: rest =>
        if quote == '"' || quote == '\'' then
          (cutAt [quote] [] rest).map (fun (value, rest) => ((c :: more, value), rest))
        else none
      | [] => none
    | _ => none

/-- The attributes of a tag, onto a reversed list; a key must not occur twice. -/
def attributesOnto : Nat → List (String × String) → List Char → Option (List (String × String))
  | 0, _, _ => none
  | fuel + 1, acc, cs =>
    match cs.dropWhile isSpace with
    | [] => some acc.reverse
    | cs =>
      match attributePair cs with
      | none => none
      | some ((key, raw), rest) =>
        let key := String.ofList key
        if (acc.lookup key).isSome then none
        else
          match unescape raw with
          | some value => attributesOnto fuel ((key, String.ofList value) :: acc) rest
          | none => none

/-- The attributes of a tag. -/
def attributes (cs : List Char) : Option (List (String × String)) :=
  attributesOnto (cs.length + 1) [] cs

end DiceHost.Xml
