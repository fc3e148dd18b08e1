import DiceHost.Text.Blank

/-! # Cutting text into pieces

All cuts work on character lists; the `String` versions only convert.
-/
namespace DiceHost.Text

/-- Cut at the first matching character, which belongs to neither side. -/
def cutFirst (p : Char → Bool) (cs : List Char) : Option (List Char × List Char) :=
  match cs.span (fun c => !p c) with
  | (before, _ :: after) => some (before, after)
  | (_, []) => none

/-- Cut at the last matching character, which belongs to neither side. -/
def cutLast (p : Char → Bool) (cs : List Char) : Option (List Char × List Char) :=
  (cutFirst p cs.reverse).map (fun (after, before) => (before.reverse, after.reverse))

/-- One step of `pieces`, read from the right: the piece under construction is the head. -/
def pushPiece (p : Char → Bool) (c : Char) (parts : List (List Char)) : List (List Char) :=
  if p c then [] :: parts
  else match parts with
    | [] => [[c]]
    | part :: rest => (c :: part) :: rest

/-- The pieces between matching characters; there is always at least one. -/
def pieces (p : Char → Bool) (cs : List Char) : List (List Char) :=
  cs.foldr (pushPiece p) [[]]

def splitAtChar (separator : Char) (s : String) : List String :=
  (pieces (· == separator) s.toList).map String.ofList

/-- The rest of a text after a prefix. -/
def stripPrefixChars : List Char → List Char → Option (List Char)
  | [], cs => some cs
  | _ :: _, [] => none
  | p :: ps, c :: cs => if p = c then stripPrefixChars ps cs else none

def stripPrefix (lead s : String) : Option String :=
  (stripPrefixChars lead.toList s.toList).map String.ofList

/-- The text before a suffix. -/
def stripSuffix (tail s : String) : Option String :=
  (stripPrefixChars tail.toList.reverse s.toList.reverse).map
    (fun rest => String.ofList rest.reverse)

def startsWith (lead s : String) : Bool := (stripPrefix lead s).isSome

def endsWith (tail s : String) : Bool := (stripSuffix tail s).isSome

/-- The text before the first line break, which is a line feed or both break characters. -/
def firstLine (s : String) : String :=
  match s.toList.span (· != '\n') with
  | (line, []) => String.ofList line
  | (line, _ :: _) =>
    match line.reverse with
    | '\r' :: rest => String.ofList rest.reverse
    | _ => String.ofList line

def join (separator : String) (parts : List String) : String :=
  String.intercalate separator parts

/-- Repeat a text. -/
def replicate (count : Nat) (s : String) : String :=
  String.join (List.replicate count s)

end DiceHost.Text
