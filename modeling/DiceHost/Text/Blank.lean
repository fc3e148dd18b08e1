/-! # Blank characters and trimming

A character is blank when it has the Unicode property `White_Space`. Names,
command lines, formulas and configuration values are trimmed with this notion;
the narrower ASCII set is what the literal reader and the document readers skip.
-/
namespace DiceHost.Text

/-- The Unicode property `White_Space`. -/
def isBlank (c : Char) : Bool :=
  let n := c.toNat
  (9 ≤ n && n ≤ 13) || n == 0x20 || n == 0x85 || n == 0xA0 || n == 0x1680 ||
    (0x2000 ≤ n && n ≤ 0x200A) || n == 0x2028 || n == 0x2029 || n == 0x202F ||
    n == 0x205F || n == 0x3000

/-- Space, tab, line feed, form feed and carriage return. -/
def isAsciiBlank (c : Char) : Bool :=
  c == ' ' || c == '\t' || c == '\n' || c == '\r' || c.toNat == 12

/-- Drop the matching characters at the end. -/
def dropWhileEnd (p : Char → Bool) (cs : List Char) : List Char :=
  (cs.reverse.dropWhile p).reverse

def trimStartChars (cs : List Char) : List Char := cs.dropWhile isBlank

def trimEndChars (cs : List Char) : List Char := dropWhileEnd isBlank cs

def trimChars (cs : List Char) : List Char := trimEndChars (trimStartChars cs)

/-- Remove blank characters at both ends. -/
def trim (s : String) : String := String.ofList (trimChars s.toList)

def trimEnd (s : String) : String := String.ofList (trimEndChars s.toList)

/-- Nothing but blank characters. -/
def isBlankText (s : String) : Bool := s.toList.all isBlank

end DiceHost.Text
