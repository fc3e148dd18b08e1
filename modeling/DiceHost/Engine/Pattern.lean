import DiceHost.Engine.Value

/-! # Text patterns

Patterns match bytes: letters after a percent sign stand for classes, brackets for sets, and
`*`, `+`, `-` and `?` repeat a single item. Parentheses capture what they enclose.
-/
namespace DiceHost.Engine.Pattern

/-- A captured part; while it is open it has no length, and an empty capture is a position. -/
structure Capture where
  start : Nat
  length : Option Nat
  isPosition : Bool
deriving Inhabited

/-- A match: where it ends and what it captured. -/
abbrev Found := Nat × Array Capture

/-- The subject and the pattern of a match. -/
structure Request where
  subject : Bytes
  pattern : Bytes

namespace Request

def at? (r : Request) (s : Nat) : Option UInt8 := r.subject.data[s]?

def sign (r : Request) (p : Nat) : Option UInt8 := r.pattern.data[p]?

def isSign (r : Request) (p : Nat) (c : Char) : Bool := r.sign p == some (UInt8.ofNat c.toNat)

end Request

def inRange (low high : Char) (b : UInt8) : Bool :=
  low.toNat ≤ b.toNat && b.toNat ≤ high.toNat

def isDigit (b : UInt8) : Bool := inRange '0' '9' b
def isLower (b : UInt8) : Bool := inRange 'a' 'z' b
def isUpper (b : UInt8) : Bool := inRange 'A' 'Z' b
def isLetter (b : UInt8) : Bool := isLower b || isUpper b
def isGraphic (b : UInt8) : Bool := inRange '!' '~' b

def toLower (b : UInt8) : UInt8 := if isUpper b then b + 32 else b
def toUpper (b : UInt8) : UInt8 := if isLower b then b - 32 else b

/-- Whether a byte belongs to the class of a letter; other characters stand for themselves. -/
def inClass (b letter : UInt8) : Bool :=
  let member : Option Bool :=
    match Char.ofNat (toLower letter).toNat with
    | 'a' => some (isLetter b)
    | 'c' => some (b < 32 || b == 127)
    | 'd' => some (isDigit b)
    | 'g' => some (isGraphic b)
    | 'l' => some (isLower b)
    | 'p' => some (isGraphic b && !isLetter b && !isDigit b)
    | 's' => some (b == 32 || (9 ≤ b && b ≤ 13))
    | 'u' => some (isUpper b)
    | 'w' => some (isLetter b || isDigit b)
    | 'x' => some (isDigit b || inRange 'a' 'f' b || inRange 'A' 'F' b)
    | _ => none
  match member with
  | some m => if isUpper letter then !m else m
  | none => b == letter

/-- The end of a set, whose first item may be a closing bracket. -/
def setEnd (r : Request) : Nat → Nat → Except String Nat
  | 0, _ => .error "malformed pattern (missing ']')"
  | fuel + 1, p =>
    match r.sign p with
    | none => .error "malformed pattern (missing ']')"
    | some c =>
      let p := if c == 37 then p + 2 else p + 1
      if r.isSign p ']' then .ok (p + 1) else setEnd r fuel p

/-- The end of the single item that starts at a position. -/
def itemEnd (r : Request) (p : Nat) : Except String Nat :=
  match r.sign p with
  | some 37 =>
    if p + 1 < r.pattern.size then .ok (p + 2) else .error "malformed pattern (ends with '%')"
  | some 91 => setEnd r (r.pattern.size + 1) (if r.isSign (p + 1) '^' then p + 2 else p + 1)
  | _ => .ok (p + 1)

/-- Whether a byte belongs to the items of a set between two positions. -/
def inItems (r : Request) (b : UInt8) (last : Nat) : Nat → Nat → Bool
  | 0, _ => false
  | fuel + 1, p =>
    if last ≤ p then false
    else
      match r.sign p with
      | none => false
      | some 37 =>
        match r.sign (p + 1) with
        | some c => inClass b c || inItems r b last fuel (p + 2)
        | none => false
      | some c =>
        if r.isSign (p + 1) '-' && p + 2 < last then
          match r.sign (p + 2) with
          | some d => (c ≤ b && b ≤ d) || inItems r b last fuel (p + 3)
          | none => false
        else b == c || inItems r b last fuel (p + 1)

/-- Whether the subject's byte at `s` matches the item between `p` and `e`. -/
def single (r : Request) (s p e : Nat) : Bool :=
  match r.at? s with
  | none => false
  | some b =>
    match r.sign p with
    | some 46 => true
    | some 37 => ((r.sign (p + 1)).map (inClass b)).getD false
    | some 91 =>
      if r.isSign (p + 1) '^' then !inItems r b (e - 1) (e + 1) (p + 2)
      else inItems r b (e - 1) (e + 1) (p + 1)
    | some c => b == c
    | none => false

/-- The end of a balanced run. -/
def balanced (r : Request) (opening closing : UInt8) : Nat → Nat → Nat → Option Nat
  | 0, _, _ => none
  | fuel + 1, s, depth =>
    match r.at? s with
    | none => none
    | some b =>
      if b == closing then
        if depth ≤ 1 then some (s + 1) else balanced r opening closing fuel (s + 1) (depth - 1)
      else if b == opening then balanced r opening closing fuel (s + 1) (depth + 1)
      else balanced r opening closing fuel (s + 1) depth

/-- How often the item matches from a position on. -/
def repeats (r : Request) (p e : Nat) : Nat → Nat → Nat
  | 0, _ => 0
  | fuel + 1, s => if single r s p e then repeats r p e fuel (s + 1) + 1 else 0

def slice (b : Bytes) (start stop : Nat) : Bytes := b.extract start stop

/-- The capture that a closing parenthesis ends. -/
def openCapture (captures : Array Capture) : Option Nat :=
  (List.range captures.size).reverse.find? (fun i =>
    ((captures[i]?).map (fun c => c.length.isNone && !c.isPosition)).getD false)

mutual
/-- Match the pattern from `p` on at the subject's position `s`. -/
def matchAt (r : Request) (captures : Array Capture) :
    Nat → Nat → Nat → Except String (Option Found)
  | 0, _, _ => .error "pattern too complex"
  | fuel + 1, s, p =>
    match r.sign p with
    | none => .ok (some (s, captures))
    | some 40 =>
      if r.isSign (p + 1) ')' then matchAt r (captures.push ⟨s, none, true⟩) fuel s (p + 2)
      else matchAt r (captures.push ⟨s, none, false⟩) fuel s (p + 1)
    | some 41 =>
      match openCapture captures with
      | none => .error "invalid pattern capture"
      | some i =>
        let closed := captures.modify i (fun c => { c with length := some (s - c.start) })
        matchAt r closed fuel s (p + 1)
    | some c =>
      if c == 36 && p + 1 == r.pattern.size then
        .ok (if s == r.subject.size then some (s, captures) else none)
      else if c == 37 && r.isSign (p + 1) 'b' then
        match r.sign (p + 2), r.sign (p + 3) with
        | some opening, some closing =>
          if r.at? s == some opening then
            match balanced r opening closing (r.subject.size + 1) (s + 1) 1 with
            | some e => matchAt r captures fuel e (p + 4)
            | none => .ok none
          else .ok none
        | _, _ => .error "malformed pattern (missing arguments to '%b')"
      else if c == 37 && r.isSign (p + 1) 'f' then
        if r.isSign (p + 2) '[' then
          match itemEnd r (p + 2) with
          | .error m => .error m
          | .ok e =>
            let before := if s = 0 then 0 else (r.at? (s - 1)).getD 0
            let here := (r.at? s).getD 0
            let member (b : UInt8) : Bool := single ⟨⟨#[b]⟩, r.pattern⟩ 0 (p + 2) e
            if !member before && member here then matchAt r captures fuel s e else .ok none
        else .error "missing '[' after '%f' in pattern"
      else if c == 37 && ((r.sign (p + 1)).map isDigit).getD false then
        let i := ((r.sign (p + 1)).getD 48).toNat - 49
        match captures[i]? with
        | some ⟨start, some length, _⟩ =>
          let wanted := slice r.subject start (start + length)
          if slice r.subject s (s + length) == wanted && s + length ≤ r.subject.size then
            matchAt r captures fuel (s + length) (p + 2)
          else .ok none
        | _ => .error ("invalid capture index %" ++ toString (i + 1) ++ " in pattern")
      else
        match itemEnd r p with
        | .error m => .error m
        | .ok e =>
          if r.isSign e '?' then
            if single r s p e then
              match matchAt r captures fuel (s + 1) (e + 1) with
              | .ok none => matchAt r captures fuel s (e + 1)
              | found => found
            else matchAt r captures fuel s (e + 1)
          else if r.isSign e '+' then
            if single r s p e then
              longest r captures s (e + 1) fuel (repeats r p e (r.subject.size + 1) s) 1
            else .ok none
          else if r.isSign e '*' then
            longest r captures s (e + 1) fuel (repeats r p e (r.subject.size + 1) s) 0
          else if r.isSign e '-' then shortest r captures p e fuel s
          else if single r s p e then matchAt r captures fuel (s + 1) e
          else .ok none
termination_by structural fuel => fuel

/-- Try as many repetitions as possible first, down to `least`. -/
def longest (r : Request) (captures : Array Capture) (s p : Nat) :
    Nat → Nat → Nat → Except String (Option Found)
  | 0, _, _ => .error "pattern too complex"
  | fuel + 1, count, least =>
    match matchAt r captures fuel (s + count) p with
    | .ok none => if count ≤ least then .ok none else longest r captures s p fuel (count - 1) least
    | found => found
termination_by structural fuel => fuel

/-- Try as few repetitions as possible first. -/
def shortest (r : Request) (captures : Array Capture) (p e : Nat) :
    Nat → Nat → Except String (Option Found)
  | 0, _ => .error "pattern too complex"
  | fuel + 1, s =>
    match matchAt r captures fuel s (e + 1) with
    | .ok none => if single r s p e then shortest r captures p e fuel (s + 1) else .ok none
    | found => found
termination_by structural fuel => fuel
end

def Request.matchFrom (r : Request) (s p : Nat) : Except String (Option Found) :=
  matchAt r #[] ((r.pattern.size + 2) * (r.subject.size + 4)) s p

def Request.anchored (r : Request) : Bool := r.isSign 0 '^'

/-- The first match from a position on. -/
def Request.search (r : Request) : Nat → Nat → Except String (Option (Nat × Found))
  | 0, _ => .ok none
  | fuel + 1, s =>
    match r.matchFrom s (if r.anchored then 1 else 0) with
    | .error m => .error m
    | .ok (some found) => .ok (some (s, found))
    | .ok none => if r.anchored || r.subject.size ≤ s then .ok none else r.search fuel (s + 1)

def Capture.value (subject : Bytes) (c : Capture) : Value :=
  if c.isPosition then .int (Int64.ofNat (c.start + 1))
  else .str (slice subject c.start (c.start + c.length.getD 0))

/-- The values of the captures; a pattern without captures captures the whole match. -/
def captured (subject : Bytes) (start : Nat) (found : Found) : List Value :=
  if found.2.isEmpty then [.str (slice subject start found.1)]
  else found.2.toList.map (Capture.value subject)

end DiceHost.Engine.Pattern
