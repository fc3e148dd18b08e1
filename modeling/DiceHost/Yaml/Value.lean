import DiceHost.Yaml.Parse

/-! # YAML values

The value of a node: plain scalars are null, booleans, integers, floats or text by their
spelling; quoted ones are text. A local tag stays with its value. Keys of one mapping must
differ. Nesting is limited, and so is the number of aliases that are followed, which keeps
the value of a document in proportion to its text.
-/
namespace DiceHost.Yaml
open DiceHost.Text DiceHost.Decimal

/-- A YAML value. -/
inductive Value where
  | null
  | bool (b : Bool)
  | int (n : Int)
  | float (x : Float)
  | str (s : String)
  | sequence (items : List Value)
  | mapping (entries : List (Value × Value))
  | tagged (tag : String) (v : Value)
deriving Inhabited, Repr

/-- A run of digits with a zero in front is text, not a number. -/
def isPaddedDigits (cs : List Char) : Bool :=
  let body := match cs with
    | '-' :: rest => rest
    | '+' :: rest => rest
    | _ => cs
  match body with
  | '0' :: d :: rest => (d :: rest).all isAsciiDigit
  | _ => false

/-- The digits of a number in another base, without a sign. -/
def baseDigits (cs : List Char) : Option Nat :=
  let number (isDigit : Char → Bool) (base : Nat) (ds : List Char) : Option Nat :=
    if ds.isEmpty || !ds.all isDigit then none else some (natOfBase base ds)
  match cs with
  | '0' :: 'x' :: ds => number isHexDigit 16 ds
  | '0' :: 'o' :: ds => number (fun c => '0' ≤ c && c ≤ '7') 8 ds
  | '0' :: 'b' :: ds => number (fun c => c == '0' || c == '1') 2 ds
  | _ => none

/-- The integer a plain scalar spells, of up to 128 bits. -/
def integer? (cs : List Char) : Option Int :=
  let natural (cs : List Char) : Option Nat :=
    match baseDigits cs with
    | some n => some n
    | none => if cs.isEmpty || !cs.all isAsciiDigit then none else some (natOf cs)
  if isPaddedDigits cs then none
  else
    match cs with
    | '-' :: rest =>
      (natural rest).bind (fun n => if n ≤ Nat.pow 2 127 then some (-(n : Int)) else none)
    | '+' :: rest =>
      (natural rest).bind (fun n => if n < Nat.pow 2 128 then some (n : Int) else none)
    | _ => (natural cs).bind (fun n => if n < Nat.pow 2 128 then some (n : Int) else none)

/-- The float a plain scalar spells; a decimal must be finite. -/
def float? (cs : List Char) : Option Float :=
  let text := String.ofList cs
  if [".inf", ".Inf", ".INF", "+.inf", "+.Inf", "+.INF"].contains text then some infinity
  else if ["-.inf", "-.Inf", "-.INF"].contains text then some (-infinity)
  else if [".nan", ".NaN", ".NAN"].contains text then some notANumber
  else
    match cs with
    | '+' :: '+' :: _ => none
    | '+' :: '-' :: _ => none
    | _ => (Decimal.float? cs).filter isFinite

def isNull (text : String) : Bool := ["null", "Null", "NULL", "~"].contains text

def bool? (text : String) : Option Bool :=
  if ["true", "True", "TRUE"].contains text then some true
  else if ["false", "False", "FALSE"].contains text then some false
  else none

/-- An integer value; one that does not fit 64 bits cannot be kept. -/
def keepInteger (n : Int) : Option Value :=
  if isInt64 n || isNat64 n then some (.int n) else none

/-- The value of a plain scalar. -/
def plainValue (text : String) : Option Value :=
  let cs := text.toList
  if text.isEmpty || isNull text then some .null
  else
    match bool? text with
    | some b => some (.bool b)
    | none =>
      match integer? cs with
      | some n => keepInteger n
      | none =>
        match (if isPaddedDigits cs then none else float? cs) with
        | some x => some (.float x)
        | none => some (.str text)

/-- The value of a scalar by its tag; `inner` when a local tag was taken off already. -/
def scalarValue (inner : Bool) (tag : Option String) (text : String) (plain : Bool) :
    Option Value :=
  match tag, inner with
  | some t, false =>
    if t = "tag:yaml.org,2002:bool" then (bool? text).map .bool
    else if t = "tag:yaml.org,2002:int" then (integer? text.toList).bind keepInteger
    else if t = "tag:yaml.org,2002:float" then (float? text.toList).map .float
    else if t = "tag:yaml.org,2002:null" then (if isNull text then some .null else none)
    else some (.str text)
  | _, _ => if plain then plainValue text else some (.str text)

/-- The name of a local tag. -/
def localTag (tag : Option String) : Option String :=
  tag.bind (fun t => stripPrefix "!" t)

mutual
/-- The two values are one key. -/
def sameValue : Value → Value → Bool
  | .null, .null => true
  | .bool a, .bool b => a == b
  | .int a, .int b => a == b
  | .float a, .float b => a == b || (isNaN a && isNaN b)
  | .str a, .str b => a == b
  | .sequence a, .sequence b => sameItems a b
  | .mapping a, .mapping b => a.length == b.length && sameEntries a b
  | .tagged s a, .tagged t b => s == t && sameValue a b
  | _, _ => false

def sameItems : List Value → List Value → Bool
  | [], [] => true
  | a :: as, b :: bs => sameValue a b && sameItems as bs
  | _, _ => false

/-- Every entry of the first list occurs in the second. -/
def sameEntries : List (Value × Value) → List (Value × Value) → Bool
  | [], _ => true
  | (k, v) :: rest, other => occurs k v other && sameEntries rest other

def occurs (k v : Value) : List (Value × Value) → Bool
  | [] => false
  | (l, w) :: rest => (sameValue k l && sameValue v w) || occurs k v rest
end

/-- No key occurs twice. -/
def distinctKeys : List (Value × Value) → Bool
  | [] => true
  | (k, _) :: rest => !rest.any (fun e => sameValue k e.1) && distinctKeys rest

/-- Reading values counts the aliases that were followed. -/
abbrev Read := StateT Nat Option

/-- The node an alias stands for. -/
def Document.follow (doc : Document) (n : Node) : Read Node :=
  match n with
  | .alias k => do
    let count ← get
    if doc.size * 100 < count + 1 then failure
    set (count + 1)
    match doc.anchored.lookup k with
    | some n => return n
    | none => failure
  | n => return n

/-- A value under its local tag; an empty tag is an error. -/
def withTag (tag : Option String) (v : Value) : Read Value :=
  match localTag tag with
  | none => return v
  | some t => if t.isEmpty then failure else return .tagged t v

/-- The value of a node with at most the given nesting. -/
def Document.value (doc : Document) : Nat → Node → Read Value
  | depth, n => do
    match depth, ← doc.follow n with
    | _, .scalar tag text plain =>
      match scalarValue (localTag tag).isSome tag text plain with
      | some v => withTag tag v
      | none => failure
    | d + 1, .sequence tag items =>
      let vs ← items.mapM (fun n => doc.value d n)
      withTag tag (.sequence vs)
    | d + 1, .mapping tag entries =>
      let es ← entries.mapM (fun (k, v) => do return (← doc.value d k, ← doc.value d v))
      if distinctKeys es then withTag tag (.mapping es) else failure
    | _, _ => failure

/-- The deepest nesting of collections. -/
def maxDepth : Nat := 128

end DiceHost.Yaml
