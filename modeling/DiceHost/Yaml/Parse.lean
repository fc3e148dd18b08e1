import DiceHost.Yaml.Token

/-! # The grammar of YAML

A stack machine over the tokens. Each state says what may come next; what is left to do
after a node is on the stack. The machine emits events, and the events of the one document
are put together to a tree. An anchor gives its node a number; an alias holds the number
that its name had when it was read.
-/
namespace DiceHost.Yaml

/-! ## Events -/

/-- What the grammar finds. -/
inductive Event where
  | documentStart
  | documentEnd
  | alias (name : String)
  | scalar (anchor tag : Option String) (text : String) (plain : Bool)
  | sequenceStart (anchor tag : Option String)
  | sequenceEnd
  | mappingStart (anchor tag : Option String)
  | mappingEnd
deriving DecidableEq, Repr

/-- What comes next. -/
inductive State where
  /-- a document without its marker, if it is the first -/
  | document (first : Bool)
  | content
  | documentEnd
  | blockNode
  | sequenceEntry
  | indentlessEntry
  | mappingKey
  | mappingValue
  | flowEntry (first : Bool)
  | pairKey
  | pairValue
  | pairEnd
  | flowKey (first : Bool)
  | flowValue
  | flowEmptyValue
  | done
deriving DecidableEq, Repr

/-- The state of the machine. -/
structure Machine where
  tokens : List Token
  state : State := .document true
  stack : List State := []
  /-- the tag handles of the document -/
  handles : List (String × String) := []
  /-- the events so far, reversed -/
  events : List Event := []

namespace Machine

def emit (m : Machine) (e : Event) : Machine := { m with events := e :: m.events }

/-- Go on with what is on the stack. -/
def pop (m : Machine) : Machine :=
  match m.stack with
  | s :: rest => { m with state := s, stack := rest }
  | [] => { m with state := .done }

def go (m : Machine) (s : State) : Machine := { m with state := s }

def next (m : Machine) : Machine := { m with tokens := m.tokens.drop 1 }

/-- A node that is not written. -/
def absent (m : Machine) (s : State) : Machine := (m.emit (.scalar none none "" true)).go s

/-- The handles that need no directive. -/
def standardHandles : List (String × String) := [("!", "!"), ("!!", "tag:yaml.org,2002:")]

/-- The tag that a handle and a suffix stand for. -/
def resolve (m : Machine) (handle suffix : String) : Option String :=
  if handle.isEmpty then some suffix
  else ((m.handles ++ standardHandles).lookup handle).map (· ++ suffix)

/-- Anchor and tag in front of a node, in either order. -/
def properties (m : Machine) : Option (Option String × Option String × Machine) :=
  match m.tokens with
  | .anchor a :: .tag h s :: rest =>
    (m.resolve h s).map (fun t => (some a, some t, { m with tokens := rest }))
  | .tag h s :: .anchor a :: rest =>
    (m.resolve h s).map (fun t => (some a, some t, { m with tokens := rest }))
  | .anchor a :: rest => some (some a, none, { m with tokens := rest })
  | .tag h s :: rest => (m.resolve h s).map (fun t => (none, some t, { m with tokens := rest }))
  | _ => some (none, none, m)

/-- A node, after which the stack says what comes next. Only in blocks may it be a block, and
only as part of a mapping a sequence that is not indented. -/
def node (m : Machine) (block indentless : Bool) : Option Machine :=
  match m.tokens with
  | .alias name :: _ => some (m.emit (.alias name)).next.pop
  | _ =>
    match m.properties with
    | none => none
    | some (anchor, tag, m) =>
      match m.tokens with
      | .entry :: _ =>
        if indentless then some ((m.emit (.sequenceStart anchor tag)).go .indentlessEntry)
        else if anchor.isSome || tag.isSome then some (m.emit (.scalar anchor tag "" true)).pop
        else none
      | .scalar text plain :: _ =>
        let tag := if tag = some "!" then none else tag
        some (m.emit (.scalar anchor tag text plain)).next.pop
      | .flowSequence :: _ => some ((m.emit (.sequenceStart anchor tag)).next.go (.flowEntry true))
      | .flowMapping :: _ => some ((m.emit (.mappingStart anchor tag)).next.go (.flowKey true))
      | t :: _ =>
        if block && t = .blockSequence then
          some ((m.emit (.sequenceStart anchor tag)).next.go .sequenceEntry)
        else if block && t = .blockMapping then
          some ((m.emit (.mappingStart anchor tag)).next.go .mappingKey)
        else if anchor.isSome || tag.isSome then some (m.emit (.scalar anchor tag "" true)).pop
        else none
      | [] => none

/-- A node, unless the next token shows that it is not written. -/
def nodeOr (m : Machine) (ends : List Token) (after : State) (block indentless : Bool) :
    Option Machine :=
  match m.tokens with
  | t :: _ =>
    if ends.contains t then some (m.absent after)
    else ({ m with stack := after :: m.stack }).node block indentless
  | [] => none

/-- Read the directives of a document. -/
def directives : Nat → Bool → Machine → Option Machine
  | 0, _, _ => none
  | fuel + 1, versioned, m =>
    match m.tokens with
    | .version major minor :: _ =>
      if versioned || major ≠ 1 || (minor ≠ 1 && minor ≠ 2) then none
      else directives fuel true m.next
    | .tagHandle handle expansion :: _ =>
      if (m.handles.lookup handle).isSome then none
      else directives fuel versioned { m.next with handles := (handle, expansion) :: m.handles }
    | _ => some m

/-- Begin a document, or end the stream. -/
def document (m : Machine) (first : Bool) : Option Machine :=
  let m := if first then m
    else { m with tokens := m.tokens.dropWhile (fun t => t = .documentEnd) }
  let explicit (m : Machine) : Option Machine :=
    match directives (m.tokens.length + 1) false m with
    | none => none
    | some m =>
      match m.tokens with
      | .documentStart :: _ =>
        some { (m.emit .documentStart).next with
          state := .content, stack := .documentEnd :: m.stack }
      | _ => none
  match m.tokens with
  | [] => none
  | .streamEnd :: _ => some (m.next.go .done)
  | t :: _ =>
    let marked := match t with
      | .version .. => true
      | .tagHandle .. => true
      | .documentStart => true
      | _ => false
    if first && !marked then
      some { m.emit .documentStart with state := .blockNode, stack := .documentEnd :: m.stack }
    else explicit m

/-- One step of the machine. -/
def step (m : Machine) : Option Machine :=
  match m.state, m.tokens with
  | .done, _ => some m
  | .document first, _ => m.document first
  | .content, t :: _ =>
    let bare := match t with
      | .version .. => true
      | .tagHandle .. => true
      | .documentStart => true
      | .documentEnd => true
      | .streamEnd => true
      | _ => false
    if bare then some (m.emit (.scalar none none "" true)).pop else m.node true false
  | .documentEnd, t :: _ =>
    let m := if t = .documentEnd then m.next else m
    some { (m.emit .documentEnd).go (.document false) with handles := [] }
  | .blockNode, _ => m.node true false
  | .sequenceEntry, .entry :: _ => m.next.nodeOr [.entry, .blockEnd] .sequenceEntry true false
  | .sequenceEntry, .blockEnd :: _ => some (m.emit .sequenceEnd).next.pop
  | .sequenceEntry, _ => none
  | .indentlessEntry, .entry :: _ =>
    m.next.nodeOr [.entry, .key, .value, .blockEnd] .indentlessEntry true false
  | .indentlessEntry, _ => some (m.emit .sequenceEnd).pop
  | .mappingKey, .key :: _ => m.next.nodeOr [.key, .value, .blockEnd] .mappingValue true true
  | .mappingKey, .blockEnd :: _ => some (m.emit .mappingEnd).next.pop
  | .mappingKey, _ => none
  | .mappingValue, .value :: _ => m.next.nodeOr [.key, .value, .blockEnd] .mappingKey true true
  | .mappingValue, _ => some (m.absent .mappingKey)
  | .flowEntry _, .flowSequenceEnd :: _ => some (m.emit .sequenceEnd).next.pop
  | .flowEntry first, t :: _ =>
    if !first && t ≠ .comma then none
    else
      let m := if first then m else m.next
      match m.tokens with
      | .flowSequenceEnd :: _ => some (m.emit .sequenceEnd).next.pop
      | .key :: _ => some ((m.emit (.mappingStart none none)).next.go .pairKey)
      | _ => ({ m with stack := .flowEntry false :: m.stack }).node false false
  | .pairKey, t :: _ =>
    if t = .value ∨ t = .comma ∨ t = .flowSequenceEnd then some (m.next.absent .pairValue)
    else ({ m with stack := .pairValue :: m.stack }).node false false
  | .pairValue, .value :: _ => m.next.nodeOr [.comma, .flowSequenceEnd] .pairEnd false false
  | .pairValue, _ => some (m.absent .pairEnd)
  | .pairEnd, _ => some ((m.emit .mappingEnd).go (.flowEntry false))
  | .flowKey _, .flowMappingEnd :: _ => some (m.emit .mappingEnd).next.pop
  | .flowKey first, t :: _ =>
    if !first && t ≠ .comma then none
    else
      let m := if first then m else m.next
      match m.tokens with
      | .flowMappingEnd :: _ => some (m.emit .mappingEnd).next.pop
      | .key :: _ => m.next.nodeOr [.value, .comma, .flowMappingEnd] .flowValue false false
      | _ => ({ m with stack := .flowEmptyValue :: m.stack }).node false false
  | .flowValue, .value :: _ =>
    m.next.nodeOr [.comma, .flowMappingEnd] (.flowKey false) false false
  | .flowValue, _ => some (m.absent (.flowKey false))
  | .flowEmptyValue, _ => some (m.absent (.flowKey false))
  | _, [] => none

/-- Step until the stream ends. -/
def run : Nat → Machine → Option (List Event)
  | 0, _ => none
  | fuel + 1, m => if m.state = .done then some m.events.reverse else m.step.bind (run fuel)

end Machine

/-- The events of a stream. -/
def events (ts : List Token) : Option (List Event) :=
  Machine.run (8 * ts.length + 16) { tokens := ts }

/-! ## Trees -/

/-- A node of a document. -/
inductive Node where
  | scalar (tag : Option String) (text : String) (plain : Bool)
  | sequence (tag : Option String) (items : List Node)
  | mapping (tag : Option String) (entries : List (Node × Node))
  | alias (number : Nat)
deriving Inhabited, Repr

/-- A collection that is being read. -/
structure Frame where
  /-- the number of its anchor -/
  anchor : Option Nat
  tag : Option String
  isMapping : Bool
  /-- its nodes so far, reversed -/
  nodes : List Node

/-- The state of the tree builder. -/
structure Builder where
  frames : List Frame := []
  /-- the number of each anchor name -/
  names : List (String × Nat) := []
  /-- the node of each number, the latest first -/
  anchored : List (Nat × Node) := []
  root : Option Node := none

/-- Keys and values in turn. -/
def pairUp : List Node → List (Node × Node)
  | k :: v :: rest => (k, v) :: pairUp rest
  | _ => []

namespace Builder

/-- Give an anchor a number. The number is the count of the names known so far, so a name that
is used again shares its new number with the next new name. -/
def number (b : Builder) (anchor : Option String) : Option Nat × Builder :=
  match anchor with
  | none => (none, b)
  | some name =>
    let n := b.names.length
    (some n, { b with names := (name, n) :: b.names.filter (fun e => e.1 != name) })

/-- Add a finished node to the collection around it. -/
def add (b : Builder) (anchor : Option Nat) (n : Node) : Builder :=
  let b := match anchor with
    | some k => { b with anchored := (k, n) :: b.anchored }
    | none => b
  match b.frames with
  | f :: rest => { b with frames := { f with nodes := n :: f.nodes } :: rest }
  | [] => { b with root := some n }

/-- Finish the innermost collection. -/
def close (b : Builder) : Builder :=
  match b.frames with
  | f :: rest =>
    let n := if f.isMapping then Node.mapping f.tag (pairUp f.nodes.reverse)
      else .sequence f.tag f.nodes.reverse
    { b with frames := rest }.add f.anchor n
  | [] => b

/-- Take one event into account; an alias of an unknown name is an error. -/
def step (b : Builder) : Event → Option Builder
  | .documentStart => some b
  | .documentEnd => some b
  | .alias name => (b.names.lookup name).map (fun k => b.add none (.alias k))
  | .scalar anchor tag text plain =>
    let (k, b) := b.number anchor
    some (b.add k (.scalar tag text plain))
  | .sequenceStart anchor tag =>
    let (k, b) := b.number anchor
    some { b with frames := ⟨k, tag, false, []⟩ :: b.frames }
  | .mappingStart anchor tag =>
    let (k, b) := b.number anchor
    some { b with frames := ⟨k, tag, true, []⟩ :: b.frames }
  | .sequenceEnd => some b.close
  | .mappingEnd => some b.close

end Builder

/-- The document of a stream that holds exactly one. -/
structure Document where
  root : Node
  anchored : List (Nat × Node)
  /-- how many nodes and ends of collections there are -/
  size : Nat

/-- Read a document. -/
def parse (text : String) : Option Document :=
  match (tokens text).bind events with
  | none => none
  | some es =>
    let body := es.filter (fun e => e ≠ .documentStart ∧ e ≠ .documentEnd)
    if (es.filter (fun e => e = .documentStart)).length ≠ 1 then none
    else
      match body.foldlM Builder.step {} with
      | some b => b.root.map (fun root => ⟨root, b.anchored, body.length⟩)
      | none => none

end DiceHost.Yaml
