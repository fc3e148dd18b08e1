import DiceHost.Engine.Value

/-! # Tables

The positions from one up to some bound are kept in an array, all other keys in a hash map
beside the order in which they arrived. A key whose value is removed keeps its place in the
order, so that a traversal may remove what it visits.
-/
namespace DiceHost.Engine

structure Table where
  items : Array Value := #[]
  fields : Std.HashMap Key Value := {}
  /-- the keys that were ever stored in `fields` -/
  order : Array Value := #[]
  place : Std.HashMap Key Nat := {}
  /-- the table that holds the metamethods -/
  metatable : Option Nat := none
deriving Inhabited

namespace Table

/-- The array position of an integer key. -/
def position? (t : Table) (n : Int64) : Option Nat :=
  let i := n.toInt
  if 1 ≤ i ∧ i ≤ t.items.size then some (i.toNat - 1) else none

def getKey (t : Table) (k : Key) : Value :=
  match k with
  | .int n =>
    match t.position? n with
    | some i => t.items[i]?.getD .nil
    | none => (t.fields[k]?).getD .nil
  | _ => (t.fields[k]?).getD .nil

/-- Read a value; what cannot be a key has no value. -/
def get (t : Table) (k : Value) : Value := (k.key?.map t.getKey).getD .nil

def getText (t : Table) (name : String) : Value := t.getKey (.str name.toUTF8)

/-- Move the positions that follow the array out of the hash map. -/
def absorb : Nat → Table → Table
  | 0, t => t
  | fuel + 1, t =>
    let k := Key.int (Int64.ofNat (t.items.size + 1))
    match t.fields[k]? with
    | some v => absorb fuel { t with items := t.items.push v, fields := t.fields.erase k }
    | none => t

/-- Store under a key in the hash map; nil removes. -/
def setField (t : Table) (k : Key) (keyValue : Value) (v : Value) : Table :=
  match v with
  | .nil => { t with fields := t.fields.erase k }
  | v =>
    if t.place.contains k then { t with fields := t.fields.insert k v }
    else
      let n := t.order.size
      { t with
        fields := t.fields.insert k v
        place := t.place.insert k n
        order := t.order.push keyValue }

def setKey (t : Table) (k : Key) (keyValue : Value) (v : Value) : Table :=
  match k with
  | .int n =>
    match t.position? n with
    | some i => { t with items := t.items.setIfInBounds i v }
    | none =>
      if n.toInt = t.items.size + 1 then
        match v with
        | .nil => { t with fields := t.fields.erase k }
        | v =>
          let t := { t with items := t.items.push v }
          if t.fields.isEmpty then t else absorb t.fields.size { t with fields := t.fields.erase k }
      else t.setField k (.int n) v
  | _ => t.setField k keyValue v

/-- Store a value; what cannot be a key is ignored here. -/
def set (t : Table) (k v : Value) : Table :=
  match k.key? with
  | some key => t.setKey key k v
  | none => t

def setText (t : Table) (name : String) (v : Value) : Table :=
  t.setKey (.str name.toUTF8) (.ofString name) v

def isNil : Value → Bool
  | .nil => true
  | _ => false

/-- A position in `low < p ≤ high` whose value is nil while the one before it is not. -/
def border (items : Array Value) : Nat → Nat → Nat → Nat
  | 0, low, _ => low
  | fuel + 1, low, high =>
    if high ≤ low + 1 then low
    else
      let middle := (low + high) / 2
      if isNil (items[middle - 1]?.getD .nil) then border items fuel low middle
      else border items fuel middle high

def length (t : Table) : Nat :=
  let n := t.items.size
  if n = 0 then 0
  else if isNil (t.items[n - 1]?.getD .nil) then
    if 2 ≤ n && !isNil (t.items[n - 2]?.getD .nil) then n - 1
    else border t.items n 0 n
  else n

/-- The entries of a table: those of the array, and the others in the order of arrival. -/
def entries (t : Table) : List (Value × Value) :=
  (t.items.toList.zipIdx.filterMap fun (v, i) =>
    if isNil v then none else some (.int (Int64.ofNat (i + 1)), v)) ++
  t.order.toList.filterMap fun k =>
    (k.key?.bind (fun key => t.fields[key]?)).map (fun v => (k, v))

/-- The first entry of the array from a position on. -/
def nextItem (items : Array Value) : Nat → Nat → Option (Value × Value)
  | 0, _ => none
  | fuel + 1, i =>
    match items[i]? with
    | none => none
    | some .nil => nextItem items fuel (i + 1)
    | some v => some (.int (Int64.ofNat (i + 1)), v)

/-- The first entry of the hash map from a place on. -/
def nextField (t : Table) : Nat → Nat → Option (Value × Value)
  | 0, _ => none
  | fuel + 1, i =>
    match t.order[i]? with
    | none => none
    | some k =>
      match (k.key?).bind (fun key => t.fields[key]?) with
      | some v => some (k, v)
      | none => nextField t fuel (i + 1)

/-- The first entry from an array position on, and then those of the hash map. -/
def nextFrom (t : Table) (i : Nat) : Option (Value × Value) :=
  match nextItem t.items (t.items.size + 1) i with
  | some e => some e
  | none => t.nextField (t.order.size + 1) 0

/-- The entry after a key, nil for the first one; a key that was never there has no successor
and is an error. -/
def next (t : Table) (k : Value) : Except Unit (Option (Value × Value)) :=
  match k.key? with
  | none => match k with
    | .nil => .ok (t.nextFrom 0)
    | _ => .error ()
  | some key =>
    let position := match key with
      | .int n => t.position? n
      | _ => none
    match position with
    | some i => .ok (t.nextFrom (i + 1))
    | none =>
      match t.place[key]? with
      | some i => .ok (t.nextField (t.order.size + 1) (i + 1))
      | none => .error ()

/-- An estimate of the memory of a table, without what it refers to. -/
def size (t : Table) : Nat := 56 + 16 * t.items.size + 32 * t.order.size

end Table
end DiceHost.Engine
