import DiceHost.Engine.State

/-! # Host values and script values

An object or an array of the host becomes a table without metatable, and null becomes nil.
On the way back, a table with a length is an array up to its first nil, and any other table
is an object that must have text keys.
-/
namespace DiceHost.Engine

/-- The script value of a number; what exceeds the integers of scripts becomes a double. -/
def numberOfInt (n : Int) : Value :=
  if Decimal.isInt64 n then .int (Int64.ofInt n) else .float (Decimal.ofInt n)

mutual
/-- Make the script value of a host value. -/
def ofJson (s : State) : Json → State × Value
  | .null => (s, .nil)
  | .bool b => (s, .bool b)
  | .int n => (s, numberOfInt n)
  | .float x => (s, .float x)
  | .str t => (s.chargeText t.toUTF8, .ofString t)
  | .arr items =>
    let (s, t) := ofItems s {} items
    let (s, id) := s.allocate t
    (s, .table id)
  | .obj fields =>
    let (s, t) := ofFields s {} fields
    let (s, id) := s.allocate t
    (s, .table id)

/-- Append items to a table; a null leaves no trace. -/
def ofItems (s : State) (t : Table) : List Json → State × Table
  | [] => (s, t)
  | v :: rest =>
    let (s, x) := ofJson s v
    ofItems s (t.set (.int (Int64.ofNat (t.length + 1))) x) rest

def ofFields (s : State) (t : Table) : List (String × Json) → State × Table
  | [] => (s, t)
  | (k, v) :: rest =>
    let (s, x) := ofJson s v
    ofFields s (t.setText k x) rest
end

/-- The kind of a value, told apart by the host. -/
def hostType : Value → String
  | .int _ => "integer"
  | .float _ => "number"
  | .failure _ => "error"
  | v => v.typeName

/-- The text that the host reads from a value; numbers are taken as text. -/
def hostText (v : Value) : Except String String :=
  let problem (reason : String) : Except String String :=
    .error ("error converting Lua " ++ hostType v ++ " to String (" ++ reason ++ ")")
  match v.coerceBytes? with
  | none => problem "expected string or number"
  | some b =>
    match Text.ofBytes? b.toList with
    | some t => .ok t
    | none => problem "invalid utf-8 sequence"

/-- The failure of a value that has no host value. -/
def noHostValue (reason : String) : String := "deserialize error: " ++ reason

/-- How a value reads in the message about a key that is no text. -/
def keyProblem : Value → String
  | .int n => "integer \x60" ++ toString n.toInt ++ "\x60"
  | .float x => "floating point \x60" ++ Decimal.plainLayout.write x ++ "\x60"
  | .bool b => "boolean \x60" ++ toString b ++ "\x60"
  | .str _ => "byte array"
  | .table _ => "map"
  | v => v.typeName

mutual
/-- The host value of a script value; `path` holds the tables on the way to it. -/
def toJson (s : State) : Nat → List Nat → Value → Except String Json
  | 0, _, _ => .error (noHostValue "recursive table detected")
  | fuel + 1, path, v =>
    match v with
    | .nil => .ok .null
    | .bool b => .ok (.bool b)
    | .int n => .ok (.int n.toInt)
    | .float x => .ok (.ofFloat x)
    | .str b =>
      match Text.ofBytes? b.toList with
      | some t => .ok (.str t)
      | none => .error (noHostValue "invalid type: byte array, expected any valid JSON value")
    | .table id =>
      if path.contains id then .error (noHostValue "recursive table detected")
      else
        let t := s.table id
        let n := t.length
        if 0 < n then (toItems s fuel (id :: path) (t.items.toList.take n)).map .arr
        else
          (toFields s fuel (id :: path) t.entries).map
            (fun fields => .obj (KeyTable.ofList fields))
    | v => .error (noHostValue ("unsupported value type \x60" ++ hostType v ++ "\x60"))
termination_by structural fuel => fuel

/-- The items up to the first nil. -/
def toItems (s : State) : Nat → List Nat → List Value → Except String (List Json)
  | 0, _, _ => .error (noHostValue "recursive table detected")
  | _ + 1, _, [] => .ok []
  | _ + 1, _, .nil :: _ => .ok []
  | fuel + 1, path, v :: rest =>
    match toJson s fuel path v with
    | .error m => .error m
    | .ok j => (toItems s fuel path rest).map (j :: ·)
termination_by structural fuel => fuel

def toFields (s : State) :
    Nat → List Nat → List (Value × Value) → Except String (List (String × Json))
  | 0, _, _ => .error (noHostValue "recursive table detected")
  | _ + 1, _, [] => .ok []
  | fuel + 1, path, (k, v) :: rest =>
    let name : Except String String := match k with
      | .str b =>
        match Text.ofBytes? b.toList with
        | some t => .ok t
        | none => .error (keyProblem k)
      | _ => .error (keyProblem k)
    match name with
    | .error m => .error (noHostValue ("invalid type: " ++ m ++ ", expected a string key"))
    | .ok name =>
      match toJson s fuel path v with
      | .error m => .error m
      | .ok j => (toFields s fuel path rest).map ((name, j) :: ·)
termination_by structural fuel => fuel
end

/-- The host value of a script value. A path visits a table once, so the number of all
entries bounds the recursion. -/
def State.toJson (s : State) (v : Value) : Except String Json :=
  Engine.toJson s (s.tables.foldl (fun n t => n + t.items.size + t.order.size + 3) 3) [] v

end DiceHost.Engine
