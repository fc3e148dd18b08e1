import DiceHost.Toml.Value

/-! # Tables under construction

A TOML document may mention a table before, after and between its parts, but it may
define each table only once. A table that was only mentioned on the way to another is
implicit, and one that dotted keys opened is dotted; headers and dotted keys are allowed
to reopen different ones of these.
-/
namespace DiceHost.Toml

/-- What a key of an unfinished document holds. -/
inductive Node where
  | value (v : Toml)
  | table (implicit dotted : Bool) (entries : List (String × Node))
  /-- an array of tables, the latest first -/
  | tables (latest : List (List (String × Node)))
deriving Inhabited

/-- An unfinished table. -/
structure Draft where
  implicit : Bool
  dotted : Bool
  entries : List (String × Node)
deriving Inhabited

def Draft.empty : Draft := ⟨false, false, []⟩

def Draft.node (d : Draft) : Node := .table d.implicit d.dotted d.entries

/-- Replace the node of a key, or add it at the end. -/
def setEntry (key : String) (n : Node) : List (String × Node) → List (String × Node)
  | [] => [(key, n)]
  | (k, m) :: rest => if k = key then (k, n) :: rest else (k, m) :: setEntry key n rest

/-- Walk along a path, opening tables that are missing; change the table at its end and
return what the change found there. -/
def descend {α : Type} (dotted : Bool) (change : Draft → Option (α × Draft)) :
    List String → Draft → Option (α × Draft)
  | [], d => change d
  | key :: path, d =>
    match d.entries.lookup key with
    | none =>
      (descend dotted change path ⟨true, dotted, []⟩).map
        (fun (a, child) => (a, { d with entries := d.entries ++ [(key, child.node)] }))
    | some (.value _) => none
    | some (.tables []) => none
    | some (.tables (last :: earlier)) =>
      (descend dotted change path ⟨false, false, last⟩).map
        (fun (a, child) =>
          (a, { d with entries := setEntry key (.tables (child.entries :: earlier)) d.entries }))
    | some (.table implicit wasDotted entries) =>
      if dotted && !implicit then none
      else
        (descend dotted change path ⟨implicit, wasDotted, entries⟩).map
          (fun (a, child) => (a, { d with entries := setEntry key child.node d.entries }))

/-- The path and the last key. -/
def splitLast : List String → Option (List String × String)
  | [] => none
  | [k] => some ([], k)
  | k :: rest => (splitLast rest).map (fun (path, last) => (k :: path, last))

/-- Add a value under a dotted key, which must be free. A table that dotted keys opened
can only be filled by dotted keys. -/
def Draft.add (d : Draft) (full : List String) (v : Toml) : Option Draft :=
  match splitLast full with
  | none => none
  | some (path, key) =>
    (descend true (fun t =>
      if t.dotted == path.isEmpty then none
      else if (t.entries.lookup key).isSome then none
      else some ((), { t with entries := t.entries ++ [(key, .value v)] })) path d).map (·.2)

/-- An unfinished document: all finished tables, and the table that is being filled. -/
structure Document where
  root : Draft
  current : Draft
  /-- the header of the current table -/
  path : List String
  /-- the current table is an element of an array of tables -/
  inArray : Bool

def Document.start : Document := ⟨.empty, .empty, [], false⟩

/-- Put the current table where its header says. -/
def Document.close (doc : Document) : Option Draft :=
  match splitLast doc.path with
  | none => some doc.current
  | some (path, key) =>
    let put (parent : Draft) (n : Node) : Option (Unit × Draft) :=
      some ((), { parent with entries := setEntry key n parent.entries })
    (descend false (fun parent =>
      match doc.inArray, parent.entries.lookup key with
      | true, none => put parent (.tables [doc.current.entries])
      | true, some (.tables tables) => put parent (.tables (doc.current.entries :: tables))
      | false, none => put parent doc.current.node
      | false, some (.table true _ _) => put parent doc.current.node
      | _, _ => none) path doc.root).map (·.2)

/-- Begin the table of a header `[path]`; a table that so far was only mentioned keeps
what it holds. -/
def Document.openTable (doc : Document) (full : List String) : Option Document :=
  match doc.close, splitLast full with
  | some root, some (path, key) =>
    (descend false (fun parent =>
      match parent.entries.lookup key with
      | none => some ([], parent)
      | some (.table true false entries) =>
        some (entries, { parent with entries := parent.entries.filter (fun e => e.1 != key) })
      | some _ => none) path root).map
        (fun (entries, root) => ⟨root, ⟨false, false, entries⟩, full, false⟩)
  | _, _ => none

/-- Begin a new element of the array of tables of a header `[[path]]`. -/
def Document.openElement (doc : Document) (full : List String) : Option Document :=
  match doc.close, splitLast full with
  | some root, some (path, key) =>
    (descend false (fun parent =>
      match parent.entries.lookup key with
      | none => some ((), parent)
      | some (.tables _) => some ((), parent)
      | some _ => none) path root).map (fun (_, root) => ⟨root, .empty, full, true⟩)
  | _, _ => none

/-- Add a value to the current table. -/
def Document.add (doc : Document) (full : List String) (v : Toml) : Option Document :=
  (doc.current.add full v).map (fun current => { doc with current := current })

mutual
/-- The value of a finished node. -/
def Node.finish : Node → Toml
  | .value v => v
  | .table _ _ entries => .table (KeyTable.ofList (finishEntries entries))
  | .tables latest => .arr (finishTables latest).reverse

def finishEntries : List (String × Node) → List (String × Toml)
  | [] => []
  | (k, n) :: rest => (k, n.finish) :: finishEntries rest

def finishTables : List (List (String × Node)) → List Toml
  | [] => []
  | entries :: rest => .table (KeyTable.ofList (finishEntries entries)) :: finishTables rest
end

end DiceHost.Toml
