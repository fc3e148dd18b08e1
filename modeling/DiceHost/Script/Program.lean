import DiceHost.Card.Actions
import DiceHost.Json.Read
import DiceHost.Json.Write
import DiceHost.Script.Interpreter

/-! # Instruction lists

A small script language without an engine: a source that is a JSON array is a list of
instructions, any other source is its own result. Some instructions note what the script
could see, which makes the language a probe of its host.
-/
namespace DiceHost.Program
open DiceHost.Text DiceHost.Script

/-- What a script noted, the latest first. -/
inductive Note where
  | context (c : Context)
  | pending (writes : List Write)
deriving Repr, Inhabited

/-- The word an argument stands for: four of them name a part of the context. -/
def word (context : Context) (w : String) : String :=
  if w = "$uid" then context.user
  else if w = "$gid" then context.group
  else if w = "$tail" then context.tail
  else if w = "$card" then Card.textKey context.user
  else w

/-- The text of an argument; what is not a text is empty. -/
def argument (context : Context) (v : Json) : String :=
  match v with
  | .str w => word context w
  | _ => ""

/-- A value to be written; a text is a word. -/
def written (context : Context) : Json → Json
  | .str w => .str (word context w)
  | v => v

def scopeOf : Json → DataScope
  | .str "user" => .user
  | _ => .group

/-- What has happened in a run. -/
structure Progress where
  notes : List Note
  storage : Storage
  /-- the pieces of the result, the latest first -/
  output : List String := []

/-- Run one instruction. One that is not known does nothing. -/
def Progress.step (context : Context) (p : Progress) (instruction : Json) :
    Progress × Option Failure :=
  match instruction with
  | .arr [.str "text", w] => ({ p with output := argument context w :: p.output }, none)
  | .arr [.str "get", scope, id, key] =>
    let found := p.storage.get (scopeOf scope) (argument context id) (argument context key)
    ({ p with output := (found.map Json.compact).getD "none" :: p.output }, none)
  | .arr [.str "set", scope, id, key, value] =>
    let storage := p.storage.set (scopeOf scope) (argument context id) (argument context key)
      (written context value)
    ({ p with storage := storage }, none)
  | .arr [.str "fail", w] => (p, some (.interpreter (argument context w)))
  | .arr [.str "dump"] => ({ p with notes := .context context :: p.notes }, none)
  | .arr [.str "pending"] => ({ p with notes := .pending p.storage.pending :: p.notes }, none)
  | _ => (p, none)

/-- Run instructions up to the first one that fails. -/
def runAll (context : Context) : List Json → Progress → Progress × Except Failure String
  | [], p => (p, .ok (String.join p.output.reverse))
  | instruction :: rest, p =>
    match p.step context instruction with
    | (p, none) => runAll context rest p
    | (p, some failure) => (p, .error failure)

/-- Run a source. -/
def run (notes : List Note) (source : String) (context : Context) :
    List Note × Storage × Except Failure String :=
  match Json.read source with
  | some (.arr instructions) =>
    let (p, outcome) := runAll context instructions ⟨notes, context.storage, []⟩
    (p.notes, p.storage, outcome)
  | _ => (notes, context.storage, .ok source)

/-- Instruction lists as an interpreter; a source that starts with `!bad` is refused. -/
def language : Interpreter where
  State := List Note
  Code := String
  compile notes _ name source _ :=
    if startsWith "!bad" source then (notes, .error (.scriptLoad name "probe: bad"))
    else (notes, .ok source)
  run notes _ _ source context := run notes source context

/-- No scripts and no notes. -/
def start : Scripts language := ⟨[], []⟩

end DiceHost.Program
