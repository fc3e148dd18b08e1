import DiceHost.Failure
import DiceHost.Toml.Section

/-! # Command definitions

A reply file declares commands in its table `reply`: which script answers, under which
prefix, and for which rule system. A command without a script is left out.
-/
namespace DiceHost.Plugin
open DiceHost.Text DiceHost.Toml

structure Definition where
  /-- the key in the table -/
  key : String
  /-- how a chat line starts -/
  lead : String
  /-- the qualified name of the script -/
  script : String
  rule : Option String
  kind : Option String
  /-- declared limits of use, carried along as they are -/
  limits : Option Toml
deriving Inhabited, Repr

/-- The name of the command: the lead without its full stop. -/
def Definition.commandName (d : Definition) : String := (stripPrefix "." d.lead).getD d.lead

/-- A declaration as it is written. -/
structure RawDefinition where
  kind : Option String
  rule : Option String
  lead : Option String
  script : Option String
  limits : Option Toml
deriving Inhabited

/-- The prefix a keyword section names. -/
def readKeyword (s : Section) : Option (Option String) :=
  if s.reaches 1 then s.get? 0 "prefix" text? else none

/-- The script an echo section names; one dialect goes before the other. -/
def readEcho (s : Section) : Option (Option String) :=
  if s.reaches 2 then do
    let lua ← s.get? 0 "lua" text?
    let js ← s.get? 1 "js" text?
    return lua.or js
  else none

def readRaw (v : Toml) : Option RawDefinition := do
  let s ← section? v
  if !s.reaches 5 then none
  let kind ← s.get? 0 "type" text?
  let rule ← s.get? 1 "rule" text?
  let lead ← s.get? 2 "keyword" (fun v => (section? v).bind readKeyword)
  let script ← s.get? 3 "echo" (fun v => (section? v).bind readEcho)
  return ⟨kind, rule, lead.join, script.join, s.field 4 "limit"⟩

/-- A script name that belongs to a plugin. -/
def qualify (plugin script : String) : String :=
  if startsWith (plugin ++ ".") script then script else plugin ++ "." ++ script

def RawDefinition.resolve (plugin key : String) (raw : RawDefinition) : Option Definition :=
  raw.script.map (fun script =>
    { key := key
      lead := (raw.lead.filter (fun p => !isBlankText p)).getD ("." ++ key)
      script := qualify plugin script
      rule := raw.rule
      kind := raw.kind
      limits := raw.limits })

/-- The declarations of a document. -/
def rawDefinitions (fields : KeyTable Toml) : Option (KeyTable RawDefinition) :=
  match KeyTable.find? fields "reply" with
  | none => some []
  | some (.table replies) => replies.mapM (fun (k, v) => (readRaw v).map (fun raw => (k, raw)))
  | some _ => none

def parseReplies (path plugin text : String) : Except Failure (List Definition) :=
  match (Toml.read text).bind rawDefinitions with
  | none => .error (.commandFile path "malformed document")
  | some raws => .ok (raws.filterMap (fun (key, raw) => raw.resolve plugin key))

end DiceHost.Plugin
