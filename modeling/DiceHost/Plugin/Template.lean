import DiceHost.Alias
import DiceHost.Failure
import DiceHost.Formula.Parse
import DiceHost.Formula.Sheet
import DiceHost.Xml.Event

/-! # Character templates

A template lists the fields of a card: a display name under which the card stores the
value, an alias for scripts, and a default that is a number or a formula over other
fields. `Template.defaults` computes the attributes of a fresh card.
-/
namespace DiceHost.Plugin
open DiceHost.Text

structure TemplateField where
  /-- the name under which cards store the value -/
  display : String
  «alias» : String
  /-- the language of the formula -/
  dialect : Option String
  formula : Option String
  default : Option Float
deriving DecidableEq, Repr, Inhabited

structure Template where
  name : String
  fields : List TemplateField
deriving DecidableEq, Repr, Inhabited

/-! ## Reading templates -/

/-- What the reader of a template knows. -/
structure TemplateState where
  name : Option String := none
  /-- the fields read so far, the latest first -/
  fields : List TemplateField := []
  inProperty : Bool := false
  /-- the field whose body is being read -/
  current : Option TemplateField := none
  /-- the pieces of that body, the latest first -/
  body : List (List Char) := []

/-- The field that a tag declares; without both names there is none. -/
def fieldOf (attributes : List (String × String)) : Option TemplateField :=
  match attributes.lookup "name", attributes.lookup "alias" with
  | some display, some short =>
    if display.isEmpty || short.isEmpty then none
    else
      let default := (attributes.lookup "default").bind
        (fun raw => Decimal.float? (trimChars raw.toList))
      some ⟨display, short, attributes.lookup "text", none, default⟩
  | _, _ => none

/-- The field whose element ends, with its body as formula if it names a language. -/
def closeField (field : TemplateField) (body : List (List Char)) : TemplateField :=
  let text := trimChars body.reverse.flatten
  if field.dialect.isSome && !text.isEmpty then
    { field with formula := some (String.ofList text) }
  else field

/-- One event of the markup; `none` when its attributes or its text are malformed. -/
def TemplateState.step (s : TemplateState) : Xml.Event → Option TemplateState
  | .start name attributes =>
    if name = "model".toList then
      (Xml.attributes attributes).map (fun a => { s with name := a.lookup "name" })
    else if name = "property".toList then some { s with inProperty := true }
    else if name = "any".toList ∧ s.inProperty then
      (Xml.attributes attributes).map (fun a => { s with current := fieldOf a, body := [] })
    else some s
  | .empty name attributes =>
    if name = "model".toList then
      (Xml.attributes attributes).map (fun a => { s with name := a.lookup "name" })
    else if name = "any".toList ∧ s.inProperty then
      (Xml.attributes attributes).map
        (fun a => { s with fields := (fieldOf a).toList ++ s.fields })
    else some s
  | .text raw =>
    if s.current.isSome then
      (Xml.unescape raw).map (fun text => { s with body := text :: s.body })
    else some s
  | .cdata content => some (if s.current.isSome then { s with body := content :: s.body } else s)
  | .close name =>
    if name = "property".toList then some { s with inProperty := false }
    else if name = "any".toList then
      match s.current with
      | some field =>
        some { s with current := none, fields := closeField field s.body :: s.fields }
      | none => some s
    else some s

/-- The first field whose display name or alias occurs before, as a message. -/
def repeated? (template : String) : List String → List String → List TemplateField → Option String
  | _, _, [] => none
  | displays, aliases, f :: rest =>
    if displays.contains f.display then
      some ("duplicate field '" ++ f.display ++ "' in template '" ++ template ++ "'")
    else if aliases.contains f.alias then
      some ("duplicate alias '" ++ f.alias ++ "' in template '" ++ template ++ "'")
    else repeated? template (f.display :: displays) (f.alias :: aliases) rest

/-- Read a template. Display names are unique, and so are aliases. -/
def Template.parse (text : String) : Except Failure Template :=
  match (Xml.events text).bind (fun es => es.foldlM TemplateState.step {}) with
  | none => .error (.template "malformed markup")
  | some s =>
    match s.name.filter (fun n => !isBlankText n) with
    | none => .error (.template "missing <model name=...>")
    | some name =>
      let fields := s.fields.reverse
      match repeated? name [] [] fields with
      | some message => .error (.template message)
      | none => .ok ⟨name, fields⟩

/-! ## Default attributes -/

/-- The languages whose formulas are evaluated. -/
def arithmeticDialects : List String := ["javascript", "js", "expr"]

/-- The formula of a field, when its language is evaluated. -/
def TemplateField.arithmetic? (f : TemplateField) : Option String :=
  match f.formula, f.dialect with
  | some src, some dialect =>
    if arithmeticDialects.contains (lowerAscii dialect) then some src else none
  | _, _ => none

/-- The formula that the default of a field follows; one that cannot be read is none. -/
def TemplateField.computed? (f : TemplateField) : Option Formula.Expr :=
  f.arithmetic?.bind (fun src => (Formula.parse src).toOption)

/-- The default of a field that follows no formula. One that cannot be read counts as zero. -/
def TemplateField.plain? (f : TemplateField) : Option Float :=
  match f.arithmetic? with
  | some src =>
    match Formula.parse src with
    | .ok _ => none
    | .error _ => some 0.0
  | none => some (f.default.getD 0.0)

/-- Enter a field under both of its names. The display name takes the place of an earlier entry,
the alias only a free place. -/
def TemplateField.enter (index : KeyTable Nat) (f : TemplateField) (i : Nat) : KeyTable Nat :=
  KeyTable.insertNew f.alias i (KeyTable.insert f.display i index)

/-- The numbers of fields by their names; the first of the fields has the number `i`. -/
def indexOnto (index : KeyTable Nat) (i : Nat) : List TemplateField → KeyTable Nat
  | [] => index
  | f :: rest => indexOnto (f.enter index i) (i + 1) rest

/-- The numbers of the fields of a template by the names that formulas can use. -/
def Template.index (t : Template) : KeyTable Nat := indexOnto [] 0 t.fields

def Template.sheet (t : Template) : Formula.Sheet :=
  ⟨KeyTable.find? t.index, t.fields.map TemplateField.computed?⟩

/-- The attribute for a number: whole numbers are stored as integers. -/
def numberValue (x : Float) : Json :=
  match Decimal.toInt? x with
  | some n => if n.natAbs < Nat.pow 2 63 then .int n else .float x
  | none => if Decimal.isFinite x then .float x else .int 0

/-- The attributes of a fresh card. Formulas that depend on each other are an error. -/
def Template.defaults (t : Template) : Except Failure Fields :=
  match t.sheet.solve (t.fields.map TemplateField.plain?) with
  | .ok values =>
    .ok (KeyTable.ofList (t.fields.zipWith
      (fun f value => (f.display, numberValue (value.getD 0.0))) values))
  | .error stuck =>
    .error (.circularFormula (stuck.filterMap (fun i => t.fields[i]?.map (·.display))))

/-! ## The template registry -/

def Template.aliases (t : Template) : Aliases :=
  KeyTable.ofList (t.fields.map (fun f => (f.alias, f.display)))

/-- A registered template and the plugin it came from. -/
structure OwnedTemplate where
  template : Template
  plugin : String
deriving DecidableEq, Repr, Inhabited

abbrev TemplateRegistry := KeyTable OwnedTemplate

namespace TemplateRegistry

def register (registry : TemplateRegistry) (t : Template) (plugin : String) : TemplateRegistry :=
  KeyTable.insert t.name ⟨t, plugin⟩ registry

def get (registry : TemplateRegistry) (name : String) : Option Template :=
  (KeyTable.find? registry name).map (·.template)

def removePlugin (registry : TemplateRegistry) (plugin : String) : TemplateRegistry :=
  registry.filter (fun entry => entry.2.plugin ≠ plugin)

def countPlugin (registry : TemplateRegistry) (plugin : String) : Nat :=
  (registry.filter (fun entry => entry.2.plugin = plugin)).length

def aliasTable (registry : TemplateRegistry) : AliasTable :=
  KeyTable.mapValues (fun owned => owned.template.aliases) registry

end TemplateRegistry
end DiceHost.Plugin
