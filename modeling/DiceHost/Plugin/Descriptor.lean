import DiceHost.Json.Read
import DiceHost.Decimal.Layout
import DiceHost.Text.Blank
import DiceHost.Toml.Read

/-! # Plugin descriptors

A plugin declares its name and version, and may say more about itself, in a JSON or a
TOML document. Unknown fields are ignored; a known field must not occur twice, not even
under its second name. A version may be written as a number.
-/
namespace DiceHost.Plugin
open DiceHost.Text

/-- The formats of a descriptor file. -/
inductive Format where
  | json | toml
deriving DecidableEq, Repr, Inhabited

def Format.fileName : Format → String
  | json => "descriptor.json"
  | toml => "descriptor.toml"

/-- What a plugin says about itself. -/
structure Descriptor where
  name : String
  title : Option String := none
  version : String
  author : Option String := none
  brief : Option String := none
  description : Option String := none
  repository : Option String := none
  /-- the least build of the host the plugin was written for -/
  diceBuild : Option Nat := none
  comment : Option String := none
deriving DecidableEq, Repr, Inhabited

/-- The title, or else the name. -/
def Descriptor.displayName (d : Descriptor) : String := d.title.getD d.name

/-- A field value, whichever format it comes from. -/
inductive Field where
  | null
  | text (s : String)
  | int (n : Int)
  | float (x : Float)
  | other
deriving DecidableEq, Repr

/-- The fields of a descriptor in order, each with its names. -/
def fieldNames : List (List String) :=
  [["name"], ["title"], ["version", "ver"], ["author"], ["brief"], ["description", "desc"],
    ["repository", "repo"], ["dice_build"], ["comment"]]

/-- The values written for one field. -/
def written (fields : List (String × Field)) (names : List String) : List Field :=
  (fields.filter (fun f => names.contains f.1)).map (·.2)

/-- The value of each field in order; a field that is written twice is an error. -/
def arrange (fields : List (String × Field)) : Option (List (Option Field)) :=
  fieldNames.mapM (fun names =>
    match written fields names with
    | [] => some none
    | [v] => some (some v)
    | _ => none)

def requiredText : Option Field → Option String
  | some (.text s) => some s
  | _ => none

def optionalText : Option Field → Option (Option String)
  | none => some none
  | some .null => some none
  | some (.text s) => some (some s)
  | _ => none

/-- The text of a version; a number is written without an exponent. -/
def versionText : Option Field → Option String
  | some (.text s) => some s
  | some (.int n) =>
    some (if Decimal.isInt64 n then toString n
      else Decimal.plainLayout.write (Decimal.ofInt n))
  | some (.float x) => some (Decimal.plainLayout.write x)
  | _ => none

def optionalCount : Option Field → Option (Option Nat)
  | none => some none
  | some .null => some none
  | some (.int n) => if 0 ≤ n then some (some n.toNat) else none
  | _ => none

/-- The descriptor with the given field values. -/
def ofFields : List (Option Field) → Option Descriptor
  | [name, title, version, author, brief, description, repository, diceBuild, comment] => do
    return ⟨← requiredText name, ← optionalText title, ← versionText version,
      ← optionalText author, ← optionalText brief, ← optionalText description,
      ← optionalText repository, ← optionalCount diceBuild, ← optionalText comment⟩
  | _ => none

def ofJson : Json → Field
  | .null => .null
  | .str s => .text s
  | .int n => .int n
  | .float x => .float x
  | _ => .other

def ofToml : Toml → Field
  | .str s => .text s
  | .int n => .int n
  | .float x => .float x
  | _ => .other

/-- The field values of a JSON document; an array gives them in order. -/
def jsonFields : Json → Option (List (Option Field))
  | .obj fields => arrange (fields.map (fun (k, v) => (k, ofJson v)))
  | .arr items =>
    if items.length < 3 || 9 < items.length then none
    else
      let given := items.map (fun v => some (ofJson v))
      some (given ++ List.replicate (9 - items.length) none)
  | _ => none

/-- The reason why a descriptor is refused when its text is not well-formed. -/
def malformed : String := "malformed descriptor"

/-- Read a descriptor; a failure is the reason. -/
def Descriptor.parse (format : Format) (text : String) : Except String Descriptor :=
  let fields := match format with
    | .json => (Json.readRaw text).bind jsonFields
    | .toml => (Toml.read text).bind
        (fun table => arrange (table.map (fun (k, v) => (k, ofToml v))))
  match fields.bind ofFields with
  | none => .error malformed
  | some d =>
    if isBlankText d.name then .error "plugin name is empty"
    else if isBlankText d.version then .error "plugin version is empty"
    else .ok d

/-- A short description of a loaded plugin. -/
structure Summary where
  name : String
  title : String
  version : String
  author : Option String
  brief : Option String
  scripts : Nat
  commands : Nat
deriving DecidableEq, Repr, Inhabited

def Summary.text (s : Summary) : String :=
  s.title ++ " v" ++ s.version ++ ((s.author.map (" by " ++ ·)).getD "") ++
    " (" ++ toString s.scripts ++ " scripts, " ++ toString s.commands ++ " commands)" ++
    ((s.brief.map ("\n  " ++ ·)).getD "")

end DiceHost.Plugin
