import DiceHost.Text.Split

/-! # Paths

A path is a text with slashes. Empty parts and single full stops do not count; the last
remaining part is the name of the file, unless it leads back to the parent.
-/
namespace DiceHost.Files
open DiceHost.Text

/-- The parts of a path that count. -/
def parts (path : String) : List String :=
  (splitAtChar '/' path).filter (fun p => p != "" && p != ".")

/-- A path below another one; an absolute path stands for itself. -/
def under (base name : String) : String :=
  if startsWith "/" name || base.isEmpty then name
  else if endsWith "/" base then base ++ name
  else base ++ "/" ++ name

/-- The last part, when it names something. -/
def fileName? (path : String) : Option String :=
  (parts path).getLast?.filter (· != "..")

/-- A file name before and after its last full stop; a leading full stop does not count. -/
def splitName (name : String) : String × Option String :=
  match cutLast (· == '.') name.toList with
  | some ([], _) => (name, none)
  | some (stem, extension) => (String.ofList stem, some (String.ofList extension))
  | none => (name, none)

def stem (name : String) : String := (splitName name).1

/-- What follows the last full stop of the file name. -/
def extension? (path : String) : Option String :=
  (fileName? path).bind (fun name => (splitName name).2)

/-- The path without its last part. -/
def parentParts (path : String) : List String := (parts path).dropLast

end DiceHost.Files
