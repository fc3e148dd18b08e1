import DiceHost.Plugin.Descriptor
import DiceHost.Plugin.Reply
import DiceHost.Plugin.Rulebook
import DiceHost.Plugin.Template
import DiceHost.Script.Load

/-! # Plugin packages

A package is a directory with a descriptor and four directories of content. Only an unusable
descriptor makes a package unusable; any other file that cannot be read is left out.
-/
namespace DiceHost.Plugin
open DiceHost.Script

structure Package where
  path : String
  format : Format
  descriptor : Descriptor
  /-- by qualified name -/
  scripts : KeyTable Script
  rulebooks : List Rulebook
  templates : List Template
  /-- by key; of two definitions of one key the later stays -/
  commands : KeyTable Definition
deriving Inhabited

/-- The format of the descriptor of a package: a JSON file goes before a TOML file. -/
def descriptorFormat? (root : Directory) (path : String) : Option Format :=
  [Format.json, Format.toml].find? (fun format =>
    Files.isFile root (Files.under path format.fileName))

def readDescriptor (root : Directory) (path : String) : Except Failure (Format × Descriptor) :=
  match descriptorFormat? root path with
  | none => .error (.manifest (Files.under path Format.json.fileName)
      "no descriptor.json or descriptor.toml")
  | some format =>
    let file := Files.under path format.fileName
    match Files.readText? root file with
    | none => .error (.manifest file "unreadable file")
    | some text =>
      match Descriptor.parse format text with
      | .ok descriptor => .ok (format, descriptor)
      | .error reason => .error (.manifest file reason)

/-- Read the files of a directory that have one of some extensions, in name order, and keep
what can be read. -/
def readAll {α : Type} (root : Directory) (directory : String) (extensions : List String)
    (parse : String → String → Except Failure α) : List α :=
  let entries := (Files.entries? root directory).getD []
  let names := Files.fileNames entries (fun name =>
    (Files.extension? name).any (extensions.contains ·))
  names.filterMap (fun name =>
    let file := Files.under directory name
    (Files.readText? root file).bind (fun text => (parse file text).toOption))

def Package.read (root : Directory) (path : String) : Except Failure Package := do
  let (format, descriptor) ← readDescriptor root path
  let name := descriptor.name
  let replies := readAll root (Files.under path "reply") ["toml"]
    (fun file text => parseReplies file name text)
  return {
    path := path
    format := format
    descriptor := descriptor
    scripts := (scanDirectory root (Files.under path "script") name).scripts
    rulebooks := readAll root (Files.under path "rulebook") ["yaml", "yml"] Rulebook.parse
    templates := readAll root (Files.under path "template") ["xml"]
      (fun _ text => Template.parse text)
    commands := KeyTable.ofList (replies.flatten.map (fun d => (d.key, d))) }

end DiceHost.Plugin
