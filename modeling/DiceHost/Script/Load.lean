import DiceHost.Digest
import DiceHost.Files.Tree

/-! # Collecting scripts

The scripts of a plugin are the files below its script directory whose extension names a
dialect. A script is known under a qualified name made of the plugin and its path, and
under a short name without the plugin.

The tree is one that can be read to its end: its names are text, and every directory can be
listed. A file may hold bytes that are no text, but there is none that the system refuses to
read.
-/
namespace DiceHost.Script
open DiceHost.Text

inductive Dialect where
  | lua | js
deriving DecidableEq, Repr, Inhabited

def Dialect.extension : Dialect → String
  | lua => "lua"
  | js => "js"

/-- The dialect that the extension of a path names. -/
def Dialect.ofPath (path : String) : Option Dialect :=
  match Files.extension? path with
  | some "lua" => some .lua
  | some "js" => some .js
  | _ => none

end DiceHost.Script

/-- A script as it was found. -/
structure DiceHost.Script where
  /-- the plugin and the path with full stops, without the extension -/
  qualified : String
  /-- the qualified name without the plugin -/
  short : Option String
  dialect : Script.Dialect
  source : String
  digest : String
  /-- the path below the script directory -/
  path : String
deriving DecidableEq, Repr, Inhabited

namespace DiceHost.Script
open DiceHost.Text

/-- Every name a script is known under. -/
def names (s : Script) : List String := s.qualified :: s.short.toList

/-- The qualified name without the plugin and the full stop after it. -/
def shortName (qualified plugin : String) : Option String :=
  (stripPrefix (plugin ++ ".") qualified).filter (fun rest => !rest.isEmpty)

/-- The qualified name of a path, given by its directories and its file name. -/
def qualifiedName (plugin : String) (directories : List String) (file : String) : String :=
  let name := Files.stem file
  let last := if name = "." ∨ name = ".." then [] else [name]
  join "." (plugin :: (directories ++ last))

def make (plugin : String) (directories : List String) (file : String)
    (dialect : Dialect) (source : String) : Script :=
  let qualified := qualifiedName plugin directories file
  { qualified := qualified
    short := shortName qualified plugin
    dialect := dialect
    source := source
    digest := Digest.ofText source
    path := (join "/" (directories ++ [file])).replace "\\" "/" }

/-- The scripts found, by qualified name, and the files that could not be read. -/
structure Scan where
  scripts : KeyTable Script := []
  /-- paths below the script directory, the latest first -/
  unreadable : List String := []
deriving Inhabited

/-- Take one file into account. A later script with the same qualified name wins. -/
def Scan.file (plugin : String) (directories : List String) (name : String)
    (content : List UInt8) (scan : Scan) : Scan :=
  match Dialect.ofPath name with
  | none => scan
  | some dialect =>
    match ofBytes? content with
    | none => { scan with unreadable := join "/" (directories ++ [name]) :: scan.unreadable }
    | some source =>
      let script := Script.make plugin directories name dialect source
      { scan with scripts := KeyTable.insert script.qualified script scan.scripts }

/-- Take a list of entries into account, and everything below them. -/
def Scan.entries (plugin : String) (directories : List String) :
    List (String × FileTree) → Scan → Scan
  | [], scan => scan
  | (name, .file content) :: rest, scan =>
    entries plugin directories rest (scan.file plugin directories name content)
  | (name, .dir inner) :: rest, scan =>
    entries plugin directories rest (entries plugin (directories ++ [name]) inner scan)

/-- Collect the scripts below a directory; a missing directory holds none. -/
def scanDirectory (root : Directory) (directory plugin : String) : Scan :=
  match Files.entries? root directory with
  | some found => Scan.entries plugin [] found {}
  | none => {}

end DiceHost.Script
