import DiceHost.Files.Path
import DiceHost.KeyTable
import DiceHost.Text.Utf8

/-! # File trees

The host reads plugins, configuration and its database from a tree of files. The tree is
a value: writing to it gives a new tree.
-/
namespace DiceHost
open DiceHost.Text

/-- A file with its bytes, or a directory with its entries in name order. -/
inductive FileTree where
  | file (content : List UInt8)
  | dir (entries : List (String × FileTree))
deriving Inhabited

abbrev Directory := KeyTable FileTree

namespace Files

/-- Follow the parts of a path; the head of the stack is the place reached so far. -/
def walk : List FileTree → List String → Option FileTree
  | [], _ => none
  | here :: _, [] => some here
  | here :: up, name :: rest =>
    match here with
    | .file _ => none
    | .dir entries =>
      if name = ".." then walk (if up.isEmpty then [here] else up) rest
      else
        match KeyTable.find? entries name with
        | some next => walk (next :: here :: up) rest
        | none => none

def find? (root : Directory) (path : String) : Option FileTree :=
  walk [.dir root] (parts path)

def isFile (root : Directory) (path : String) : Bool :=
  match find? root path with
  | some (.file _) => true
  | _ => false

def isDirectory (root : Directory) (path : String) : Bool :=
  match find? root path with
  | some (.dir _) => true
  | _ => false

def entries? (root : Directory) (path : String) : Option Directory :=
  match find? root path with
  | some (.dir entries) => some entries
  | _ => none

/-- The text of a file; a file that is not UTF-8 has none. -/
def readText? (root : Directory) (path : String) : Option String :=
  match find? root path with
  | some (.file content) => ofBytes? content
  | _ => none

/-- The names of the plain files in a directory that satisfy a condition, in order. -/
def fileNames (entries : Directory) (p : String → Bool) : List String :=
  entries.filterMap (fun (name, tree) =>
    match tree with
    | .file _ => if p name then some name else none
    | .dir _ => none)

/-- The names of the directories in a directory, in order. -/
def directoryNames (entries : Directory) : List String :=
  entries.filterMap (fun (name, tree) =>
    match tree with
    | .file _ => none
    | .dir _ => some name)

/-- Change what stands at a path, making directories on the way. There is no result when a
file is in the way or the change refuses. -/
def changeAt (change : Option FileTree → Option FileTree) :
    List String → Directory → Option Directory
  | [], _ => none
  | [name], entries =>
    (change (KeyTable.find? entries name)).map (fun tree => KeyTable.insert name tree entries)
  | name :: rest, entries =>
    match KeyTable.find? entries name with
    | some (.file _) => none
    | some (.dir inner) =>
      (changeAt change rest inner).map (fun inner => KeyTable.insert name (.dir inner) entries)
    | none =>
      (changeAt change rest []).map (fun inner => KeyTable.insert name (.dir inner) entries)

/-- Parts without steps to the parent. -/
def settle (ps : List String) : List String :=
  (ps.foldl (fun done p => if p = ".." then done.drop 1 else p :: done) []).reverse

/-- Write a file: the new content is computed from the old one. -/
def writeWith (root : Directory) (path : String) (content : List UInt8 → List UInt8) :
    Option Directory :=
  changeAt (fun old =>
    match old with
    | none => some (.file (content []))
    | some (.file bytes) => some (.file (content bytes))
    | some (.dir _) => none) (settle (parts path)) root

/-- Put a tree at a path, whatever stood there; the root can only be a directory. -/
def put (root : Directory) (path : String) (tree : FileTree) : Directory :=
  match settle (parts path), tree with
  | [], .dir entries => entries
  | names, tree => (changeAt (fun _ => some tree) names root).getD root

/-- Remove the file or directory at a path. -/
def removeAt : List String → Directory → Directory
  | [], entries => entries
  | [name], entries => KeyTable.erase entries name
  | name :: rest, entries =>
    match KeyTable.find? entries name with
    | some (.dir inner) => KeyTable.insert name (.dir (removeAt rest inner)) entries
    | _ => entries

def remove (root : Directory) (path : String) : Directory :=
  removeAt (settle (parts path)) root

end Files
end DiceHost
