import DiceHost.Console

/-! # The command line

The program runs in a directory, reads its configuration, and then answers the lines of the
standard input. Files are read into a tree before they are used.
-/
namespace DiceHost.Console

/-- The file or directory at a path of the file system; what cannot be read is left out. -/
partial def readTree (path : String) : IO (Option FileTree) := do
  try
    let place ← IO.FS.realPath path
    if ← place.isDir then
      let mut entries : Directory := []
      for entry in ← place.readDir do
        if let some tree ← readTree (Files.under path entry.fileName) then
          entries := KeyTable.insert entry.fileName tree entries
      return some (.dir entries)
    else return some (.file (← IO.FS.readBinFile path).toList)
  catch _ => return none

/-- Add what stands at a path to a tree. -/
def mount (root : Directory) (path : String) : IO Directory := do
  match ← readTree path with
  | some tree => return Files.put root path tree
  | none => return root

/-- Write a database to its file. -/
def keep (path : String) (database : Database JsonText) : IO Unit := do
  let directory := Text.join "/" (Files.parentParts path)
  if !directory.isEmpty then
    IO.FS.createDirAll (if Text.startsWith "/" path then "/" ++ directory else directory)
  IO.FS.writeFile path database.fileText

/-- Print without waiting for the end of a line. -/
def say (text : String) : IO Unit := do
  let out ← IO.getStdout
  out.putStr text
  out.flush

/-- Answer the lines of the standard input. -/
partial def chat {σ : Type} [Store σ] (save : σ → IO Unit) (host : EngineHost σ) : IO Unit := do
  say prompt
  let line ← (← IO.getStdin).getLine
  if line.isEmpty then return
  let root ← mount [] host.settings.pluginDir
  match answer root host line with
  | none => return
  | some (host, text) =>
    if let some text := text then say (text ++ "\n")
    save host.store
    chat save host

end DiceHost.Console

open DiceHost DiceHost.Console in
/-- Run the program; the argument is the path of the configuration. -/
def main (arguments : List String) : IO UInt32 := do
  let values ← Config.environment.mapM (fun name => do return (name, ← IO.getEnv name))
  let files ← mount [] (arguments.head?.getD defaultConfig)
  let config := configuration files arguments (fun name => (values.lookup name).join)
  match config.validate with
  | .error _ => return 1
  | .ok () =>
    let root ← mount files config.extensions.pluginDir
    match config.database.backend with
    | .memory =>
      chat (fun _ => return ()) (launch root config ({} : Memory))
      return 0
    | .sqlite =>
      let path := config.database.path
      match Database.openAt (← mount root path) path with
      | .error _ => return 1
      | .ok (database, _) =>
        keep path database
        chat (keep path) (launch root config database)
        return 0
