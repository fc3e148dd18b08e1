import DiceHost.Command.Register
import DiceHost.Plugin.Package
import DiceHost.Plugin.Rules
import DiceHost.Script.Interpreter

/-! # The loaded plugins

A catalog holds the loaded plugins and what they contribute: scripts, commands, rules and
templates. Names of scripts are shared: every script answers to its qualified name, and to
its short name unless another plugin's script answers to it already.
-/
namespace DiceHost.Plugin
open DiceHost.Script DiceHost.Command

structure Loaded where
  /-- the directory it was read from -/
  path : String
  format : Format
  descriptor : Descriptor
  /-- the scripts that were accepted, by qualified name -/
  scripts : KeyTable Script
  commands : KeyTable Definition
  /-- the rule systems it contributed to -/
  systems : List String
  templates : List String
  /-- the names it registered as commands -/
  registered : List String
deriving Inhabited

def Loaded.name (p : Loaded) : String := p.descriptor.name

def Loaded.summary (p : Loaded) : Summary :=
  { name := p.name
    title := p.descriptor.displayName
    version := p.descriptor.version
    author := p.descriptor.author
    brief := p.descriptor.brief
    scripts := p.scripts.length
    commands := p.commands.length }

structure Catalog (language : Interpreter) where
  scripts : Scripts language
  plugins : KeyTable Loaded := []
  rules : RuleRegistry := []
  templates : TemplateRegistry := []
  commands : Command.Tree Target := []

/-- The scripts of all plugins that answer to a name, in the order of plugins. -/
def claimants (plugins : KeyTable Loaded) (name : String) : List Script :=
  plugins.flatMap (fun plugin =>
    plugin.2.scripts.filterMap (fun entry =>
      if entry.2.names.contains name then some entry.2 else none))

/-- The script that a name belongs to: one with this qualified name goes before one with this
short name. -/
def owner? (plugins : KeyTable Loaded) (name : String) : Option Script :=
  let found := claimants plugins name
  (found.find? (fun script => script.qualified = name)).or found.head?

section Scripts
variable {language : Interpreter}

/-- Load a script under its names. The flag says whether it was accepted under its qualified
name; the short name is only taken when no other plugin has it. -/
def loadScript (plugins : KeyTable Loaded) (scripts : Scripts language) (script : Script) :
    Scripts language × Bool :=
  match scripts.load script.qualified script.source script.dialect with
  | (scripts, .error _) => (scripts, false)
  | (scripts, .ok ()) =>
    match script.short with
    | some short =>
      if (owner? plugins short).isSome then (scripts, true)
      else ((scripts.load short script.source script.dialect).1, true)
    | none => (scripts, true)

/-- Load the scripts of a package, and keep the ones that are accepted. -/
def loadScripts (plugins : KeyTable Loaded) :
    KeyTable Script → Scripts language → Scripts language × KeyTable Script
  | [], scripts => (scripts, [])
  | (name, script) :: rest, scripts =>
    let (scripts, accepted) := loadScript plugins scripts script
    let (scripts, kept) := loadScripts plugins rest scripts
    (scripts, if accepted then (name, script) :: kept else kept)

/-- Give a name to the plugin it belongs to now, or forget it. -/
def release (plugins : KeyTable Loaded) (scripts : Scripts language) (name : String) :
    Scripts language :=
  match owner? plugins name with
  | none => scripts.unload name
  | some script =>
    -- a source that was accepted under its qualified name may be refused under this one
    match scripts.load name script.source script.dialect with
    | (scripts, .ok ()) => scripts
    | (scripts, .error _) => scripts.unload name

end Scripts

/-- The rule systems that rulebooks contribute to, each once, in their order. -/
def systemsOf (books : List Rulebook) : List String :=
  (books.foldl (fun found book =>
    if found.contains book.rule then found else book.rule :: found) []).reverse

/-- The definitions of a package in the order of their keys. -/
def Package.definitions (package : Package) : List Definition := package.commands.map (·.2)

/-- The plugin of a package, with the scripts that were accepted. -/
def Package.loaded (package : Package) (kept : KeyTable Script) : Loaded :=
  { path := package.path
    format := package.format
    descriptor := package.descriptor
    scripts := kept
    commands := package.commands
    systems := systemsOf package.rulebooks
    templates := package.templates.map (·.name)
    registered := package.definitions.flatMap namesOf }

namespace Catalog
variable {language : Interpreter}

/-- Remove a plugin and what it contributes; an unknown name changes nothing. -/
def unload (c : Catalog language) (name : String) : Catalog language :=
  match KeyTable.find? c.plugins name with
  | none => c
  | some plugin =>
    -- the names go to their next owners among the plugins that stay
    let plugins := KeyTable.erase c.plugins name
    { plugins := plugins
      scripts := (plugin.scripts.flatMap (fun entry => entry.2.names)).foldl
        (release plugins) c.scripts
      rules := c.rules.removePlugin name
      templates := c.templates.removePlugin name
      commands := c.commands.unregister name }

/-- Add a package as a plugin. -/
def add (c : Catalog language) (package : Package) : Catalog language × Loaded :=
  let name := package.descriptor.name
  let (scripts, kept) := loadScripts c.plugins package.scripts c.scripts
  let plugin := package.loaded kept
  ({ scripts := scripts
     plugins := KeyTable.insert name plugin c.plugins
     rules := package.rulebooks.foldl
       (fun rules book => rules.merge book.rule name book.manual) c.rules
     templates := package.templates.foldl
       (fun templates template => templates.register template name) c.templates
     commands := registerAll name package.descriptor.displayName c.commands
       package.definitions }, plugin)

/-- Load a package; a plugin of the same name is replaced. -/
def load (c : Catalog language) (package : Package) : Catalog language × Loaded :=
  (c.unload package.descriptor.name).add package

def plugin? (c : Catalog language) (name : String) : Option Loaded := KeyTable.find? c.plugins name

/-- Load the package at a path. A package without a usable descriptor changes nothing. -/
def loadPath (root : Directory) (c : Catalog language) (path : String) :
    Catalog language × Except Failure Summary :=
  match Package.read root path with
  | .error failure => (c, .error failure)
  | .ok package =>
    let (c, plugin) := c.load package
    (c, .ok plugin.summary)

/-- Load packages one after another, and count the ones that load. -/
def loadPaths (root : Directory) : List String → Catalog language → Catalog language × Nat
  | [], c => (c, 0)
  | path :: rest, c =>
    match loadPath root c path with
    | (c, .ok _) =>
      let (c, count) := loadPaths root rest c
      (c, count + 1)
    | (c, .error _) => loadPaths root rest c

/-- Load every directory in a directory. -/
def loadDirectory (root : Directory) (c : Catalog language) (directory : String) :
    Catalog language × Nat :=
  match Files.entries? root directory with
  | none => (c, 0)
  | some entries =>
    loadPaths root ((Files.directoryNames entries).map (Files.under directory)) c

/-- Load a plugin again from its directory. It is replaced only if the directory still holds
a usable package, which may have another name. -/
def reload (root : Directory) (c : Catalog language) (name : String) :
    Catalog language × Except Failure Summary :=
  match c.plugin? name with
  | none => (c, .error (.notFound ("plugin '" ++ name ++ "'")))
  | some plugin =>
    match loadPath root c plugin.path with
    | (c, .error failure) => (c, .error failure)
    | (c, .ok summary) => (if summary.name = name then c else c.unload name, .ok summary)

/-- The attributes of a fresh card. -/
def defaults (c : Catalog language) (template : String) : Except Failure Fields :=
  match c.templates.get template with
  | some t => t.defaults
  | none => .error (.notFound ("template '" ++ template ++ "'"))

end Catalog
end DiceHost.Plugin
