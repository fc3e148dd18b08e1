import DiceHost.Game.Actions
import DiceHost.Invoke
import DiceHost.Plugin.Catalog

/-! # The host

The host joins the loaded plugins to a store and answers chat lines.
-/
namespace DiceHost
open Script Plugin

structure Host (language : Interpreter) (σ : Type) where
  settings : ExtensionConfig := {}
  catalog : Catalog language
  store : σ
  /-- how many games without a name were asked for -/
  unnamed : UInt32 := 0

namespace Host
variable {language : Interpreter} {σ α : Type}

def start (settings : ExtensionConfig) (scripts : Scripts language) (store : σ) :
    Host language σ :=
  { settings := settings, catalog := { scripts := scripts }, store := store }

def act (host : Host language σ) (action : Action σ α) : Host language σ × Except Failure α :=
  let (outcome, store) := action.run.run host.store
  ({ host with store := store }, outcome)

def withCatalog (host : Host language σ)
    (change : Catalog language → Catalog language × α) : Host language σ × α :=
  let (catalog, outcome) := change host.catalog
  ({ host with catalog := catalog }, outcome)

/-- Load every plugin of the plugin directory, and count them. -/
def discover (host : Host language σ) (root : Directory) : Host language σ × Nat :=
  host.withCatalog (fun c => c.loadDirectory root host.settings.pluginDir)

variable [Store σ]

/-- Answer a chat line; a line that is no command has no answer. -/
def dispatch (host : Host language σ) (identity : Identity) (line : String) :
    Host language σ × Option String :=
  match host.catalog.commands.resolve line with
  | none => (host, none)
  | some invocation =>
    let catalog := host.catalog
    let target := invocation.handler
    let ((scripts, reply), store) :=
      (invoke host.settings catalog.rules.snapshot catalog.templates.aliasTable catalog.scripts
        target.script identity (target.argument invocation.tail)).run host.store
    ({ host with catalog := { catalog with scripts := scripts }, store := store }, some reply)

def createCard (host : Host language σ) (owner : Owner) (name template : String) :
    Host language σ × Except Failure Card :=
  match host.catalog.defaults template with
  | .error failure => (host, .error failure)
  | .ok attributes => host.act (Card.create owner name template attributes)

def createGame (host : Host language σ) (platform channel : String) (name : Option String) :
    Host language σ × Except Failure Game :=
  let ((unnamed, outcome), store) :=
    (Game.create host.unnamed platform channel name).run host.store
  ({ host with unnamed := unnamed, store := store }, outcome)

def updateGame (host : Host language σ) (game : Game) (change : GameChange) :
    Host language σ × Game × Except Failure Bool :=
  let ((game, outcome), store) := (game.update change).run host.store
  ({ host with store := store }, game, outcome)

end Host
end DiceHost
