import DiceHost.Command.Line
import DiceHost.Engine.Run
import DiceHost.Host
import DiceHost.Store.File
import DiceHost.Store.Memory

/-! # The console

The console is a chat of one user with the host. Lines with a leading colon are for the
operator; every other line is dispatched like a chat line.
-/
namespace DiceHost
open DiceHost.Text DiceHost.Plugin

namespace Console

/-- The user of the console. -/
def identity : Identity :=
  { user := "console", username := some "console", platform := "console", group := none,
    channel := "console" }

/-- What is printed before each line is read. -/
def prompt : String := "> "

def helpText : String :=
  ":plugins | :plugin <name> | :reload <name> | :rule <keyword> | :quit"

abbrev EngineHost (σ : Type) := Host Engine.language σ

/-- What is told of a loaded plugin. -/
def describe (plugin : Loaded) : String :=
  plugin.summary.text ++ "\n  path: " ++ plugin.path ++
    "\n  rules: " ++ join ", " plugin.systems ++
    "\n  commands: " ++ join ", " plugin.registered

def listing (plugins : KeyTable Loaded) : String :=
  if plugins.isEmpty then "no plugins loaded"
  else join "\n" (plugins.map (fun entry =>
    entry.2.name ++ ": " ++ entry.2.summary.text))

section
variable {σ : Type}

/-- Carry out an operator's command, given without its colon. -/
def admin (root : Directory) (host : EngineHost σ) (input : String) : EngineHost σ × String :=
  let (word, rest) := Command.splitWord input.toList
  let argument := String.ofList rest
  match String.ofList word with
  | "plugins" => (host, listing host.catalog.plugins)
  | "plugin" =>
    (host, ((host.catalog.plugin? argument).map describe).getD
      ("plugin '" ++ argument ++ "' not found"))
  | "reload" =>
    let (host, outcome) := host.withCatalog (fun c => c.reload root argument)
    match outcome with
    | .ok summary => (host, "reloaded " ++ summary.text)
    | .error failure => (host, "reload failed: " ++ failure.message)
  | "rule" =>
    match host.catalog.rules.queryAny argument with
    | some (system, text) => (host, "[" ++ system ++ "] " ++ text)
    | none => (host, "no rule for '" ++ argument ++ "'")
  | _ => (host, helpText)

variable [Store σ]

/-- Answer one line. There is no result when the line ends the session; a blank line has no
answer. -/
def answer (root : Directory) (host : EngineHost σ) (line : String) :
    Option (EngineHost σ × Option String) :=
  let line := trim line
  if line = ":quit" then none
  else
    match stripPrefix ":" line with
    | some input =>
      let (host, text) := admin root host input
      some (host, some text)
    | none =>
      if line.isEmpty then some (host, none)
      else
        let (host, reply) := host.dispatch identity line
        some (host, some (reply.getD "(no command)"))

/-- Answer lines up to the end of the session. The result is everything that is printed, the
latest first. -/
def answerAll (root : Directory) : List String → EngineHost σ → List String →
    EngineHost σ × List String
  | [], host, out => (host, out)
  | line :: rest, host, out =>
    match answer root host line with
    | none => (host, out)
    | some (host, some text) => answerAll root rest host (prompt :: "\n" :: text :: out)
    | some (host, none) => answerAll root rest host (prompt :: out)

end

/-- The lines of an input; a line feed at the end does not begin another line. -/
def lines (input : String) : List String :=
  let parts := splitAtChar '\n' input
  if parts.getLast? = some "" then parts.dropLast else parts

/-- The path of the configuration when none is given. -/
def defaultConfig : String := "config.toml"

/-- The configuration of a session; one that cannot be read is the default. -/
def configuration (root : Directory) (arguments : List String)
    (env : String → Option String) : Config :=
  let path := arguments.head?.getD defaultConfig
  let config := ((Files.readText? root path).bind (fun text =>
    (Config.parse text).toOption)).getD {}
  config.override env

/-- A host over a store, with the plugins of its directory. -/
def launch {σ : Type} (root : Directory) (config : Config) (store : σ) : EngineHost σ :=
  ((Host.start config.extensions (Engine.start config.interpreter.limits) store).discover root).1

/-- The result of a session: what was printed, the exit code, and the files afterwards. -/
structure Outcome where
  output : String
  code : Nat
  files : Directory
deriving Inhabited

/-- A session that could not begin. -/
def refused (root : Directory) : Outcome := ⟨"", 1, root⟩

def session {σ : Type} [Store σ] (root : Directory) (config : Config) (store : σ)
    (input : String) : EngineHost σ × String :=
  let (host, out) := answerAll root (lines input) (launch root config store) [prompt]
  (host, String.join out.reverse)

def run (root : Directory) (arguments : List String) (env : String → Option String)
    (input : String) : Outcome :=
  let config := configuration root arguments env
  match config.validate with
  | .error _ => refused root
  | .ok () =>
    match config.database.backend with
    | .memory =>
      let (_, output) := session root config ({} : Memory) input
      ⟨output, 0, root⟩
    | .sqlite =>
      match Database.openAt root config.database.path with
      | .error _ => refused root
      | .ok (database, root) =>
        let (host, output) := session root config database input
        ⟨output, 0, host.store.save root config.database.path⟩

end Console
end DiceHost
