import DiceHost.Failure
import DiceHost.Toml.Section

/-! # Configuration

Four sections with a default for every field. The environment overrides three fields,
and `validate` checks what the host needs before it starts.
-/
namespace DiceHost
open DiceHost.Text DiceHost.Toml

/-- Where plugins are found, and what stands for names that are not known. -/
structure ExtensionConfig where
  pluginDir : String := "data/plugins"
  fallbackNick : String := "you"
  fallbackCard : String := "character card"
deriving DecidableEq, Repr, Inhabited

/-- Limits of the script engine; zero means no limit. -/
structure InterpreterConfig where
  maxInstructions : Nat := 1000000
  maxMemoryMb : Nat := 16
deriving DecidableEq, Repr, Inhabited

inductive Backend where
  | memory | sqlite
deriving DecidableEq, Repr, Inhabited

structure DatabaseConfig where
  backend : Backend := .sqlite
  path : String := "data/dicebridge.db"
deriving DecidableEq, Repr, Inhabited

structure LoggingConfig where
  level : String := "info"
  pluginLevel : Option String := none
  file : String := "logs/dicebridge.log"
  append : Bool := true
deriving DecidableEq, Repr, Inhabited

structure Config where
  extensions : ExtensionConfig := {}
  interpreter : InterpreterConfig := {}
  database : DatabaseConfig := {}
  logging : LoggingConfig := {}
deriving DecidableEq, Repr, Inhabited

/-- Resource limits of one script engine; zero means no limit. -/
structure Limits where
  instructions : Nat
  memory : Nat
deriving DecidableEq, Repr, Inhabited

/-- The limits a configuration sets; the memory in bytes is kept in 64 bits. -/
def InterpreterConfig.limits (c : InterpreterConfig) : Limits :=
  ⟨c.maxInstructions, c.maxMemoryMb * 1048576 % Nat.pow 2 64⟩

namespace Config

/-- The backend a value names: a word, or a table with that word and nothing in it. -/
def backend? : Toml → Option Backend
  | .str "memory" => some .memory
  | .str "sqlite" => some .sqlite
  | .table [("memory", .table [])] => some .memory
  | .table [("sqlite", .table [])] => some .sqlite
  | .table [("memory", .arr [])] => some .memory
  | .table [("sqlite", .arr [])] => some .sqlite
  | _ => none

def readExtensions (s : Section) : Option ExtensionConfig := do
  let d : ExtensionConfig := {}
  return ⟨← s.getD 0 "plugin_dir" text? d.pluginDir,
    ← s.getD 1 "fallback_nick" text? d.fallbackNick,
    ← s.getD 2 "fallback_card" text? d.fallbackCard⟩

def readInterpreter (s : Section) : Option InterpreterConfig := do
  let d : InterpreterConfig := {}
  return ⟨← s.getD 0 "max_instructions" count? d.maxInstructions,
    ← s.getD 1 "max_memory_mb" count? d.maxMemoryMb⟩

def readDatabase (s : Section) : Option DatabaseConfig := do
  let d : DatabaseConfig := {}
  return ⟨← s.getD 0 "backend" backend? d.backend, ← s.getD 1 "path" text? d.path⟩

def readLogging (s : Section) : Option LoggingConfig := do
  let d : LoggingConfig := {}
  return ⟨← s.getD 0 "level" text? d.level, ← s.get? 1 "plugin_level" text?,
    ← s.getD 2 "file" text? d.file, ← s.getD 3 "append" flag? d.append⟩

def ofTable (fields : KeyTable Toml) : Option Config := do
  let top := Section.named fields
  let part (place : Nat) (name : String) := top.getD place name section? .absent
  return ⟨← readExtensions (← part 0 "extensions"), ← readInterpreter (← part 1 "interpreter"),
    ← readDatabase (← part 2 "database"), ← readLogging (← part 3 "logging")⟩

def parse (text : String) : Except Failure Config :=
  match (Toml.read text).bind ofTable with
  | some config => .ok config
  | none => .error (.config "config parse error: malformed document")

/-- The environment variables that override a field. -/
def environment : List String :=
  ["DICEBRIDGE_PLUGIN_DIR", "DICEBRIDGE_DB_PATH", "DICEBRIDGE_LOG_LEVEL"]

/-- Let the environment override fields; an empty variable does not count. -/
def override (env : String → Option String) (config : Config) : Config :=
  let value (name current : String) : String :=
    match env name with
    | some v => if v.isEmpty then current else v
    | none => current
  { config with
    extensions := { config.extensions with
      pluginDir := value "DICEBRIDGE_PLUGIN_DIR" config.extensions.pluginDir }
    database := { config.database with
      path := value "DICEBRIDGE_DB_PATH" config.database.path }
    logging := { config.logging with
      level := value "DICEBRIDGE_LOG_LEVEL" config.logging.level } }

/-- What must hold before the host starts. -/
def validate (config : Config) : Except Failure Unit :=
  if isBlankText config.extensions.pluginDir then
    .error (.config "extensions.plugin_dir must not be empty")
  else if config.database.backend = .sqlite ∧ isBlankText config.database.path then
    .error (.config "database.path must be set for the sqlite backend")
  else .ok ()

end Config
end DiceHost
