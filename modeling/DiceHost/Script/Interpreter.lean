import DiceHost.Context
import DiceHost.Failure
import DiceHost.Script.Load

/-! # Interpreters

An interpreter compiles sources and runs what it compiled. Which names are loaded, and with
what code, is kept beside its state and is handed to it: a script may ask for another one by
name.
-/
namespace DiceHost.Script

structure Interpreter where
  State : Type
  Code : Type
  compile : State → KeyTable Code → String → String → Dialect → State × Except Failure Code
  /-- Run the code that is loaded under a name. What was written is in the storage that comes
  back, also when the run failed. -/
  run : State → KeyTable Code → String → Code → Context → State × Storage × Except Failure String

/-- A script under a name: what it was made from, and its code. -/
structure Compiled (language : Interpreter) where
  source : String
  dialect : Dialect
  code : language.Code

/-- The scripts that are loaded, by name, and the state of their interpreter. -/
structure Scripts (language : Interpreter) where
  state : language.State
  loaded : KeyTable (Compiled language) := []

namespace Scripts
variable {language : Interpreter}

def codes (scripts : Scripts language) : KeyTable language.Code :=
  KeyTable.mapValues Compiled.code scripts.loaded

/-- Load a source under a name. A source that is refused leaves the name as it was. -/
def load (scripts : Scripts language) (name source : String) (dialect : Dialect) :
    Scripts language × Except Failure Unit :=
  match language.compile scripts.state scripts.codes name source dialect with
  | (state, .ok code) =>
    (⟨state, KeyTable.insert name ⟨source, dialect, code⟩ scripts.loaded⟩, .ok ())
  | (state, .error failure) => (⟨state, scripts.loaded⟩, .error failure)

def has (scripts : Scripts language) (name : String) : Bool :=
  KeyTable.contains scripts.loaded name

def unload (scripts : Scripts language) (name : String) : Scripts language :=
  { scripts with loaded := KeyTable.erase scripts.loaded name }

def names (scripts : Scripts language) : List String := KeyTable.keys scripts.loaded

def call (scripts : Scripts language) (name : String) (context : Context) :
    Scripts language × Storage × Except Failure String :=
  match KeyTable.find? scripts.loaded name with
  | none => (scripts, context.storage, .error (.notFound ("script '" ++ name ++ "'")))
  | some script =>
    let (state, storage, outcome) :=
      language.run scripts.state scripts.codes name script.code context
    (⟨state, scripts.loaded⟩, storage, outcome)

end Scripts
end DiceHost.Script
