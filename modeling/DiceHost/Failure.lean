import DiceHost.Text.Split

/-! # What can go wrong

Every operation that can fail reports one of these. The message is what a user or an
operator reads; a failed command is answered with `reply`.
-/
namespace DiceHost
open DiceHost.Text

inductive Failure where
  /-- the descriptor of a plugin is missing or unusable -/
  | manifest (path reason : String)
  /-- one script cannot be compiled or registered -/
  | scriptLoad (name reason : String)
  /-- a script raised an error -/
  | interpreter (text : String)
  /-- a cached card cannot be read back -/
  | cacheCorruption (key reason : String)
  /-- template formulas depend on each other -/
  | circularFormula (fields : List String)
  | formula (field reason : String)
  | template (reason : String)
  | rulebook (path reason : String)
  /-- a command definition file is unusable -/
  | commandFile (path reason : String)
  | store (reason : String)
  | files (reason : String)
  | config (reason : String)
  | notFound (what : String)
  /-- a precondition of a request does not hold -/
  | validation (reason : String)
deriving DecidableEq, Repr, Inhabited

def Failure.message : Failure → String
  | manifest path reason => "invalid manifest at " ++ path ++ ": " ++ reason
  | scriptLoad name reason => "failed to load script '" ++ name ++ "': " ++ reason
  | interpreter text => text
  | cacheCorruption key reason => "corrupted cache entry '" ++ key ++ "': " ++ reason
  | circularFormula fields => "circular formula between fields: " ++ join ", " fields
  | formula field reason => "invalid formula for '" ++ field ++ "': " ++ reason
  | template reason => "template error: " ++ reason
  | rulebook path reason => "invalid rulebook " ++ path ++ ": " ++ reason
  | commandFile path reason => "invalid command config " ++ path ++ ": " ++ reason
  | store reason => "store error: " ++ reason
  | files reason => "I/O error: " ++ reason
  | config reason => "configuration error: " ++ reason
  | notFound what => what ++ " not found"
  | validation reason => "validation error: " ++ reason

/-- The reply to a command that failed: only the first line of the message is shown. -/
def Failure.reply (failure : Failure) : String := "[error] " ++ firstLine failure.message

end DiceHost
