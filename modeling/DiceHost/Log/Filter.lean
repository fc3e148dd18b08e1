import DiceHost.Config
import DiceHost.Decimal.Numeral
import DiceHost.Files.Tree
import DiceHost.Log.Directives
import DiceHost.Text.Letter

/-! # The log filter and the log file

A directive is a level, a target, or a target with a level after an equals sign. Between
them may stand a span in brackets with a field in braces. `Place` is where the reader of
one directive stands.
-/
namespace DiceHost.Log
open DiceHost.Text

/-- Where the reader of a directive stands. -/
inductive Place where
  | start
  /-- inside a level or a target -/
  | word
  /-- inside the brackets of a span -/
  | span
  /-- inside the braces of a field; `true` once the field has a character -/
  | field (begun : Bool)
  | afterField
  | afterSpan
  /-- after the equals sign, with the characters read so far, reversed -/
  | level (text : List Char)
deriving DecidableEq, Repr

/-- One character of a directive; `none` refuses it. -/
def Place.step (place : Place) (c : Char) : Option Place :=
  match place with
  | start =>
    if c == '[' then some span
    else if c == '-' || c == ':' || c == '_' || isAlphanumeric c then some word
    else none
  | word => some (if c == '=' then level [] else if c == '[' then span else word)
  | span => some (if c == ']' then afterSpan else if c == '{' then field false else span)
  | field begun =>
    if c == '}' then (if begun then some afterField else none) else some (field true)
  | afterField => if c == ']' then some afterSpan else none
  | afterSpan => if c == '=' then some (level []) else none
  | level text => some (level (c :: text))

/-- A level by name in any case, or by a number up to five. -/
def isLevel (text : List Char) : Bool :=
  let name := lowerAscii (String.ofList text)
  ["error", "warn", "info", "debug", "trace", "off"].contains name ||
    (match Decimal.nat64? text with
      | some n => n ≤ 5
      | none => false)

/-- Whether a directive may end here. -/
def Place.accepts : Place → Bool
  | word => true
  | afterSpan => true
  | level text => text.isEmpty || isLevel text.reverse
  | _ => false

def isDirective (directive : List Char) : Bool :=
  match (trimChars directive).foldlM Place.step .start with
  | some place => place.accepts
  | none => false

/-- A well-formed list of directives; empty ones are skipped. -/
def isFilter (spec : String) : Bool :=
  ((pieces (· == ',') spec.toList).filter (fun d => !d.isEmpty)).all isDirective

/-- Check the directives that the configuration sets. -/
def configuredFilter (config : LoggingConfig) : Except Failure String :=
  let spec := directives config.level config.pluginLevel
  if isFilter spec then .ok spec
  else .error (.config ("invalid logging.level '" ++ spec ++ "'"))

/-- Write to the log file: its directories are made, and what it held before is kept or
dropped. -/
def writeFile (root : Directory) (path : String) (keep : Bool) (text : String) :
    Except Failure Directory :=
  match Files.writeWith root path (fun old => (if keep then old else []) ++ bytesOf text) with
  | some root => .ok root
  | none => .error (.files "cannot open the log file")

end DiceHost.Log
