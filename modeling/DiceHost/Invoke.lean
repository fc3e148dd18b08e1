import DiceHost.Context.Build
import DiceHost.Config
import DiceHost.Render
import DiceHost.Script.Interpreter

/-! # Answering a command

A command resolves its context, runs its script, and then settles: the writes of a script
that succeeded reach the store before the reply is rendered, those of one that failed are
dropped. Every outcome is a reply.
-/
namespace DiceHost
open Script

/-- The first text that is not empty, or else the last one. -/
def firstFilled (texts : List (Option String)) (other : String) : String :=
  ((texts.filterMap id).find? (fun t => !t.isEmpty)).getD other

/-- What the placeholders of a reply stand for. -/
def placeholders (settings : ExtensionConfig) (identity : Identity) (context : Context)
    (cardText : Option String) : Placeholders :=
  let pc := context.characterName.getD ""
  { nick := firstFilled [identity.username, some identity.user] settings.fallbackNick
    uid := identity.user
    gid := context.group
    card := firstFilled [cardText, some pc] settings.fallbackCard
    pc := pc }

section
variable {σ : Type} [Store σ]

/-- The card text after the writes of a script; the earlier one when it cannot be read. -/
def rereadCardText (context : Context) : StateM σ (Option String) := do
  match ← (Store.value? .group context.group (Card.textKey context.user)).run with
  | .ok value => return value.bind Json.plainText?
  | .error _ => return context.cardText

/-- Turn the outcome of a script into a reply, and settle its writes. -/
def settle (settings : ExtensionConfig) (identity : Identity) (context : Context)
    (storage : Storage) : Except Failure String → StateM σ String
  | .error failure => return failure.reply
  | .ok text => do
    -- the reply shows the card text that the script itself may have written
    let _ ← storage.flush
    let cardText ← rereadCardText context
    return render (placeholders settings identity context cardText) text

def invoke {language : Interpreter} (settings : ExtensionConfig) (rules : Manuals)
    (aliases : AliasTable) (scripts : Scripts language) (script : String)
    (identity : Identity) (tail : String) : StateM σ (Scripts language × String) := do
  let context ← Context.build rules aliases identity tail
  let (scripts, storage, outcome) := scripts.call script context
  let reply ← settle settings identity context storage outcome
  return (scripts, reply)

end
end DiceHost
