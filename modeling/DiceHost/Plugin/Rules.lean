import DiceHost.KeyTable

/-! # The rule registry

Rule systems map keywords to text. Several plugins may contribute to one system; every
entry remembers the plugin that wrote it last, so that unloading a plugin removes what is
still its own.
-/
namespace DiceHost.Plugin

/-- One rule text and the plugin it came from. -/
structure Rule where
  text : String
  plugin : String
deriving DecidableEq, Repr, Inhabited

/-- The rule systems by name, each with its rules by keyword. -/
abbrev RuleRegistry := KeyTable (KeyTable Rule)

namespace RuleRegistry

/-- The rules of a system; an unknown system has none. -/
def manual (registry : RuleRegistry) (system : String) : KeyTable Rule :=
  (KeyTable.find? registry system).getD []

/-- Write entries of a plugin into a system, over what stands there. -/
def merge (registry : RuleRegistry) (system plugin : String)
    (entries : List (String × String)) : RuleRegistry :=
  let rules := entries.map (fun (keyword, text) => (keyword, (⟨text, plugin⟩ : Rule)))
  KeyTable.insert system (KeyTable.insertAll (registry.manual system) rules) registry

/-- The text of a keyword in one system. -/
def query (registry : RuleRegistry) (system keyword : String) : Option String :=
  (KeyTable.find? (registry.manual system) keyword).map (·.text)

/-- The first system in name order that knows a keyword, and its text. -/
def queryAny (registry : RuleRegistry) (keyword : String) : Option (String × String) :=
  registry.findSome? (fun (system, rules) =>
    (KeyTable.find? rules keyword).map (fun rule => (system, rule.text)))

/-- The entries of a system that belong to a plugin. -/
def owned (plugin : String) (rules : KeyTable Rule) : KeyTable Rule :=
  rules.filter (fun entry => entry.2.plugin = plugin)

/-- Remove every entry of a plugin; systems without entries go with them. -/
def removePlugin (registry : RuleRegistry) (plugin : String) : RuleRegistry :=
  (KeyTable.mapValues (fun rules => rules.filter (fun entry => entry.2.plugin ≠ plugin))
    registry).filter (fun entry => !entry.2.isEmpty)

/-- How many entries belong to a plugin. -/
def countPlugin (registry : RuleRegistry) (plugin : String) : Nat :=
  (registry.flatMap (fun entry => owned plugin entry.2)).length

/-- The texts of all systems. -/
def snapshot (registry : RuleRegistry) : KeyTable (KeyTable String) :=
  KeyTable.mapValues (KeyTable.mapValues Rule.text) registry

end RuleRegistry
end DiceHost.Plugin
