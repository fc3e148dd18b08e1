import DiceHost.Plugin.Catalog
import DiceHost.Proofs.KeyTable

/-! # What plugins contribute

Commands, rules and templates are kept in three registries, each with its own notes on who
contributed what. Read through one function they follow the same two laws: a package that comes
lays what it declares over what was there, and a plugin that goes takes along what is still its
own.
-/
namespace DiceHost.Plugin
open DiceHost.Script DiceHost.Command
variable {language : Interpreter}

/-- What is looked up by name among the contributions. -/
inductive Key where
  | command (name : String)
  | rule (system keyword : String)
  | template (name : String)

inductive Contribution where
  | command (usage : String) (target : Target)
  | rule (text : String)
  | template (template : Template)
deriving DecidableEq

/-! ## What a package declares -/

/-- The names that a definition stands for, with their usage and targets. -/
def Definition.commands (title : String) (definition : Definition) : KeyTable (String × Target) :=
  if isTypable definition.commandName then
    KeyTable.mapValues (fun target => (usageLine title definition, target))
      (targets definition.commandName definition.script)
  else []

/-- The commands of a package, definition by definition in the order of their keys. -/
def Package.commandEntries (package : Package) : List (String × (String × Target)) :=
  package.definitions.flatMap (Definition.commands package.descriptor.displayName)

/-- The texts of a package for a rule system, rulebook by rulebook in the order of the files. -/
def Package.ruleEntries (package : Package) (system : String) : List (String × String) :=
  (package.rulebooks.filter (fun book => book.rule = system)).flatMap Rulebook.manual

def Package.templateEntries (package : Package) : List (String × Template) :=
  package.templates.map (fun template => (template.name, template))

/-- What a package declares for a key; its last word counts. -/
def Package.declares (package : Package) : Key → Option Contribution
  | .command name =>
    (KeyTable.find? package.commandEntries.reverse name).map (fun found => .command found.1 found.2)
  | .rule system keyword =>
    (KeyTable.find? (package.ruleEntries system).reverse keyword).map .rule
  | .template name => (KeyTable.find? package.templateEntries.reverse name).map .template

/-! ## What the host serves -/

/-- What is found under a key. -/
def Catalog.serves (c : Catalog language) : Key → Option Contribution
  | .command name =>
    (KeyTable.find? c.commands name).map (fun entry => .command entry.usage entry.handler)
  | .rule system keyword => (c.rules.query system keyword).map .rule
  | .template name => (c.templates.get name).map .template

/-- What is found under a key, and the plugin that it is noted for. -/
def Catalog.noted? (c : Catalog language) : Key → Option (String × Contribution)
  | .command name =>
    (KeyTable.find? c.commands name).map
      (fun entry => (entry.owner, .command entry.usage entry.handler))
  | .rule system keyword =>
    (KeyTable.find? (c.rules.manual system) keyword).map
      (fun rule => (rule.plugin, .rule rule.text))
  | .template name =>
    (KeyTable.find? c.templates name).map (fun owned => (owned.plugin, .template owned.template))

theorem serves_eq (c : Catalog language) (key : Key) : c.serves key = (c.noted? key).map (·.2) := by
  cases key with
  | command name => simp [Catalog.serves, Catalog.noted?, Function.comp_def]
  | rule system keyword =>
    simp [Catalog.serves, Catalog.noted?, RuleRegistry.query, Function.comp_def]
  | template name => simp [Catalog.serves, Catalog.noted?, TemplateRegistry.get, Function.comp_def]

/-! ## Registries -/

theorem registerAll_eq (plugin title : String) (tree : Command.Tree Target)
    (definitions : List Definition) :
    registerAll plugin title tree definitions = KeyTable.insertAll tree
      (KeyTable.mapValues (fun found => ⟨plugin, found.1, found.2⟩)
        (definitions.flatMap (Definition.commands title))) := by
  induction definitions generalizing tree with
  | nil => rfl
  | cons definition rest ih =>
    have hone : registerOne plugin title tree definition = KeyTable.insertAll tree
        (KeyTable.mapValues (fun found => ⟨plugin, found.1, found.2⟩)
          (definition.commands title)) := by
      unfold registerOne Definition.commands
      split
      · rw [KeyTable.insertAll, KeyTable.mapValues, KeyTable.mapValues, List.map_map,
          List.foldl_map]
        rfl
      · rfl
    have hstep : registerAll plugin title tree (definition :: rest) =
        registerAll plugin title (registerOne plugin title tree definition) rest := rfl
    rw [hstep, ih, hone, List.flatMap_cons, ← KeyTable.insertAll_append, KeyTable.mapValues,
      KeyTable.mapValues, KeyTable.mapValues, List.map_append]

namespace RuleRegistry
variable {registry : RuleRegistry} {plugin : String}

theorem manual_merge (registry : RuleRegistry) (system plugin : String)
    (entries : List (String × String)) (other : String) :
    (registry.merge system plugin entries).manual other =
      KeyTable.insertAll (registry.manual other)
        (KeyTable.mapValues (⟨·, plugin⟩) (if system = other then entries else [])) := by
  unfold merge
  rw [manual, KeyTable.find?_insert]
  by_cases h : other = system
  · subst h
    rw [if_pos rfl, if_pos rfl]
    rfl
  · rw [if_neg h, if_neg (Ne.symm h)]
    rfl

theorem manual_mergeAll (plugin : String) (books : List Rulebook) (registry : RuleRegistry)
    (system : String) :
    (books.foldl (fun rules book => rules.merge book.rule plugin book.manual) registry).manual
        system =
      KeyTable.insertAll (registry.manual system) (KeyTable.mapValues (⟨·, plugin⟩)
        ((books.filter (fun book => book.rule = system)).flatMap Rulebook.manual)) := by
  induction books generalizing registry with
  | nil => rfl
  | cons book rest ih =>
    rw [List.foldl_cons, ih, manual_merge, ← KeyTable.insertAll_append, KeyTable.mapValues,
      KeyTable.mapValues, KeyTable.mapValues, ← List.map_append, List.filter_cons]
    by_cases h : book.rule = system
    · simp [h]
    · simp [h]

theorem ordered_mergeAll (plugin : String) (books : List Rulebook)
    (h : KeyTable.Ordered registry) : KeyTable.Ordered
      (books.foldl (fun rules book => RuleRegistry.merge rules book.rule plugin book.manual)
        registry) := by
  induction books generalizing registry with
  | nil => exact h
  | cons book rest ih => exact ih (h.insert _ _)

/-- Systems that are left without entries make no difference to what is found. -/
theorem manual_removePlugin (h : KeyTable.Ordered registry) (plugin system : String) :
    (registry.removePlugin plugin).manual system =
      (registry.manual system).filter (fun entry => entry.2.plugin ≠ plugin) := by
  unfold removePlugin
  rw [manual, (h.mapValues _).find?_filter, KeyTable.find?_mapValues, manual]
  cases KeyTable.find? registry system with
  | none => rfl
  | some rules =>
    simp only [Option.map_some, Option.filter, Option.getD_some]
    generalize rules.filter (fun entry => entry.2.plugin ≠ plugin) = left
    cases left <;> rfl

end RuleRegistry

theorem registerTemplates_eq (plugin : String) (templates : List Template)
    (registry : TemplateRegistry) :
    templates.foldl (fun found template => TemplateRegistry.register found template plugin)
        registry =
      KeyTable.insertAll registry (KeyTable.mapValues (⟨·, plugin⟩)
        (templates.map (fun template => (template.name, template)))) := by
  rw [KeyTable.insertAll, KeyTable.mapValues, List.map_map, List.foldl_map]
  rfl

/-! ## The two laws -/

/-- The registries are in order, and every entry is noted for a loaded plugin. -/
structure Catalog.Tidy (c : Catalog language) : Prop where
  commands : KeyTable.Ordered c.commands
  rules : KeyTable.Ordered c.rules
  manuals : ∀ system, KeyTable.Ordered (c.rules.manual system)
  templates : KeyTable.Ordered c.templates
  loaded : ∀ key owner contribution, c.noted? key = some (owner, contribution) →
    (c.plugin? owner).isSome

theorem tidy_empty (state : language.State) : Catalog.Tidy { scripts := ⟨state, []⟩ } := by
  refine ⟨List.Pairwise.nil, List.Pairwise.nil, fun _ => List.Pairwise.nil, List.Pairwise.nil, ?_⟩
  intro key owner contribution h
  cases key <;> cases h

variable {c : Catalog language}

/-- A package lays what it declares over what is there. -/
theorem noted?_add (c : Catalog language) (package : Package) (key : Key) :
    (c.add package).1.noted? key =
      ((package.declares key).map (fun found => (package.descriptor.name, found))).or
        (c.noted? key) := by
  cases key with
  | command name =>
    simp only [Catalog.add, Catalog.noted?, registerAll_eq, KeyTable.find?_insertAll_mapValues,
      Package.declares, Option.map_or, Option.map_map]
    rfl
  | rule system keyword =>
    simp only [Catalog.add, Catalog.noted?, RuleRegistry.manual_mergeAll,
      KeyTable.find?_insertAll_mapValues, Package.declares, Option.map_or, Option.map_map]
    rfl
  | template name =>
    simp only [Catalog.add, Catalog.noted?, registerTemplates_eq,
      KeyTable.find?_insertAll_mapValues, Package.declares, Option.map_or, Option.map_map]
    rfl

theorem map_filter_owner {α : Type} (found : Option α) (owner : α → String)
    (contribution : α → Contribution) (gone : String) :
    (found.filter (fun value => owner value ≠ gone)).map
        (fun value => (owner value, contribution value)) =
      (found.map (fun value => (owner value, contribution value))).filter
        (fun entry => entry.1 ≠ gone) := by
  cases found with
  | none => rfl
  | some value => by_cases h : owner value = gone <;> simp [Option.filter, h]

/-- A plugin that goes takes along what is noted for it. -/
theorem noted?_unload (h : c.Tidy) (gone : String) (key : Key) :
    (c.unload gone).noted? key = (c.noted? key).filter (fun found => found.1 ≠ gone) := by
  unfold Catalog.unload
  cases hplugin : KeyTable.find? c.plugins gone with
  | none =>
    dsimp only
    cases hentry : c.noted? key with
    | none => rfl
    | some found =>
      have hloaded := h.loaded key found.1 found.2 hentry
      have hne : found.1 ≠ gone := by
        rintro rfl
        rw [Catalog.plugin?, hplugin] at hloaded
        cases hloaded
      simp [Option.filter, hne]
  | some plugin =>
    cases key with
    | command name =>
      simp only [Catalog.noted?, Tree.unregister, h.commands.find?_filter]
      exact map_filter_owner _ Entry.owner _ gone
    | rule system keyword =>
      simp only [Catalog.noted?, RuleRegistry.manual_removePlugin h.rules,
        (h.manuals system).find?_filter]
      exact map_filter_owner _ Rule.plugin _ gone
    | template name =>
      simp only [Catalog.noted?, TemplateRegistry.removePlugin, h.templates.find?_filter]
      exact map_filter_owner _ OwnedTemplate.plugin _ gone

theorem plugin?_add (c : Catalog language) (package : Package) (owner : String)
    (h : owner = package.descriptor.name ∨ (c.plugin? owner).isSome) :
    ((c.add package).1.plugin? owner).isSome := by
  have hplugins : (c.add package).1.plugins = KeyTable.insert package.descriptor.name
      (c.add package).2 c.plugins := rfl
  rw [Catalog.plugin?, hplugins, KeyTable.find?_insert]
  rcases h with rfl | h
  · rw [if_pos rfl]
    rfl
  · split
    · rfl
    · exact h

theorem plugin?_unload (c : Catalog language) {owner gone : String} (hne : owner ≠ gone) :
    (c.unload gone).plugin? owner = c.plugin? owner := by
  unfold Catalog.unload
  cases hplugin : KeyTable.find? c.plugins gone with
  | none => rfl
  | some plugin =>
    dsimp only [Catalog.plugin?]
    rw [KeyTable.find?_erase, if_neg hne]

namespace Catalog.Tidy

theorem add (h : c.Tidy) (package : Package) : (c.add package).1.Tidy := by
  refine ⟨?_, RuleRegistry.ordered_mergeAll _ _ h.rules, ?_, ?_, ?_⟩
  · have hcommands : (c.add package).1.commands = _ := registerAll_eq _ _ c.commands _
    rw [hcommands]
    exact KeyTable.ordered_insertAll h.commands _
  · intro system
    have hmanual : (c.add package).1.rules.manual system = _ :=
      RuleRegistry.manual_mergeAll _ _ c.rules system
    rw [hmanual]
    exact KeyTable.ordered_insertAll (h.manuals system) _
  · have htemplates : (c.add package).1.templates = _ := registerTemplates_eq _ _ c.templates
    rw [htemplates]
    exact KeyTable.ordered_insertAll h.templates _
  · intro key owner contribution hentry
    refine plugin?_add c package owner ?_
    rw [noted?_add] at hentry
    rcases Option.or_eq_some_iff.mp hentry with hown | ⟨-, hold⟩
    · obtain ⟨found, -, heq⟩ := Option.map_eq_some_iff.mp hown
      exact Or.inl (Prod.mk.inj heq).1.symm
    · exact Or.inr (h.loaded key owner contribution hold)

theorem unload (h : c.Tidy) (gone : String) : (c.unload gone).Tidy := by
  have hloaded : ∀ key owner contribution,
      (c.unload gone).noted? key = some (owner, contribution) →
        ((c.unload gone).plugin? owner).isSome := by
    intro key owner contribution hentry
    rw [noted?_unload h, Option.filter_eq_some_iff] at hentry
    obtain ⟨hentry, hne⟩ := hentry
    rw [plugin?_unload c (by simpa using hne)]
    exact h.loaded key owner contribution hentry
  revert hloaded
  unfold Catalog.unload
  cases hplugin : KeyTable.find? c.plugins gone with
  | none => exact fun _ => h
  | some plugin =>
    intro hloaded
    refine ⟨h.commands.filter _, ((h.rules.mapValues _).filter _), ?_, h.templates.filter _,
      hloaded⟩
    intro system
    dsimp only
    rw [RuleRegistry.manual_removePlugin h.rules]
    exact (h.manuals system).filter _

end Catalog.Tidy

end DiceHost.Plugin
