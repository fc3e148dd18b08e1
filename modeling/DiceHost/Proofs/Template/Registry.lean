import DiceHost.Proofs.Template.Names
import Mathlib.Data.List.Induction

/-! # Templates over time

Templates are registered and go with their plugins. A template is current from its registration
until another one of its name is registered or its plugin is removed, and the aliases that scripts
use are those of the current templates.
-/
namespace DiceHost.Plugin

/-! ## Aliases of one template -/

/-- The name under which cards store the field with this alias, the last one if there are several. -/
def Template.display? (t : Template) (short : String) : Option String :=
  (t.fields.reverse.find? (fun f => f.alias = short)).map (·.display)

theorem find?_map_alias (fields : List TemplateField) (short : String) :
    KeyTable.find? (fields.map (fun f => (f.alias, f.display))) short =
      (fields.find? (fun f => f.alias = short)).map (·.display) := by
  induction fields with
  | nil => rfl
  | cons f rest ih =>
    rw [List.map_cons, KeyTable.find?_cons, List.find?_cons, ih]
    by_cases hname : f.alias = short
    · simp [hname]
    · simp [hname, Ne.symm hname]

theorem find?_aliases (t : Template) (short : String) :
    KeyTable.find? t.aliases short = t.display? short := by
  rw [Template.aliases, KeyTable.ofList, KeyTable.find?_insertAll, ← List.map_reverse,
    find?_map_alias, Template.display?]
  exact Option.or_none

/-- No two fields of a template that was read share an alias. -/
theorem Template.Distinct.display?_eq {t : Template} (ht : t.Distinct) {f : TemplateField}
    (hf : f ∈ t.fields) : t.display? f.alias = some f.display := by
  have hkeys : ((t.fields.map (fun f => (f.alias, f.display))).map Prod.fst).Nodup := by
    rw [List.map_map]
    exact ht.aliases
  rw [← find?_aliases]
  exact KeyTable.find?_ofList hkeys (List.mem_map_of_mem hf)

namespace TemplateRegistry

/-! ## Histories -/

/-- What can happen to the registered templates. -/
inductive Event where
  | register (template : Template) (plugin : String)
  | remove (plugin : String)

def apply (registry : TemplateRegistry) : Event → TemplateRegistry
  | .register template plugin => registry.register template plugin
  | .remove plugin => registry.removePlugin plugin

/-- The registry after a history, which begins without templates. -/
def after (events : List Event) : TemplateRegistry := events.foldl apply []

/-- The event takes a registered template away. -/
def Event.Ends : Event → OwnedTemplate → Prop
  | .register other _, owned => other.name = owned.template.name
  | .remove plugin, owned => plugin = owned.plugin

/-- The template was registered, and it was neither replaced nor removed since. -/
def Current (events : List Event) (owned : OwnedTemplate) : Prop :=
  ∃ earlier later, events = earlier ++ .register owned.template owned.plugin :: later ∧
    ∀ event ∈ later, ¬ event.Ends owned

variable {events : List Event} {owned : OwnedTemplate} {name : String}

theorem not_current_nil : ¬ Current [] owned := by
  rintro ⟨earlier, later, heq, -⟩
  simp at heq

theorem current_append_singleton (event : Event) : Current (events ++ [event]) owned ↔
    event = .register owned.template owned.plugin ∨ (¬ event.Ends owned ∧ Current events owned) := by
  constructor
  · rintro ⟨earlier, later, heq, hlater⟩
    rcases later.eq_nil_or_concat with rfl | ⟨rest, last, rfl⟩
    · obtain ⟨-, hevent⟩ := List.append_inj' heq rfl
      exact Or.inl (List.singleton_inj.mp hevent)
    · have hsplit : events ++ [event] =
          (earlier ++ .register owned.template owned.plugin :: rest) ++ [last] := by
        rw [heq]
        simp
      obtain ⟨hevents, hlast⟩ := List.append_inj' hsplit rfl
      cases List.singleton_inj.mp hlast
      exact Or.inr ⟨hlater event (by simp), earlier, rest, hevents,
        fun other hother => hlater other (by simp [hother])⟩
  · rintro (rfl | ⟨hends, earlier, later, rfl, hlater⟩)
    · exact ⟨events, [], rfl, fun event hevent => nomatch hevent⟩
    · refine ⟨earlier, later ++ [event], by simp, fun other hother => ?_⟩
      rcases List.mem_append.mp hother with hother | hother
      · exact hlater other hother
      · cases List.mem_singleton.mp hother
        exact hends

theorem after_append_singleton (events : List Event) (event : Event) :
    after (events ++ [event]) = (after events).apply event := by
  simp [after]

theorem ordered_after (events : List Event) : KeyTable.Ordered (after events) := by
  induction events using List.reverseRecOn with
  | nil => exact List.Pairwise.nil
  | append_singleton events event ih =>
    rw [after_append_singleton]
    cases event with
    | register template plugin => exact ih.insert _ _
    | remove plugin => exact ih.filter _

/-- The registry has the current template of a name, and no other one. -/
theorem find?_after : KeyTable.find? (after events) name = some owned ↔
    owned.template.name = name ∧ Current events owned := by
  -- on the last event: it is what decides whether an earlier registration is still current
  induction events using List.reverseRecOn with
  | nil => exact ⟨fun h => (nomatch h), fun h => absurd h.2 not_current_nil⟩
  | append_singleton events event ih =>
    rw [after_append_singleton, current_append_singleton]
    cases event with
    | register template plugin =>
      rw [apply, register, KeyTable.find?_insert]
      by_cases hname : name = template.name
      · subst hname
        rw [if_pos rfl, Option.some.injEq]
        constructor
        · rintro rfl
          exact ⟨rfl, Or.inl rfl⟩
        · rintro ⟨hsame, heq | ⟨hends, -⟩⟩
          · cases heq
            rfl
          · exact absurd hsame.symm hends
      · rw [if_neg hname, ih]
        constructor
        · rintro ⟨rfl, hcurrent⟩
          exact ⟨rfl, Or.inr ⟨Ne.symm hname, hcurrent⟩⟩
        · rintro ⟨rfl, heq | ⟨-, hcurrent⟩⟩
          · cases heq
            exact absurd rfl hname
          · exact ⟨rfl, hcurrent⟩
    | remove plugin =>
      rw [apply, removePlugin, (ordered_after events).find?_filter, Option.filter_eq_some_iff, ih]
      constructor
      · rintro ⟨⟨hname, hcurrent⟩, hkept⟩
        exact ⟨hname, Or.inr ⟨fun heq => of_decide_eq_true hkept heq.symm, hcurrent⟩⟩
      · rintro ⟨hname, heq | ⟨hends, hcurrent⟩⟩
        · cases heq
        · exact ⟨⟨hname, hcurrent⟩, decide_eq_true (fun heq => hends heq.symm)⟩

/-- The aliases in use are those of the current templates. -/
theorem find?_aliasTable {aliases : Aliases} :
    KeyTable.find? (after events).aliasTable name = some aliases ↔
      ∃ owned, Current events owned ∧ owned.template.name = name ∧
        owned.template.aliases = aliases := by
  rw [aliasTable, KeyTable.find?_mapValues, Option.map_eq_some_iff]
  simp only [find?_after]
  constructor
  · rintro ⟨owned, ⟨hname, hcurrent⟩, haliases⟩
    exact ⟨owned, hcurrent, hname, haliases⟩
  · rintro ⟨owned, hcurrent, hname, haliases⟩
    exact ⟨owned, ⟨hname, hcurrent⟩, haliases⟩

end TemplateRegistry
end DiceHost.Plugin
