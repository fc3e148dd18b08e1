import DiceHost.Proofs.Plugin.Standing

/-! # What the record of a plugin is worth

A loaded plugin has a record of the commands, templates and rule systems that it brought along.
A plugin that comes later may put its own word over them, and when that plugin goes, what it had
put there goes with it and what lay below does not come back. This is the only way in which a
command or a template of a record can fail to be served. A rule system is listed while a single
keyword of it is served, and in any case until some plugin goes.
-/
namespace DiceHost.Plugin
open DiceHost.Script DiceHost.Command
variable {language : Interpreter}

/-- A plugin that was loaded later than this one had the last word on the key, and has gone. -/
def Lapsed (events : List Event) (key : Key) (owner : String) : Prop :=
  ∃ before package after, events = before ++ .loaded package :: after ∧
    package.descriptor.name ≠ owner ∧ (package.declares key).isSome ∧
    (∀ event ∈ after, event.declares key = none ∧ ¬ event.Ends owner) ∧
    ∃ event ∈ after, event.Ends package.descriptor.name

/-- The load that brought a plugin which is there still. -/
structure Origin (events : List Event) (owner : String) (before : List Event) (package : Package)
    (after : List Event) : Prop where
  split : events = before ++ .loaded package :: after
  name : package.descriptor.name = owner
  stays : ∀ event ∈ after, ¬ event.Ends owner

/-- One of the events finds a loaded plugin of its name, which goes. -/
def Catalog.Loses (c : Catalog language) : List Event → Prop
  | [] => False
  | event :: rest =>
    (∃ name, event.Ends name ∧ (c.plugin? name).isSome) ∨ (c.apply event).Loses rest

/-! ## The last word -/

/-- Of two places in a list one is before the other, unless they are the same. -/
theorem append_cons_cases {α : Type} {before before' after after' : List α} {x x' : α}
    (h : before ++ x :: after = before' ++ x' :: after') :
    (x = x' ∧ after = after') ∨ (∃ between, after = between ++ x' :: after') ∨
      ∃ between, after' = between ++ x :: after := by
  rcases List.append_eq_append_iff.mp h with ⟨between, -, htail⟩ | ⟨between, -, htail⟩
  · cases between with
    | nil =>
      obtain ⟨hx, hafter⟩ := List.cons.inj htail
      exact Or.inl ⟨hx, hafter⟩
    | cons first rest => exact Or.inr (Or.inl ⟨rest, (List.cons.inj htail).2⟩)
  · cases between with
    | nil =>
      obtain ⟨hx, hafter⟩ := List.cons.inj htail
      exact Or.inl ⟨hx.symm, hafter.symm⟩
    | cons first rest => exact Or.inr (Or.inr ⟨rest, (List.cons.inj htail).2⟩)

/-- Where a key is declared, one load declares it last. -/
theorem exists_last_word {events : List Event} {key : Key}
    (h : ∃ event ∈ events, event.declares key ≠ none) :
    ∃ before package after, events = before ++ .loaded package :: after ∧
      (package.declares key).isSome ∧ ∀ event ∈ after, event.declares key = none := by
  induction events with
  | nil =>
    obtain ⟨event, hevent, -⟩ := h
    cases hevent
  | cons first rest ih =>
    by_cases hrest : ∃ event ∈ rest, event.declares key ≠ none
    · obtain ⟨before, package, after, rfl, hword⟩ := ih hrest
      exact ⟨first :: before, package, after, rfl, hword⟩
    · have hsilent : ∀ event ∈ rest, event.declares key = none := fun event hevent =>
        not_not.mp (fun hne => hrest ⟨event, hevent, hne⟩)
      obtain ⟨event, hevent, hdeclares⟩ := h
      have hfirst : event = first :=
        (List.mem_cons.mp hevent).resolve_right (fun hmem => hdeclares (hsilent event hmem))
      subst hfirst
      cases event with
      | loaded package =>
        exact ⟨[], package, rest, rfl, Option.isSome_iff_ne_none.mpr hdeclares, hsilent⟩
      | removed name => exact absurd rfl hdeclares

section Standing
variable {events before after : List Event} {key : Key} {owner : String} {package : Package}

/-- The last word on a key is spoken once. -/
theorem not_lapsed_of_standing {other : String} {contribution : Contribution}
    (h : Standing events key other contribution) : ¬ Lapsed events key owner := by
  rintro ⟨before', package', after', hsplit', -, hword', hsilent', event, hevent, hends⟩
  obtain ⟨before, package, after, hsplit, hname, hword, hafter⟩ := h
  have hspoken : (Event.loaded package).declares key ≠ none := by
    rw [show (Event.loaded package).declares key = some contribution from hword]
    exact Option.some_ne_none _
  have hspoken' : (Event.loaded package').declares key ≠ none := Option.isSome_iff_ne_none.mp hword'
  rcases append_cons_cases (hsplit.symm.trans hsplit') with ⟨heq, rfl⟩ | ⟨between, rfl⟩ |
    ⟨between, rfl⟩
  · cases heq
    rw [hname] at hends
    exact (hafter event hevent).1 hends
  · exact hspoken' (hafter _ (List.mem_append_right _ List.mem_cons_self)).2
  · exact hspoken (hsilent' _ (List.mem_append_right _ List.mem_cons_self)).1

/-- What a loaded plugin declared stands, perhaps in another plugin's words, or it has lapsed. -/
theorem Origin.standing_or_lapsed (h : Origin events owner before package after)
    (hdeclares : (package.declares key).isSome) :
    (∃ other contribution, Standing events key other contribution) ∨ Lapsed events key owner := by
  have hspoken : (Event.loaded package).declares key ≠ none :=
    Option.isSome_iff_ne_none.mp hdeclares
  have hmem : Event.loaded package ∈ events :=
    h.split ▸ List.mem_append_right _ List.mem_cons_self
  obtain ⟨before', last, after', hsplit, hword, hsilent⟩ := exists_last_word ⟨_, hmem, hspoken⟩
  by_cases hgone : ∃ event ∈ after', event.Ends last.descriptor.name
  · refine Or.inr ⟨before', last, after', hsplit, ?_⟩
    rcases append_cons_cases (h.split.symm.trans hsplit) with ⟨heq, rfl⟩ | ⟨between, hafter⟩ |
      ⟨between, hafter⟩
    · -- the plugin had the last word itself, and it has not gone
      cases heq
      obtain ⟨event, hevent, hends⟩ := hgone
      exact absurd (h.name ▸ hends) (h.stays event hevent)
    · have hstays : ∀ event ∈ Event.loaded last :: after', ¬ event.Ends owner :=
        fun event hevent => h.stays event (hafter ▸ List.mem_append_right _ hevent)
      refine ⟨hstays _ List.mem_cons_self, hword, fun event hevent => ?_, hgone⟩
      exact ⟨hsilent event hevent, hstays event (List.mem_cons_of_mem _ hevent)⟩
    · exact absurd (hsilent _ (hafter ▸ List.mem_append_right _ List.mem_cons_self)) hspoken
  · obtain ⟨contribution, hcontribution⟩ := Option.isSome_iff_exists.mp hword
    exact Or.inl ⟨_, contribution, before', last, after', hsplit, rfl, hcontribution,
      fun event hevent => ⟨fun hends => hgone ⟨event, hevent, hends⟩, hsilent event hevent⟩⟩

end Standing

/-! ## Records -/

theorem mem_systemsOf {books : List Rulebook} {system : String} :
    system ∈ systemsOf books ↔ ∃ book ∈ books, book.rule = system := by
  have hfound (found : List String) : system ∈ books.foldl (fun found book =>
      if found.contains book.rule then found else book.rule :: found) found ↔
        system ∈ found ∨ ∃ book ∈ books, book.rule = system := by
    induction books generalizing found with
    | nil => simp
    | cons book rest ih =>
      rw [List.foldl_cons, ih]
      by_cases hknown : book.rule ∈ found
      · have hsame : book.rule = system → system ∈ found := fun heq => heq ▸ hknown
        simp only [List.contains_iff_mem, hknown, if_true, List.mem_cons, exists_eq_or_imp]
        tauto
      · simp only [List.contains_iff_mem, hknown, if_false, List.mem_cons, exists_eq_or_imp]
        tauto
  unfold systemsOf
  rw [List.mem_reverse, hfound]
  simp

theorem keys_commandEntries (package : Package) :
    package.commandEntries.map (·.1) = package.definitions.flatMap namesOf := by
  rw [Package.commandEntries, List.map_flatMap]
  refine congrArg (package.definitions.flatMap ·) (funext fun definition => ?_)
  unfold Definition.commands namesOf
  split
  · rw [KeyTable.mapValues, List.map_map]
    rfl
  · rfl

/-- What a package registers it declares. -/
theorem declares_registered {package : Package} {name : String}
    (h : name ∈ package.definitions.flatMap namesOf) :
    (package.declares (.command name)).isSome := by
  rw [Package.declares, Option.isSome_map, KeyTable.find?_isSome_iff, KeyTable.keys,
    List.map_reverse, keys_commandEntries]
  exact List.mem_reverse.mpr h

theorem declares_template {package : Package} {name : String}
    (h : name ∈ package.templates.map Template.name) :
    (package.declares (.template name)).isSome := by
  rw [Package.declares, Option.isSome_map, KeyTable.find?_isSome_iff, KeyTable.keys,
    List.map_reverse, Package.templateEntries, List.map_map]
  exact List.mem_reverse.mpr h

theorem plugin?_apply {c : Catalog language} {event : Event} {owner : String} {plugin : Loaded}
    (h : (c.apply event).plugin? owner = some plugin) :
    (∃ package kept, event = .loaded package ∧ package.descriptor.name = owner ∧
      plugin = package.loaded kept) ∨ (¬ event.Ends owner ∧ c.plugin? owner = some plugin) := by
  have hold {gone : String} (hgone : (c.unload gone).plugin? owner = some plugin) :
      ¬ gone = owner ∧ c.plugin? owner = some plugin := by
    have hne : owner ≠ gone := by
      rintro rfl
      have hself : (c.unload owner).plugin? owner = none := find?_unload_self c owner
      rw [hself] at hgone
      cases hgone
    rw [plugin?_unload c hne] at hgone
    exact ⟨hne.symm, hgone⟩
  cases event with
  | removed gone => exact Or.inr (hold h)
  | loaded package =>
    have hplugins : (c.apply (.loaded package)).plugin? owner =
        KeyTable.find? (KeyTable.insert package.descriptor.name
          ((c.unload package.descriptor.name).add package).2
          (c.unload package.descriptor.name).plugins) owner := rfl
    rw [hplugins, KeyTable.find?_insert] at h
    split at h
    · next hname =>
      cases h
      exact Or.inl ⟨package, _, rfl, hname.symm, rfl⟩
    · exact Or.inr (hold h)

/-- A loaded plugin was brought by a load, and its record is of this package. -/
theorem exists_origin {state : language.State} {events : List Event} {owner : String}
    {plugin : Loaded}
    (h : (Catalog.replay { scripts := ⟨state, []⟩ } events : Catalog language).plugin? owner =
      some plugin) :
    ∃ before package after kept, Origin events owner before package after ∧
      plugin = package.loaded kept := by
  induction events using List.reverseRecOn with
  | nil => cases h
  | append_singleton events event ih =>
    rw [Catalog.replay_append] at h
    rcases plugin?_apply h with ⟨package, kept, rfl, hname, rfl⟩ | ⟨hends, hold⟩
    · refine ⟨events, package, [], kept, ⟨rfl, hname, ?_⟩, rfl⟩
      intro event hevent
      cases hevent
    · obtain ⟨before, package, after, kept, horigin, hplugin⟩ := ih hold
      refine ⟨before, package, after ++ [event], kept, ⟨?_, horigin.name, ?_⟩, hplugin⟩
      · rw [horigin.split]
        simp
      · intro other hother
        rcases List.mem_append.mp hother with hother | hother
        · exact horigin.stays other hother
        · cases List.mem_singleton.mp hother
          exact hends

/-! ## Listed rule systems -/

theorem listed_of_served {c : Catalog language} {system keyword : String}
    (h : (c.serves (.rule system keyword)).isSome) : system ∈ KeyTable.keys c.rules := by
  rw [← KeyTable.find?_isSome_iff]
  cases hsystem : KeyTable.find? c.rules system with
  | some rules => rfl
  | none =>
    rw [Catalog.serves, RuleRegistry.query, RuleRegistry.manual, hsystem] at h
    cases h

theorem listed_mergeAll {registry : RuleRegistry} {plugin system : String} {books : List Rulebook} :
    system ∈ KeyTable.keys (books.foldl (fun rules book =>
        RuleRegistry.merge rules book.rule plugin book.manual) registry) ↔
      system ∈ KeyTable.keys registry ∨ ∃ book ∈ books, book.rule = system := by
  induction books generalizing registry with
  | nil => simp
  | cons book rest ih =>
    rw [List.foldl_cons, ih]
    have hmerge : system ∈ KeyTable.keys
          (RuleRegistry.merge registry book.rule plugin book.manual) ↔
        system = book.rule ∨ system ∈ KeyTable.keys registry := by
      rw [← KeyTable.find?_isSome_iff, RuleRegistry.merge, KeyTable.find?_insert,
        ← KeyTable.find?_isSome_iff]
      by_cases hname : system = book.rule <;> simp [hname]
    rw [hmerge]
    simp only [List.mem_cons, exists_eq_or_imp, eq_comm (a := system)]
    tauto

theorem unload_of_unknown {c : Catalog language} {name : String}
    (h : ¬ (c.plugin? name).isSome) : c.unload name = c := by
  have hnone : KeyTable.find? c.plugins name = none := by simpa [Catalog.plugin?] using h
  rw [Catalog.unload, hnone]

/-- A rule system stays listed as long as no plugin goes, with rules or without. -/
theorem listed_or_loses {c : Catalog language} {system : String}
    (h : system ∈ KeyTable.keys c.rules) (events : List Event) :
    system ∈ KeyTable.keys (c.replay events).rules ∨ c.Loses events := by
  induction events generalizing c with
  | nil => exact Or.inl h
  | cons event rest ih =>
    by_cases hgoes : ∃ name, event.Ends name ∧ (c.plugin? name).isSome
    · exact Or.inr (Or.inl hgoes)
    · have hunknown {name : String} (hends : event.Ends name) : c.unload name = c :=
        unload_of_unknown (fun hname => hgoes ⟨name, hends, hname⟩)
      have hlisted : system ∈ KeyTable.keys (c.apply event).rules := by
        cases event with
        | removed name =>
          have happly : c.apply (.removed name) = c := hunknown rfl
          rwa [happly]
        | loaded package =>
          have happly : c.apply (.loaded package) = (c.add package).1 := by
            rw [Catalog.apply, Catalog.load, hunknown rfl]
          rw [happly]
          exact listed_mergeAll.mpr (Or.inl h)
      exact (ih hlisted).imp_right Or.inr

/-! ## Any history -/

section Replay
variable (state : language.State) (events : List Event)

theorem served_iff_exists_standing (key : Key) :
    ((Catalog.replay { scripts := ⟨state, []⟩ } events : Catalog language).serves key).isSome ↔
      ∃ other contribution, Standing events key other contribution := by
  obtain ⟨-, hnoted⟩ := noted?_replay state events
  rw [serves_eq, Option.isSome_map, Option.isSome_iff_exists]
  constructor
  · rintro ⟨found, hfound⟩
    exact ⟨found.1, found.2, (hnoted key _ _).mp hfound⟩
  · rintro ⟨other, contribution, h⟩
    exact ⟨(other, contribution), (hnoted key _ _).mpr h⟩

/-- What a loaded plugin declared is served unless it has lapsed. -/
theorem Origin.served_iff {events before after : List Event} {owner : String} {package : Package}
    (h : Origin events owner before package after) {key : Key}
    (hdeclares : (package.declares key).isSome) :
    ((Catalog.replay { scripts := ⟨state, []⟩ } events : Catalog language).serves key).isSome ↔
      ¬ Lapsed events key owner := by
  rw [served_iff_exists_standing]
  refine ⟨?_, (h.standing_or_lapsed hdeclares).resolve_right⟩
  rintro ⟨other, contribution, hstanding⟩
  exact not_lapsed_of_standing hstanding

/-- A plugin that goes takes along what it had the last word on. -/
theorem serves_unload_or_standing (gone : String) (key : Key) :
    let c : Catalog language := Catalog.replay { scripts := ⟨state, []⟩ } events
    (c.unload gone).serves key = c.serves key ∨
      ∃ contribution, Standing events key gone contribution := by
  intro c
  obtain ⟨htidy, hnoted⟩ := noted?_replay state events
  rw [serves_eq, serves_eq, noted?_unload htidy]
  cases hentry : c.noted? key with
  | none => exact Or.inl rfl
  | some found =>
    by_cases hgone : found.1 = gone
    · exact Or.inr ⟨found.2, (hnoted key gone found.2).mp (hgone ▸ hentry)⟩
    · exact Or.inl (by simp [Option.filter, hgone])

/-- A system that a loaded plugin brought is listed as long as no plugin goes. -/
theorem Origin.listed_or_loses {events before after : List Event} {owner system : String}
    {package : Package} (h : Origin events owner before package after)
    (hsystem : system ∈ systemsOf package.rulebooks) :
    let start : Catalog language := { scripts := ⟨state, []⟩ }
    system ∈ KeyTable.keys (start.replay events).rules ∨
      (start.replay (before ++ [.loaded package])).Loses after := by
  intro start
  have hbrought : system ∈ KeyTable.keys (start.replay (before ++ [.loaded package])).rules := by
    rw [Catalog.replay_append]
    exact listed_mergeAll.mpr (Or.inr (mem_systemsOf.mp hsystem))
  have hstill := Plugin.listed_or_loses hbrought after
  rw [h.split]
  rwa [← Catalog.replay_append, List.append_assoc] at hstill

end Replay

/-- After any history a command or a template in the record of a loaded plugin is served unless it
has lapsed. A rule system in it is listed unless a plugin has gone since and every keyword of it has
lapsed. A plugin that goes takes along nothing but what it had the last word on. -/
theorem records_stand (state : language.State) (history : List Change) :
    let start : Catalog language := { scripts := ⟨state, []⟩ }
    let events := start.journal history
    let c := start.after history
    (∀ owner plugin, c.plugin? owner = some plugin →
      (∀ name ∈ plugin.registered,
        (name ∈ KeyTable.keys c.commands ↔ ¬ Lapsed events (.command name) owner)) ∧
      (∀ name ∈ plugin.templates,
        ((c.templates.get name).isSome ↔ ¬ Lapsed events (.template name) owner)) ∧
      ∀ system ∈ plugin.systems, system ∈ KeyTable.keys c.rules ∨
        ∃ before package after, Origin events owner before package after ∧
          (start.replay (before ++ [.loaded package])).Loses after ∧
          ∀ keyword, (package.declares (.rule system keyword)).isSome →
            Lapsed events (.rule system keyword) owner) ∧
    ∀ gone key, (c.unload gone).serves key = c.serves key ∨
      ∃ contribution, Standing events key gone contribution := by
  intro start events c
  have hreplay : c = start.replay events := Catalog.after_eq_replay start history
  rw [hreplay]
  refine ⟨fun owner plugin hplugin => ?_, serves_unload_or_standing state events⟩
  obtain ⟨before, package, after, kept, horigin, rfl⟩ := exists_origin hplugin
  refine ⟨fun name hname => ?_, fun name hname => ?_, fun system hsystem => ?_⟩
  · rw [← KeyTable.find?_isSome_iff, ← horigin.served_iff state (declares_registered hname),
      Catalog.serves, Option.isSome_map]
  · rw [← horigin.served_iff state (declares_template hname), Catalog.serves, Option.isSome_map]
  · by_cases hlisted : system ∈ KeyTable.keys (start.replay events).rules
    · exact Or.inl hlisted
    · have hloses := (horigin.listed_or_loses state hsystem).resolve_left hlisted
      refine Or.inr ⟨before, package, after, horigin, hloses, fun keyword hdeclares => ?_⟩
      by_contra hstands
      exact hlisted (listed_of_served ((horigin.served_iff state hdeclares).mpr hstands))

/-- The directory of a plugin that answers `.c`, explains a rule and has a template. -/
def rivalPlugin (name : String) : String × FileTree := (name, .dir [
  ("descriptor.json",
    .file ("\x7b\"name\":\"" ++ name ++ "\",\"version\":\"1\"\x7d").toUTF8.toList),
  ("reply", .dir [("c.toml", .file ("[reply.c]\necho.lua = \"" ++ name ++ "\"\n").toUTF8.toList)]),
  ("rulebook", .dir [("r.yaml", .file ("rule: R\nmanual:\n  k: " ++ name ++ "\n").toUTF8.toList)]),
  ("template", .dir [("t.xml", .file "<model name=\"T\"></model>".toUTF8.toList)])])

def rivalFiles : Directory := ["a", "b"].map rivalPlugin

/-- The plugin `b` comes after `a` with the same command, rule and template, and goes again. -/
def rivalry : List Change := [.load rivalFiles "a", .load rivalFiles "b", .unload "b"]

theorem records_stand_rivalry :
    let start : Catalog Program.language := { scripts := Program.start }
    let c := start.after rivalry
    ∃ plugin, c.plugin? "a" = some plugin ∧ "c" ∈ plugin.registered ∧
      ("c" ∈ KeyTable.keys c.commands ↔
        ¬ Lapsed (start.journal rivalry) (.command "c") "a") := by
  intro start c
  have hrecord : (c.plugin? "a").any (fun plugin => plugin.registered.contains "c") = true := by
    decide +kernel
  obtain ⟨plugin, hplugin, hname⟩ := (Option.any_eq_true _ _).mp hrecord
  have hregistered : "c" ∈ plugin.registered := List.contains_iff_mem.mp hname
  obtain ⟨hrecords, -⟩ := @records_stand Program.language [] rivalry
  exact ⟨plugin, hplugin, hregistered, (hrecords "a" plugin hplugin).1 "c" hregistered⟩

/-- The plugin `a` is loaded, and nothing that its record names is served. -/
theorem rivalry_empties_record :
    let c : Catalog Program.language := Catalog.after { scripts := Program.start } rivalry
    (c.plugin? "a").map
      (fun plugin => (plugin.registered.take 1, plugin.templates, plugin.systems)) =
        some (["c"], ["T"], ["R"]) ∧
    KeyTable.keys c.commands = [] ∧ (c.templates.get "T").isNone ∧ KeyTable.keys c.rules = [] := by
  decide +kernel

end DiceHost.Plugin
