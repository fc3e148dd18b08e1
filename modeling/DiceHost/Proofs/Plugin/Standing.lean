import DiceHost.Proofs.Plugin.Contribution
import DiceHost.Proofs.Plugin.History
import Mathlib.Data.List.Induction

/-! # The last word on a key

Whatever the history, a command name, a rule or a template name is served by the last load that
declared it, as long as the plugin of this load is neither replaced nor unloaded; otherwise it is
not served at all. Within one load the last rulebook and the last template file count, but the
definitions of commands count in the order of their keys, whatever files they stand in.
-/
namespace DiceHost.Plugin
open DiceHost.Script
variable {language : Interpreter}

/-! ## Events -/

/-- The plugin of this name is replaced or goes. -/
def Event.Ends : Event → String → Prop
  | .loaded package, name => package.descriptor.name = name
  | .removed gone, name => gone = name

def Event.declares : Event → Key → Option Contribution
  | .loaded package, key => package.declares key
  | .removed _, _ => none

/-- The last load that declared something for the key declared this, and its plugin is there
still. -/
def Standing (events : List Event) (key : Key) (owner : String) (contribution : Contribution) :
    Prop :=
  ∃ before package after, events = before ++ .loaded package :: after ∧
    package.descriptor.name = owner ∧ package.declares key = some contribution ∧
    ∀ event ∈ after, ¬ event.Ends owner ∧ event.declares key = none

section Standing
variable {events : List Event} {key : Key} {owner : String} {contribution : Contribution}

theorem not_standing_nil : ¬ Standing [] key owner contribution := by
  rintro ⟨before, package, after, heq, -⟩
  simp at heq

theorem standing_append_singleton (event : Event) :
    Standing (events ++ [event]) key owner contribution ↔
      (∃ package, event = .loaded package ∧ package.descriptor.name = owner ∧
        package.declares key = some contribution) ∨
      (¬ event.Ends owner ∧ event.declares key = none ∧
        Standing events key owner contribution) := by
  constructor
  · rintro ⟨before, package, after, heq, hname, hdeclares, hafter⟩
    rcases after.eq_nil_or_concat with rfl | ⟨rest, last, rfl⟩
    · obtain ⟨-, hevent⟩ := List.append_inj' heq rfl
      exact Or.inl ⟨package, List.singleton_inj.mp hevent, hname, hdeclares⟩
    · have hsplit : events ++ [event] = (before ++ .loaded package :: rest) ++ [last] := by
        rw [heq]
        simp
      obtain ⟨hevents, hlast⟩ := List.append_inj' hsplit rfl
      cases List.singleton_inj.mp hlast
      obtain ⟨hends, hsilent⟩ := hafter event (by simp)
      exact Or.inr ⟨hends, hsilent, before, package, rest, hevents, hname, hdeclares,
        fun other hother => hafter other (by simp [hother])⟩
  · rintro (⟨package, rfl, hname, hdeclares⟩ | ⟨hends, hsilent, hstanding⟩)
    · refine ⟨events, package, [], rfl, hname, hdeclares, ?_⟩
      intro event hevent
      cases hevent
    · obtain ⟨before, package, after, rfl, hname, hdeclares, hafter⟩ := hstanding
      refine ⟨before, package, after ++ [event], by simp, hname, hdeclares, ?_⟩
      intro other hother
      rcases List.mem_append.mp hother with hother | hother
      · exact hafter other hother
      · cases List.mem_singleton.mp hother
        exact ⟨hends, hsilent⟩

end Standing

/-! ## Runs -/

/-- What one event does to the entry of a key. -/
theorem noted?_apply {c : Catalog language} (h : c.Tidy) (event : Event) (key : Key)
    (owner : String) (contribution : Contribution) :
    (c.apply event).noted? key = some (owner, contribution) ↔
      (∃ package, event = .loaded package ∧ package.descriptor.name = owner ∧
        package.declares key = some contribution) ∨
      (¬ event.Ends owner ∧ event.declares key = none ∧
        c.noted? key = some (owner, contribution)) := by
  cases event with
  | removed gone =>
    simp only [Catalog.apply, noted?_unload h, Option.filter_eq_some_iff, decide_eq_true_eq]
    constructor
    · rintro ⟨hold, hne⟩
      exact Or.inr ⟨Ne.symm hne, rfl, hold⟩
    · rintro (⟨package, heq, -⟩ | ⟨hne, -, hold⟩)
      · cases heq
      · exact ⟨hold, Ne.symm hne⟩
  | loaded package =>
    simp only [Catalog.apply, Catalog.load, noted?_add, noted?_unload h, Option.or_eq_some_iff,
      Option.map_eq_some_iff, Option.map_eq_none_iff, Option.filter_eq_some_iff,
      decide_eq_true_eq]
    constructor
    · rintro (⟨found, hdeclares, heq⟩ | ⟨hsilent, hold, hne⟩)
      · cases heq
        exact Or.inl ⟨package, rfl, rfl, hdeclares⟩
      · exact Or.inr ⟨Ne.symm hne, hsilent, hold⟩
    · rintro (⟨found, heq, hname, hdeclares⟩ | ⟨hne, hsilent, hold⟩)
      · cases heq
        exact Or.inl ⟨contribution, hdeclares, by rw [hname]⟩
      · exact Or.inr ⟨hsilent, hold, Ne.symm hne⟩

theorem Catalog.Tidy.apply {c : Catalog language} (h : c.Tidy) (event : Event) :
    (c.apply event).Tidy := by
  cases event with
  | removed gone => exact h.unload gone
  | loaded package => exact (h.unload package.descriptor.name).add package

theorem noted?_replay (state : language.State) (events : List Event) :
    let c : Catalog language := Catalog.replay { scripts := ⟨state, []⟩ } events
    c.Tidy ∧ ∀ key owner contribution,
      c.noted? key = some (owner, contribution) ↔ Standing events key owner contribution := by
  induction events using List.reverseRecOn with
  | nil =>
    have htidy := tidy_empty state
    refine ⟨htidy, fun key owner contribution => ⟨fun hentry => ?_, fun h => ?_⟩⟩
    · have hloaded := htidy.loaded key owner contribution hentry
      cases hloaded
    · exact absurd h not_standing_nil
  | append_singleton events event ih =>
    obtain ⟨htidy, hentry⟩ := ih
    dsimp only
    rw [Catalog.replay_append]
    refine ⟨htidy.apply event, fun key owner contribution => ?_⟩
    rw [standing_append_singleton, ← hentry]
    exact noted?_apply htidy event key owner contribution

/-! ## Definitions of a package -/

/-- The definitions in the reply files of a package, file by file in the order of their names. -/
def replyDefinitions (root : Directory) (path plugin : String) : List (List Definition) :=
  readAll root (Files.under path "reply") ["toml"] (fun file text => parseReplies file plugin text)

theorem commands_of_read {root : Directory} {path : String} {package : Package}
    (h : Package.read root path = .ok package) :
    package.commands = KeyTable.ofList
      ((replyDefinitions root path package.descriptor.name).flatten.map (fun d => (d.key, d))) :=
  (parts_of_read h).2

/-- After any history a key is served with what stands for it, and with nothing if nothing
stands. The definitions of each loaded package are in the order of their keys, and of those with
one key the last in its files stays. -/
theorem serves_iff_standing (state : language.State) (history : List Change) :
    let start : Catalog language := { scripts := ⟨state, []⟩ }
    (∀ key contribution, (start.after history).serves key = some contribution ↔
      ∃ owner, Standing (start.journal history) key owner contribution) ∧
    ∀ package, .loaded package ∈ start.journal history →
      ∃ root path, Package.read root path = .ok package ∧ KeyTable.Ordered package.commands ∧
        ∀ key, KeyTable.find? package.commands key = KeyTable.find?
          ((replyDefinitions root path package.descriptor.name).flatten.map
            (fun d => (d.key, d))).reverse key := by
  intro start
  refine ⟨fun key contribution => ?_, fun package hmem => ?_⟩
  · have hrun := (noted?_replay state (start.journal history)).2 key
    rw [Catalog.after_eq_replay, serves_eq, Option.map_eq_some_iff]
    constructor
    · rintro ⟨⟨owner, found⟩, hentry, rfl⟩
      exact ⟨owner, (hrun owner found).mp hentry⟩
    · rintro ⟨owner, hstanding⟩
      exact ⟨(owner, contribution), (hrun owner contribution).mpr hstanding, rfl⟩
  · obtain ⟨root, path, hread⟩ := read_of_mem_journal hmem
    have hcommands := commands_of_read hread
    refine ⟨root, path, hread, ?_, fun key => ?_⟩
    · rw [hcommands]
      exact KeyTable.ordered_ofList _
    · rw [hcommands, KeyTable.ofList, KeyTable.find?_insertAll, KeyTable.find?_nil,
        Option.or_none]

/-- A plugin whose two reply files name one command under different keys. -/
def twiceFiles : Directory := [("p", .dir [
  ("descriptor.json", .file "\x7b\"name\":\"p\",\"version\":\"1\"\x7d".toUTF8.toList),
  ("reply", .dir [
    ("a.toml", .file
      "[reply.z]\nkeyword.prefix = \".x\"\necho.lua = \"one\"\n".toUTF8.toList),
    ("b.toml", .file
      "[reply.y]\nkeyword.prefix = \".x\"\necho.lua = \"two\"\n".toUTF8.toList)])])]

/-- The later file names the same command, and the command of the earlier file is served. -/
theorem twice_earlier_file :
    (replyDefinitions twiceFiles "p" "p").map (List.map fun d => (d.commandName, d.script)) =
      [[("x", "p.one")], [("x", "p.two")]] ∧
    ((Catalog.after { scripts := Program.start } [.load twiceFiles "p"]).serves (.command "x")) =
      some (.command "p" ⟨"p.one", none⟩) := by
  constructor
  · decide +kernel
  · decide +kernel

end DiceHost.Plugin
