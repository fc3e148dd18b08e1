import DiceHost.Proofs.Plugin.Handover
import DiceHost.Proofs.Plugin.Records

/-! # Loading a package again

To load a package again is to take its plugin down and to build it anew on registries that other
plugins have written to as well. What the plugin laid over the words of others is gone in between
and is laid there again, and whether a script is kept does not depend on what is loaded already,
so a second load ends where the first one did.
-/
namespace DiceHost.Plugin
open DiceHost.Script DiceHost.Command
variable {language : Interpreter} {c c' : Catalog language}

/-- The catalog comes about by changes and by runs of scripts, which leave any state of the
interpreter behind. -/
inductive Catalog.Live : Catalog language → Prop
  | start (state : language.State) : Live { scripts := ⟨state, []⟩ }
  | changed {c : Catalog language} (step : Change) : c.Live → (c.change step).Live
  | ran {c : Catalog language} (state : language.State) :
      c.Live → Live { c with scripts := { c.scripts with state := state } }

/-- The two catalogs have the same plugins, with the same records, and the same commands, rules,
templates and names of scripts. -/
structure Catalog.Alike (c c' : Catalog language) : Prop where
  plugins : c.plugins = c'.plugins
  commands : c.commands = c'.commands
  rules : ∀ system keyword, c.rules.query system keyword = c'.rules.query system keyword
  templates : c.templates = c'.templates
  scripts : ∀ name, name ∈ c.scripts.names ↔ name ∈ c'.scripts.names

/-! ## What live catalogs keep -/

theorem Catalog.Tidy.change (h : c.Tidy) (step : Change) : (c.change step).Tidy := by
  rw [Catalog.change_eq_replay]
  generalize c.events step = events
  induction events generalizing c with
  | nil => exact h
  | cons event rest ih => exact ih (h.apply event)

theorem Catalog.Live.tidy (h : c.Live) : c.Tidy := by
  induction h with
  | start state => exact tidy_empty state
  | changed step _ ih => exact ih.change step
  | ran state _ ih => exact ⟨ih.commands, ih.rules, ih.manuals, ih.templates, ih.loaded⟩

theorem Catalog.Live.consistent (hsteady : language.Steady) (h : c.Live) : c.Consistent := by
  induction h with
  | start state => exact consistent_empty state
  | changed step _ ih => exact ih.after hsteady [step]
  | ran state _ ih =>
    exact ⟨ih.ordered, ih.accepted, fun name => (ih.serves name).of_find?_eq rfl⟩

/-! ## Catalogs that are alike -/

theorem mem_names_iff_claims (h : c.Consistent) {name : String} :
    name ∈ c.scripts.names ↔ c.Claims name := by
  by_cases hclaims : c.Claims name
  · exact iff_of_true (answers_of_claims h hclaims).listed hclaims
  · exact iff_of_false (lacks_of_not_claims h hclaims).listed hclaims

/-- Catalogs are alike that have the same plugins and note the same under every key. -/
theorem alike_of_noted (hconsistent : c.Consistent) (hconsistent' : c'.Consistent)
    (htidy : c.Tidy) (htidy' : c'.Tidy) (hplugins : c.plugins = c'.plugins)
    (hnoted : ∀ key, c.noted? key = c'.noted? key) : c.Alike c' := by
  refine ⟨hplugins, ?_, fun system keyword => ?_, ?_, fun name => ?_⟩
  · refine htidy.commands.ext htidy'.commands (fun name => ?_)
    refine Option.map_injective ?_ (hnoted (.command name))
    rintro ⟨owner, usage, target⟩ ⟨owner', usage', target'⟩ heq
    simpa using heq
  · have hserves : c.serves (.rule system keyword) = c'.serves (.rule system keyword) := by
      rw [serves_eq, serves_eq, hnoted]
    exact Option.map_injective (fun _ _ heq => by simpa using heq) hserves
  · refine htidy.templates.ext htidy'.templates (fun name => ?_)
    refine Option.map_injective ?_ (hnoted (.template name))
    rintro ⟨template, owner⟩ ⟨template', owner'⟩ heq
    simpa [and_comm] using heq
  · rw [mem_names_iff_claims hconsistent, mem_names_iff_claims hconsistent', Catalog.Claims,
      Catalog.Claims, hplugins]

/-! ## A second load -/

theorem accepted_iff (hsteady : language.Steady) (plugins : KeyTable Loaded)
    (scripts : Scripts language) (script : Script) :
    (loadScript plugins scripts script).2 = true ↔
      language.Accepts script.source script.dialect := by
  constructor
  · intro h
    have hload : loadScript plugins scripts script =
        ((loadScript plugins scripts script).1, true) := by rw [← h]
    exact accepts_of_accepted hload
  · intro h
    obtain ⟨loaded, hload⟩ := exists_load_ok hsteady h scripts script.qualified
    unfold loadScript
    rw [hload]
    dsimp only
    split
    · split <;> rfl
    · rfl

/-- Which scripts of a package are kept does not depend on what is loaded already. -/
theorem kept_eq_kept (hsteady : language.Steady) (entries : KeyTable Script)
    (plugins plugins' : KeyTable Loaded) (scripts scripts' : Scripts language) :
    (loadScripts plugins entries scripts).2 = (loadScripts plugins' entries scripts').2 := by
  induction entries generalizing scripts scripts' with
  | nil => rfl
  | cons entry rest ih =>
    obtain ⟨name, script⟩ := entry
    have hflag : (loadScript plugins scripts script).2 =
        (loadScript plugins' scripts' script).2 := by
      rw [Bool.eq_iff_iff, accepted_iff hsteady, accepted_iff hsteady]
    simp only [loadScripts]
    rw [hflag, ih (loadScript plugins scripts script).1 (loadScript plugins' scripts' script).1]

/-- Under every key the second load finds its own words, or what the first one had left. -/
theorem noted?_load_load (htidy : c.Tidy) (package : Package) (key : Key) :
    ((c.load package).1.load package).1.noted? key = (c.load package).1.noted? key := by
  have hafter : (c.load package).1.Tidy := htidy.apply (.loaded package)
  simp only [Catalog.load, noted?_add] at hafter ⊢
  rw [noted?_unload hafter, noted?_add, noted?_unload htidy]
  cases package.declares key with
  | some found => rfl
  | none => simp [Option.filter_filter]

/-- A plugin that comes under a free name and goes leaves the others as they were. -/
theorem plugins_unload_add (hconsistent : c.Consistent) {package : Package}
    (hnew : c.plugin? package.descriptor.name = none) :
    ((c.add package).1.unload package.descriptor.name).plugins = c.plugins := by
  have hplugins : (c.add package).1.plugins = KeyTable.insert package.descriptor.name
      (c.add package).2 c.plugins := rfl
  have hplugin : (c.add package).1.plugin? package.descriptor.name = some (c.add package).2 :=
    KeyTable.find?_insert_self _ _ _
  rw [plugins_unload hplugin, hplugins]
  refine KeyTable.Ordered.ext ((hconsistent.ordered.insert _ _).erase _) hconsistent.ordered
    (fun owner => ?_)
  rw [KeyTable.find?_erase]
  split
  · next howner => exact howner ▸ hnew.symm
  · next howner => exact KeyTable.find?_insert_of_ne howner _ _

theorem plugins_load_load (hsteady : language.Steady) (hconsistent : c.Consistent)
    (package : Package) :
    ((c.load package).1.load package).1.plugins = (c.load package).1.plugins ∧
      ((c.load package).1.load package).2 = (c.load package).2 := by
  have hkept (before : Catalog language) : (before.load package).2 = (c.load package).2 :=
    congrArg package.loaded (kept_eq_kept hsteady package.scripts _ _ _ _)
  have hplugins (before : Catalog language) : (before.load package).1.plugins =
      KeyTable.insert package.descriptor.name (before.load package).2
        (before.unload package.descriptor.name).plugins := rfl
  refine ⟨?_, hkept _⟩
  have hleft : ((c.load package).1.unload package.descriptor.name).plugins =
      (c.unload package.descriptor.name).plugins :=
    plugins_unload_add (hconsistent.unload hsteady _) (find?_unload_self c _)
  rw [hplugins, hplugins c, hkept, hleft]

theorem alike_load_load (hsteady : language.Steady) (hlive : c.Live) (package : Package) :
    ((c.load package).1.load package).1.Alike (c.load package).1 := by
  have hconsistent (before : Catalog language) (h : before.Consistent) :
      (before.load package).1.Consistent :=
    (h.unload hsteady package.descriptor.name).add hsteady (find?_unload_self before _)
  have honce := hconsistent c (hlive.consistent hsteady)
  have htidy : (c.load package).1.Tidy := hlive.tidy.apply (.loaded package)
  exact alike_of_noted (hconsistent _ honce) honce (htidy.apply (.loaded package)) htidy
    (plugins_load_load hsteady (hlive.consistent hsteady) package).1
    (noted?_load_load hlive.tidy package)

/-! ## Paths -/

/-- Only the descriptor decides whether there is a package at a path. -/
theorem read_of_descriptor {root : Directory} {path : String} {format : Format}
    {descriptor : Descriptor} (h : readDescriptor root path = .ok (format, descriptor)) :
    ∃ package, Package.read root path = .ok package ∧ package.path = path ∧
      package.descriptor = descriptor := by
  unfold Package.read
  rw [h]
  exact ⟨_, rfl, rfl, rfl⟩

theorem loadPath_of_read {root : Directory} {path : String} {package : Package}
    (h : Package.read root path = .ok package) (c : Catalog language) :
    Catalog.loadPath root c path = ((c.load package).1, .ok (c.load package).2.summary) := by
  rw [Catalog.loadPath, h]

theorem reload_of_read {root : Directory} {name : String} {plugin : Loaded} {package : Package}
    (hplugin : c.plugin? name = some plugin) (hread : Package.read root plugin.path = .ok package)
    (hname : package.descriptor.name = name) :
    Catalog.reload root c name = ((c.load package).1, .ok (c.load package).2.summary) := by
  have hsummary : (c.load package).2.summary.name = name := hname
  rw [Catalog.reload, hplugin]
  dsimp only
  rw [loadPath_of_read hread]
  dsimp only
  rw [if_pos hsummary]

/-- While the files stay as they are, to load the package at a path twice is to load it once, and
to reload a plugin that keeps its name twice is to reload it once. -/
theorem load_idempotent (hsteady : language.Steady) (hlive : c.Live) (root : Directory) :
    (∀ path format descriptor, readDescriptor root path = .ok (format, descriptor) →
      let once := Catalog.loadPath root c path
      let twice := Catalog.loadPath root once.1 path
      twice.1.Alike once.1 ∧ ∃ summary, once.2 = .ok summary ∧ twice.2 = .ok summary) ∧
    ∀ name plugin format descriptor, c.plugin? name = some plugin →
      readDescriptor root plugin.path = .ok (format, descriptor) → descriptor.name = name →
      let once := Catalog.reload root c name
      let twice := Catalog.reload root once.1 name
      twice.1.Alike once.1 ∧ ∃ summary, once.2 = .ok summary ∧ twice.2 = .ok summary := by
  have hagain (package : Package) :
      (((c.load package).1.load package).1.Alike (c.load package).1 ∧
        ((c.load package).1.load package).2 = (c.load package).2) :=
    ⟨alike_load_load hsteady hlive package,
      (plugins_load_load hsteady (hlive.consistent hsteady) package).2⟩
  refine ⟨fun path format descriptor hdescriptor => ?_,
    fun name plugin format descriptor hplugin hdescriptor hname => ?_⟩
  · obtain ⟨package, hread, -, -⟩ := read_of_descriptor hdescriptor
    obtain ⟨halike, hsummary⟩ := hagain package
    dsimp only
    rw [loadPath_of_read hread, loadPath_of_read hread]
    exact ⟨halike, _, rfl, by rw [hsummary]⟩
  · obtain ⟨package, hread, hpath, rfl⟩ := read_of_descriptor hdescriptor
    obtain ⟨halike, hsummary⟩ := hagain package
    -- the plugin of the first reload has the path of the one before it
    have hplugin' : (c.load package).1.plugin? name = some (c.load package).2 :=
      hname ▸ KeyTable.find?_insert_self _ _ _
    have hread' : Package.read root (c.load package).2.path = .ok package := by
      rw [show (c.load package).2.path = plugin.path from hpath, hread]
    dsimp only
    rw [reload_of_read hplugin hread hname]
    dsimp only
    rw [reload_of_read hplugin' hread' hname]
    exact ⟨halike, _, rfl, by rw [hsummary]⟩

/-- The plugin `a` is loaded again under the plugin `b`, which has its command, rule and
template. -/
theorem load_idempotent_rivalry :
    let c : Catalog Program.language := Catalog.after { scripts := Program.start }
      [.load rivalFiles "a", .load rivalFiles "b"]
    readDescriptor rivalFiles "a" = .ok (.json, scriptDescriptor "a") ∧
    (Catalog.loadPath rivalFiles (Catalog.loadPath rivalFiles c "a").1 "a").1.Alike
      (Catalog.loadPath rivalFiles c "a").1 ∧
    ∃ plugin, c.plugin? "a" = some plugin ∧
      (Catalog.reload rivalFiles (Catalog.reload rivalFiles c "a").1 "a").1.Alike
        (Catalog.reload rivalFiles c "a").1 := by
  intro c
  have hstart : Catalog.Live { scripts := Program.start } := @Catalog.Live.start Program.language []
  have hlive : c.Live := (hstart.changed (.load rivalFiles "a")).changed (.load rivalFiles "b")
  have hdescriptor : readDescriptor rivalFiles "a" = .ok (.json, scriptDescriptor "a") := by
    decide +kernel
  have hpath : (c.plugin? "a").any (fun plugin => plugin.path = "a") = true := by
    decide +kernel
  obtain ⟨plugin, hplugin, hplugin'⟩ := (Option.any_eq_true _ _).mp hpath
  have hdescriptor' :
      readDescriptor rivalFiles plugin.path = .ok (.json, scriptDescriptor "a") := by
    rw [of_decide_eq_true hplugin', hdescriptor]
  obtain ⟨hload, hreload⟩ := load_idempotent steady_program hlive rivalFiles
  exact ⟨hdescriptor, (hload "a" _ _ hdescriptor).1, plugin, hplugin,
    (hreload "a" plugin _ _ hplugin hdescriptor' rfl).1⟩

end DiceHost.Plugin
