import DiceHost.Proofs.Plugin.Repeated

/-! # Scripts that are refused

A script that is refused binds no name, but the attempt may change the state of the interpreter.
Where it does not, or where nothing that is compared later depends on the state, a package loads as
if the script were not in it.
-/
namespace DiceHost.Script
variable {language : Interpreter}

/-- Whatever is compiled or run next, it comes out the same from both states. -/
structure Interpreter.Alike (language : Interpreter) (state state' : language.State) : Prop where
  compile : language.compile state = language.compile state'
  run : language.run state = language.run state'

/-- The same code is loaded, and the states of the interpreter cannot be told apart. -/
structure Scripts.Alike (scripts scripts' : Scripts language) : Prop where
  loaded : scripts.loaded = scripts'.loaded
  state : language.Alike scripts.state scripts'.state

/-- The source and the dialect of every loaded name. -/
def Scripts.sources (scripts : Scripts language) : KeyTable (String × Dialect) :=
  KeyTable.mapValues (fun compiled => (compiled.source, compiled.dialect)) scripts.loaded

theorem Scripts.Alike.refl (scripts : Scripts language) : scripts.Alike scripts := ⟨rfl, rfl, rfl⟩

theorem Scripts.Alike.trans {scripts scripts' scripts'' : Scripts language}
    (h : scripts.Alike scripts') (h' : scripts'.Alike scripts'') : scripts.Alike scripts'' :=
  ⟨h.loaded.trans h'.loaded, h.state.compile.trans h'.state.compile,
    h.state.run.trans h'.state.run⟩

theorem Scripts.Alike.load {scripts scripts' : Scripts language} (h : scripts.Alike scripts')
    (name source : String) (dialect : Dialect) :
    scripts.load name source dialect = scripts'.load name source dialect := by
  unfold Scripts.load Scripts.codes
  rw [h.state.compile, h.loaded]

theorem Scripts.sources_of_load_ok {scripts scripts' : Scripts language} {name : String}
    {script : Script}
    (h : scripts.load name script.source script.dialect = (scripts', .ok ())) :
    scripts'.sources = KeyTable.insert name (script.source, script.dialect) scripts.sources := by
  unfold Scripts.load at h
  split at h
  · cases h
    exact KeyTable.mapValues_insert _ _ _ _
  · cases h

end DiceHost.Script

namespace DiceHost.Plugin
open DiceHost.Script
variable {language : Interpreter}

/-- Whether a script is accepted is settled by the attempt under its qualified name, and a refused
one leaves what this attempt left. -/
theorem loadScript_of_compile {plugins : KeyTable Loaded} {scripts : Scripts language}
    {script : Script} {state : language.State} {outcome : Except Failure language.Code}
    (h : language.compile scripts.state scripts.codes script.qualified script.source
      script.dialect = (state, outcome)) :
    (loadScript plugins scripts script).2 = outcome.toBool ∧
      (outcome.toBool = false →
        (loadScript plugins scripts script).1 = ⟨state, scripts.loaded⟩) := by
  unfold loadScript Scripts.load
  rw [h]
  cases outcome with
  | error failure => exact ⟨rfl, fun _ => rfl⟩
  | ok code =>
    refine ⟨?_, fun hbad => by cases hbad⟩
    dsimp only
    split
    · split <;> rfl
    · rfl

/-- Every script that is left out is refused when its turn comes, and the scripts after the attempt
are like those before it. -/
def Harmless (alike : Scripts language → Scripts language → Prop) (plugins : KeyTable Loaded)
    (stays : String × Script → Bool) : KeyTable Script → Scripts language → Prop
  | [], _ => True
  | entry :: rest, scripts =>
    (stays entry = false → (loadScript plugins scripts entry.2).2 = false ∧
      alike (loadScript plugins scripts entry.2).1 scripts) ∧
    Harmless alike plugins stays rest (loadScript plugins scripts entry.2).1

/-- One script leads from like scripts to like scripts, with the same verdict. -/
structure Likeness (alike : Scripts language → Scripts language → Prop)
    (plugins : KeyTable Loaded) : Prop where
  refl : ∀ scripts, alike scripts scripts
  trans : ∀ {first second third}, alike first second → alike second third → alike first third
  step : ∀ {scripts scripts'}, alike scripts scripts' → ∀ script,
    alike (loadScript plugins scripts script).1 (loadScript plugins scripts' script).1 ∧
      (loadScript plugins scripts script).2 = (loadScript plugins scripts' script).2

/-- A load does not depend on harmless scripts. -/
theorem loadScripts_filter {alike : Scripts language → Scripts language → Prop}
    {plugins : KeyTable Loaded} (hlike : Likeness alike plugins) {stays : String × Script → Bool}
    {entries : KeyTable Script} {scripts scripts' : Scripts language}
    (hharmless : Harmless alike plugins stays entries scripts) (h : alike scripts scripts') :
    alike (loadScripts plugins entries scripts).1
        (loadScripts plugins (entries.filter stays) scripts').1 ∧
      (loadScripts plugins entries scripts).2 =
        (loadScripts plugins (entries.filter stays) scripts').2 := by
  induction entries generalizing scripts scripts' with
  | nil => exact ⟨h, rfl⟩
  | cons entry rest ih =>
    obtain ⟨name, script⟩ := entry
    obtain ⟨hrefused, hrest⟩ := hharmless
    cases hstays : stays (name, script) with
    | false =>
      obtain ⟨hflag, hback⟩ := hrefused hstays
      rw [List.filter_cons_of_neg (by simp [hstays])]
      simp only [loadScripts, hflag, Bool.false_eq_true, if_false]
      exact ih hrest (hlike.trans hback h)
    | true =>
      obtain ⟨halike, hflag⟩ := hlike.step h script
      obtain ⟨hscripts, hkept⟩ := ih hrest halike
      rw [List.filter_cons_of_pos hstays]
      simp only [loadScripts, hflag, hkept]
      exact ⟨hscripts, trivial⟩

/-! ## Attempts without a trace -/

theorem likeness_alike (plugins : KeyTable Loaded) :
    Likeness (@Scripts.Alike language) plugins := by
  refine ⟨Scripts.Alike.refl, Scripts.Alike.trans, fun {scripts scripts'} halike script => ?_⟩
  have hsame : loadScript plugins scripts script = loadScript plugins scripts' script := by
    unfold loadScript
    rw [halike.load]
  rw [hsame]
  exact ⟨Scripts.Alike.refl _, rfl⟩

/-! ## Attempts under a steady interpreter -/

theorem sources_of_refused {plugins : KeyTable Loaded} {scripts : Scripts language}
    {script : Script} (h : (loadScript plugins scripts script).2 = false) :
    (loadScript plugins scripts script).1.sources = scripts.sources := by
  have hloaded := loaded_of_refused
    (show loadScript plugins scripts script = ((loadScript plugins scripts script).1, false) by
      rw [← h])
  unfold Scripts.sources
  rw [hloaded]

theorem refused_iff (hsteady : language.Steady) (plugins : KeyTable Loaded)
    (scripts : Scripts language) (script : Script) :
    (loadScript plugins scripts script).2 = false ↔
      ¬ language.Accepts script.source script.dialect := by
  rw [← accepted_iff hsteady plugins scripts script, Bool.not_eq_true]

theorem sources_loadScript (hsteady : language.Steady) {plugins : KeyTable Loaded}
    {scripts scripts' : Scripts language} (h : scripts.sources = scripts'.sources)
    (script : Script) :
    (loadScript plugins scripts script).1.sources = (loadScript plugins scripts' script).1.sources ∧
      (loadScript plugins scripts script).2 = (loadScript plugins scripts' script).2 := by
  refine ⟨?_, by rw [Bool.eq_iff_iff, accepted_iff hsteady, accepted_iff hsteady]⟩
  by_cases haccepts : language.Accepts script.source script.dialect
  · obtain ⟨loaded, hload⟩ := exists_load_ok hsteady haccepts scripts script.qualified
    obtain ⟨loaded', hload'⟩ := exists_load_ok hsteady haccepts scripts' script.qualified
    have hqualified : loaded.sources = loaded'.sources := by
      rw [Scripts.sources_of_load_ok hload, Scripts.sources_of_load_ok hload', h]
    unfold loadScript
    rw [hload, hload']
    dsimp only
    split
    · next short hshort =>
      split
      · exact hqualified
      · obtain ⟨again, hagain⟩ := exists_load_ok hsteady haccepts loaded short
        obtain ⟨again', hagain'⟩ := exists_load_ok hsteady haccepts loaded' short
        rw [hagain, hagain']
        dsimp only
        rw [Scripts.sources_of_load_ok hagain, Scripts.sources_of_load_ok hagain', hqualified]
    · exact hqualified
  · have hrefused (scripts : Scripts language) :
        (loadScript plugins scripts script).1.sources = scripts.sources :=
      sources_of_refused ((refused_iff hsteady plugins scripts script).mpr haccepts)
    rw [hrefused, hrefused, h]

theorem likeness_sources (hsteady : language.Steady) (plugins : KeyTable Loaded) :
    Likeness (fun scripts scripts' : Scripts language => scripts.sources = scripts'.sources)
      plugins :=
  ⟨fun _ => rfl, Eq.trans, fun hsources => sources_loadScript hsteady hsources⟩

theorem harmless_of_not_accepts (hsteady : language.Steady) (plugins : KeyTable Loaded)
    {stays : String × Script → Bool} {entries : KeyTable Script}
    (h : ∀ entry ∈ entries, stays entry = false →
      ¬ language.Accepts entry.2.source entry.2.dialect) (scripts : Scripts language) :
    Harmless (fun scripts scripts' => scripts.sources = scripts'.sources) plugins stays entries
      scripts := by
  induction entries generalizing scripts with
  | nil => trivial
  | cons entry rest ih =>
    refine ⟨fun hstays => ?_, ih (fun other hother => h other (List.mem_cons_of_mem _ hother)) _⟩
    have hflag := (refused_iff hsteady plugins scripts entry.2).mpr
      (h entry List.mem_cons_self hstays)
    exact ⟨hflag, sources_of_refused hflag⟩

/-! ## Packages -/

/-- The package with some of its scripts only. -/
def Package.keeping (package : Package) (stays : String × Script → Bool) : Package :=
  { package with scripts := package.scripts.filter stays }

/-- The two catalogs have the same plugins, with the same records, and the same commands, rules
and templates, and their scripts are alike. -/
structure Catalog.Matches (alike : Scripts language → Scripts language → Prop)
    (c c' : Catalog language) : Prop where
  plugins : c.plugins = c'.plugins
  commands : c.commands = c'.commands
  rules : c.rules = c'.rules
  templates : c.templates = c'.templates
  scripts : alike c.scripts c'.scripts

section Keeping
variable (c : Catalog language) (package : Package) (stays : String × Script → Bool)

theorem matches_load_keeping {alike : Scripts language → Scripts language → Prop}
    (hlike : Likeness alike (c.unload package.descriptor.name).plugins)
    (h : Harmless alike (c.unload package.descriptor.name).plugins stays package.scripts
      (c.unload package.descriptor.name).scripts) :
    (c.load package).1.Matches alike (c.load (package.keeping stays)).1 ∧
      (c.load package).2 = (c.load (package.keeping stays)).2 := by
  obtain ⟨hscripts, hkept⟩ := loadScripts_filter hlike h (hlike.refl _)
  have hloaded : (c.load package).2 = (c.load (package.keeping stays)).2 :=
    congrArg package.loaded hkept
  refine ⟨⟨?_, rfl, rfl, rfl, hscripts⟩, hloaded⟩
  exact congrArg (KeyTable.insert package.descriptor.name ·
    (c.unload package.descriptor.name).plugins) hloaded

/-- A script whose refused attempt leaves no trace might as well not be there. -/
theorem matches_of_harmless
    (h : Harmless Scripts.Alike (c.unload package.descriptor.name).plugins stays package.scripts
      (c.unload package.descriptor.name).scripts) :
    (c.load package).1.Matches Scripts.Alike (c.load (package.keeping stays)).1 ∧
      (c.load package).2 = (c.load (package.keeping stays)).2 :=
  matches_load_keeping c package stays (likeness_alike _) h

/-- Where acceptance depends on the source and the dialect only, a refused script leaves the same
names with the same sources. -/
theorem matches_of_steady (hsteady : language.Steady)
    (h : ∀ entry ∈ package.scripts, stays entry = false →
      ¬ language.Accepts entry.2.source entry.2.dialect) :
    (c.load package).1.Matches (fun scripts scripts' => scripts.sources = scripts'.sources)
        (c.load (package.keeping stays)).1 ∧
      (c.load package).2 = (c.load (package.keeping stays)).2 :=
  matches_load_keeping c package stays (likeness_sources hsteady _)
    (harmless_of_not_accepts hsteady _ h _)

end Keeping

end DiceHost.Plugin
