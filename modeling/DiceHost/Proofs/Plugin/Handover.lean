import DiceHost.Proofs.Plugin.History
import Mathlib.Tactic.FinCases

/-! # Names when a plugin goes

A plugin that goes gives back every name that its scripts claim, whether it had the name or not.
A name that it does not claim runs what it ran before. A name that it claims is bound to the
owner among the plugins that are left, which need not be the script that had it so far: the owner
is found in the order of the plugins' names, and a short name was taken in the order of the loads.
-/
namespace DiceHost.Plugin
open DiceHost.Script
variable {language : Interpreter} {plugins : KeyTable Loaded}

/-! ## What a name runs -/

/-- Running the name runs code that was made from the script under this name. -/
def Catalog.Runs (c : Catalog language) (name : String) (script : Script) : Prop :=
  ∃ code, KeyTable.find? c.scripts.codes name = some code ∧
    (∃ state codes,
      (language.compile state codes name script.source script.dialect).2 = .ok code) ∧
    ∀ context, (c.scripts.call name context).2 =
      (language.run c.scripts.state c.scripts.codes name code context).2

theorem runs_iff {c : Catalog language} {name : String} {script : Script} :
    c.Runs name script ↔ ∃ compiled, KeyTable.find? c.scripts.loaded name = some compiled ∧
      ∃ state codes, (language.compile state codes name script.source script.dialect).2 =
        .ok compiled.code := by
  have hcodes : KeyTable.find? c.scripts.codes name =
      (KeyTable.find? c.scripts.loaded name).map Compiled.code := KeyTable.find?_mapValues _ _ _
  constructor
  · rintro ⟨code, hfound, hmade, -⟩
    rw [hcodes] at hfound
    obtain ⟨compiled, hcompiled, rfl⟩ := Option.map_eq_some_iff.mp hfound
    exact ⟨compiled, hcompiled, hmade⟩
  · rintro ⟨compiled, hfound, hmade⟩
    refine ⟨compiled.code, ?_, hmade, fun context => ?_⟩
    · rw [hcodes, hfound]
      rfl
    · simp [Scripts.call, hfound]

theorem Catalog.Runs.of_find?_eq {c c' : Catalog language} {name : String} {script : Script}
    (h : c.Runs name script)
    (heq : KeyTable.find? c'.scripts.loaded name = KeyTable.find? c.scripts.loaded name) :
    c'.Runs name script := by
  obtain ⟨compiled, hfound, hmade⟩ := runs_iff.mp h
  exact runs_iff.mpr ⟨compiled, heq.trans hfound, hmade⟩

/-- Which of two scripts with one source is run is no difference. -/
theorem Catalog.Runs.of_source_eq {c : Catalog language} {name : String} {script other : Script}
    (h : c.Runs name script) (hsource : script.source = other.source)
    (hdialect : script.dialect = other.dialect) : c.Runs name other := by
  obtain ⟨compiled, hfound, hmade⟩ := runs_iff.mp h
  rw [hsource, hdialect] at hmade
  exact runs_iff.mpr ⟨compiled, hfound, hmade⟩

/-- The name is bound to code of the script. -/
def Binds (scripts : Scripts language) (name : String) (script : Script) : Prop :=
  ∃ compiled, KeyTable.find? scripts.loaded name = some compiled ∧ compiled.MadeFrom name script

theorem Binds.runs {c : Catalog language} {name : String} {script : Script}
    (h : Binds c.scripts name script) : c.Runs name script := by
  obtain ⟨compiled, hfound, hmade⟩ := h
  exact runs_iff.mpr ⟨compiled, hfound, hmade.code⟩

theorem Binds.of_find?_eq {scripts scripts' : Scripts language} {name : String} {script : Script}
    (h : Binds scripts name script)
    (heq : KeyTable.find? scripts'.loaded name = KeyTable.find? scripts.loaded name) :
    Binds scripts' name script := by
  obtain ⟨compiled, hfound, hmade⟩ := h
  exact ⟨compiled, heq.trans hfound, hmade⟩

theorem binds_of_load_ok {scripts scripts' : Scripts language} {name : String} {script : Script}
    (h : scripts.load name script.source script.dialect = (scripts', .ok ())) :
    Binds scripts' name script := by
  obtain ⟨compiled, hmade, hfind⟩ := find?_of_load_ok h
  exact ⟨compiled, by rw [hfind, if_pos rfl], hmade⟩

/-! ## Names that are given back -/

theorem binds_release (hsteady : language.Steady) {name : String} {script : Script}
    (howner : owner? plugins name = some script)
    (haccepts : language.Accepts script.source script.dialect) (scripts : Scripts language) :
    Binds (release plugins scripts name) name script := by
  obtain ⟨loaded, hload⟩ := exists_load_ok hsteady haccepts scripts name
  have hrelease : release plugins scripts name = loaded := by
    unfold release
    rw [howner]
    dsimp only
    rw [hload]
  rw [hrelease]
  exact binds_of_load_ok hload

theorem plugins_unload {c : Catalog language} {gone : String} {plugin : Loaded}
    (h : c.plugin? gone = some plugin) :
    (c.unload gone).plugins = KeyTable.erase c.plugins gone := by
  rw [Catalog.plugin?] at h
  rw [Catalog.unload, h]

/-- The names that a plugin gives back are given back one after another. -/
theorem scripts_unload {c : Catalog language} {gone : String} {plugin : Loaded}
    (h : c.plugin? gone = some plugin) :
    (c.unload gone).scripts = (plugin.scripts.flatMap (fun entry => entry.2.names)).foldl
      (release (KeyTable.erase c.plugins gone)) c.scripts := by
  rw [Catalog.plugin?] at h
  rw [Catalog.unload, h]

section Unload
variable {c : Catalog language} {gone name : String} {plugin : Loaded}
  (hplugin : c.plugin? gone = some plugin)
include hplugin

theorem find?_unload_of_not_claimed (h : ∀ other, plugin.Keeps other → name ∉ other.names) :
    KeyTable.find? (c.unload gone).scripts.loaded name =
      KeyTable.find? c.scripts.loaded name := by
  rw [scripts_unload hplugin]
  refine find?_releaseAll_of_notMem _ c.scripts (fun hmem => ?_)
  obtain ⟨⟨key, other⟩, hother, hname⟩ := List.mem_flatMap.mp hmem
  exact h other ⟨key, hother⟩ hname

/-- A name that the plugin claims ends bound to its owner among the other plugins. -/
theorem binds_unload_of_claimed (hconsistent : c.Consistent) (hsteady : language.Steady)
    {other heir : Script} (hkeeps : plugin.Keeps other) (hname : name ∈ other.names)
    (howner : owner? (c.unload gone).plugins name = some heir) :
    Binds (c.unload gone).scripts name heir := by
  have hafter := hconsistent.unload hsteady gone
  have haccepts := hafter.accepted heir (claims_of_owner? howner).1
  rw [plugins_unload hplugin] at howner
  rw [scripts_unload hplugin]
  obtain ⟨key, hkey⟩ := hkeeps
  have hmem : name ∈ plugin.scripts.flatMap (fun entry => entry.2.names) :=
    List.mem_flatMap.mpr ⟨(key, other), hkey, hname⟩
  obtain ⟨before, hbefore⟩ :=
    find?_releaseAll_of_mem (KeyTable.erase c.plugins gone) c.scripts hmem
  exact (binds_release hsteady howner haccepts before).of_find?_eq hbefore

end Unload

/-- What becomes of a name that a script of another plugin has when a plugin goes. -/
structure Catalog.HandsOver (c : Catalog language) (gone : String) (plugin : Loaded)
    (name : String) (script : Script) : Prop where
  unclaimed : (∀ other, plugin.Keeps other → name ∉ other.names) →
    KeyTable.find? (c.unload gone).scripts.codes name = KeyTable.find? c.scripts.codes name ∧
      (c.unload gone).Runs name script
  claimed : (∃ other, plugin.Keeps other ∧ name ∈ other.names) →
    ∃ heir, owner? (c.unload gone).plugins name = some heir ∧ (c.unload gone).Runs name heir
  shared : (∀ other, Kept (c.unload gone).plugins other → name ∈ other.names →
      other.source = script.source ∧ other.dialect = script.dialect) →
    (c.unload gone).Runs name script

/-- When a plugin goes, a name that another plugin's script has runs that script still if the
plugin does not claim it. Otherwise it runs its owner among the plugins that are left, so it is
certain to run the same source only where all that claim it have this source. -/
theorem handsOver_of_runs (hsteady : language.Steady) {c : Catalog language} (hreached : c.Reached)
    {gone name : String} {plugin : Loaded} {script : Script}
    (hplugin : c.plugin? gone = some plugin)
    (hother : Kept (KeyTable.erase c.plugins gone) script) (hname : name ∈ script.names)
    (hruns : c.Runs name script) : c.HandsOver gone plugin name script := by
  have hunclaimed (h : ∀ other, plugin.Keeps other → name ∉ other.names) :
      (c.unload gone).Runs name script :=
    hruns.of_find?_eq (find?_unload_of_not_claimed hplugin h)
  have hclaimed : (∃ other, plugin.Keeps other ∧ name ∈ other.names) →
      ∃ heir, owner? (c.unload gone).plugins name = some heir ∧
        (c.unload gone).Runs name heir := by
    rintro ⟨other, hkeeps, hclaim⟩
    cases howner : owner? (c.unload gone).plugins name with
    | none =>
      rw [← plugins_unload hplugin] at hother
      exact absurd hname (owner?_eq_none howner hother)
    | some heir =>
      have hconsistent := hreached.consistent hsteady
      exact ⟨heir, rfl,
        (binds_unload_of_claimed hplugin hconsistent hsteady hkeeps hclaim howner).runs⟩
  refine ⟨fun h => ⟨?_, hunclaimed h⟩, hclaimed, fun hsame => ?_⟩
  · have hfind := find?_unload_of_not_claimed hplugin h
    rw [Scripts.codes, Scripts.codes, KeyTable.find?_mapValues, KeyTable.find?_mapValues, hfind]
  · by_cases h : ∃ other, plugin.Keeps other ∧ name ∈ other.names
    · obtain ⟨heir, howner, hheir⟩ := hclaimed h
      obtain ⟨hkept, hclaim⟩ := claims_of_owner? howner
      obtain ⟨hsource, hdialect⟩ := hsame heir hkept hclaim
      exact hheir.of_source_eq hsource hdialect
    · exact hunclaimed (fun other hkeeps hclaim => h ⟨other, hkeeps, hclaim⟩)

/-! ## Three plugins with one short name -/

/-- For instruction lists the code of a script is its source. -/
theorem runs_program {c : Catalog Program.language} {name : String} {script : Script}
    (hfound : (show Option String from KeyTable.find? c.scripts.codes name) = some script.source)
    (hgood : Text.startsWith "!bad" script.source = false) : c.Runs name script := by
  have hcodes : (show Option String from KeyTable.find? c.scripts.codes name) =
      (KeyTable.find? c.scripts.loaded name).map Compiled.code := KeyTable.find?_mapValues _ _ _
  rw [hcodes] at hfound
  obtain ⟨compiled, hcompiled, hcode⟩ := Option.map_eq_some_iff.mp hfound
  refine runs_iff.mpr ⟨compiled, hcompiled, [], [], ?_⟩
  simp only [Program.language, hgood, Bool.false_eq_true, if_false]
  exact congrArg Except.ok hcode.symm

def trioFiles : Directory := ["a", "m", "z"].map (fun name =>
  scriptPlugin name [("t.lua", .file ("from " ++ name).toUTF8.toList)])

def trioPackage (name : String) : Package := ⟨name, .json, scriptDescriptor name,
  [(name ++ ".t", Script.make name [] "t.lua" .lua ("from " ++ name))], [], [], []⟩

theorem read_trio : ∀ name ∈ ["a", "m", "z"],
    Package.read trioFiles name = .ok (trioPackage name) := by
  intro name hname
  have hdescriptor : ∀ name ∈ ["a", "m", "z"],
      readDescriptor trioFiles name = .ok (.json, scriptDescriptor name) := by decide +kernel
  have hentries : ∀ name ∈ ["a", "m", "z"], Files.entries? trioFiles (Files.under name "script") =
      some [("t.lua", .file ("from " ++ name).toUTF8.toList)] := by
    intro name hname
    fin_cases hname <;> rfl
  have hsource : ∀ name ∈ ["a", "m", "z"],
      Text.ofBytes? ("from " ++ name).toUTF8.toList = some ("from " ++ name) := by decide +kernel
  have hqualified : ∀ name ∈ ["a", "m", "z"], qualifiedName name [] "t.lua" = name ++ ".t" := by
    decide +kernel
  have hother : ∀ name ∈ ["a", "m", "z"], ∀ directory ∈ ["reply", "rulebook", "template"],
      Files.entries? trioFiles (Files.under name directory) = none := by
    intro name hname directory hdirectory
    fin_cases hname <;> fin_cases hdirectory <;> rfl
  have hdialect : Dialect.ofPath "t.lua" = some .lua := by decide +kernel
  have hread := read_of_file (hdescriptor name hname) (hentries name hname) hdialect
    (hsource name hname) (hother name hname)
  rw [scriptDescriptor, hqualified name hname] at hread
  exact hread

/-- The plugins `z`, `a` and `m` are loaded in this order. -/
def trio : Catalog Program.language := Catalog.after { scripts := Program.start }
  [.load trioFiles "z", .load trioFiles "a", .load trioFiles "m"]

theorem trio_eq : trio = (((Catalog.load { scripts := Program.start }
    (trioPackage "z")).1.load (trioPackage "a")).1.load (trioPackage "m")).1 := by
  simp only [trio, Catalog.after, List.foldl_cons, List.foldl_nil, Catalog.change,
    Catalog.loadPath]
  rw [read_trio "z" (by decide), read_trio "a" (by decide), read_trio "m" (by decide)]

theorem runs_trio : ∃ script, Kept (KeyTable.erase trio.plugins "m") script ∧
    "t" ∈ script.names ∧ script.source = "from z" ∧ trio.Runs "t" script := by
  have hclaimants : (claimants (KeyTable.erase trio.plugins "m") "t").map Script.source =
      ["from a", "from z"] := by
    rw [trio_eq]
    decide +kernel
  have hfound : (show Option String from KeyTable.find? trio.scripts.codes "t") =
      some "from z" := by
    rw [trio_eq]
    decide +kernel
  have hmem : "from z" ∈ (claimants (KeyTable.erase trio.plugins "m") "t").map Script.source := by
    rw [hclaimants]
    decide
  obtain ⟨script, hscript, hsource⟩ := List.mem_map.mp hmem
  obtain ⟨hkept, hname⟩ := mem_claimants.mp hscript
  refine ⟨script, hkept, hname, hsource, runs_program ?_ ?_⟩
  · rw [hfound, hsource]
  · rw [hsource]
    decide +kernel

theorem handsOver_of_runs_trio : ∃ plugin script, trio.plugin? "m" = some plugin ∧
    Kept (KeyTable.erase trio.plugins "m") script ∧ "t" ∈ script.names ∧ trio.Runs "t" script ∧
    trio.HandsOver "m" plugin "t" script := by
  obtain ⟨script, hkept, hname, -, hruns⟩ := runs_trio
  have hplugin : (trio.plugin? "m").isSome = true := by
    rw [trio_eq]
    decide +kernel
  obtain ⟨plugin, hplugin⟩ := Option.isSome_iff_exists.mp hplugin
  exact ⟨plugin, script, hplugin, hkept, hname, hruns,
    handsOver_of_runs steady_program ⟨[], _, rfl⟩ hplugin hkept hname hruns⟩

/-- The plugin `m` never had the name `t`, and yet it passes from `z` to `a` when `m` goes. -/
theorem trio_passes_name : trio.Reached ∧
    (∃ script, Kept (KeyTable.erase trio.plugins "m") script ∧ "t" ∈ script.names ∧
      script.source = "from z" ∧ trio.Runs "t" script) ∧
    (trio.plugin? "m").isSome ∧
    (show Option String from KeyTable.find? trio.scripts.codes "t") = some "from z" ∧
    (show Option String from KeyTable.find? (trio.unload "m").scripts.codes "t") =
      some "from a" := by
  refine ⟨⟨[], _, rfl⟩, runs_trio, ?_⟩
  rw [trio_eq]
  decide +kernel

end DiceHost.Plugin
