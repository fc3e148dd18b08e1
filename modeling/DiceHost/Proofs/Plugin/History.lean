import DiceHost.Proofs.Plugin.Serving
import DiceHost.Proofs.Script.Scanning
import DiceHost.Script.Program
import Mathlib.Tactic.FinCases

/-! # Histories of a catalog

A catalog changes by loading, unloading and reloading plugins, over files that may differ
from one change to the next. Whatever the history, the names of scripts are those of the
scripts that the loaded plugins keep.
-/
namespace DiceHost.Plugin
open DiceHost.Script
variable {language : Interpreter}

/-- A change of the loaded plugins. The files are those at the time of the change. -/
inductive Change where
  | load (root : Directory) (path : String)
  | loadDirectory (root : Directory) (directory : String)
  | unload (name : String)
  | reload (root : Directory) (name : String)

def Catalog.change (c : Catalog language) : Change → Catalog language
  | .load root path => (Catalog.loadPath root c path).1
  | .loadDirectory root directory => (Catalog.loadDirectory root c directory).1
  | .unload name => c.unload name
  | .reload root name => (Catalog.reload root c name).1

/-- The catalog after a history. -/
def Catalog.after (c : Catalog language) (history : List Change) : Catalog language :=
  history.foldl Catalog.change c

/-- The catalog is the result of a history that begins without plugins and scripts. -/
def Catalog.Reached (c : Catalog language) : Prop :=
  ∃ state history, c = Catalog.after { scripts := ⟨state, []⟩ } history

/-! ## What a history comes down to -/

/-- What happens to the plugins: a package is loaded in the place of the plugin of its name, or
a plugin goes. -/
inductive Event where
  | loaded (package : Package)
  | removed (name : String)

def Catalog.apply (c : Catalog language) : Event → Catalog language
  | .loaded package => (c.load package).1
  | .removed name => c.unload name

def Catalog.replay (c : Catalog language) (events : List Event) : Catalog language :=
  events.foldl Catalog.apply c

/-- The load of the package at a path, if there is a usable one. -/
def loadEvents (root : Directory) (path : String) : List Event :=
  match Package.read root path with
  | .error _ => []
  | .ok package => [.loaded package]

/-- What happens in one change. -/
def Catalog.events (c : Catalog language) : Change → List Event
  | .load root path => loadEvents root path
  | .loadDirectory root directory =>
    match Files.entries? root directory with
    | none => []
    | some entries =>
      ((Files.directoryNames entries).map (Files.under directory)).flatMap (loadEvents root)
  | .unload name => [.removed name]
  | .reload root name =>
    match c.plugin? name with
    | none => []
    | some plugin =>
      match Package.read root plugin.path with
      | .error _ => []
      | .ok package =>
        .loaded package :: if package.descriptor.name = name then [] else [.removed name]

/-- What happens in a history, in its order. -/
def Catalog.journal (c : Catalog language) : List Change → List Event
  | [] => []
  | step :: rest => c.events step ++ (c.change step).journal rest

namespace Catalog

theorem replay_append (c : Catalog language) (events later : List Event) :
    c.replay (events ++ later) = (c.replay events).replay later := by
  simp only [replay, List.foldl_append]

theorem loadPath_eq_replay (c : Catalog language) (root : Directory) (path : String) :
    (Catalog.loadPath root c path).1 = c.replay (loadEvents root path) := by
  unfold Catalog.loadPath loadEvents
  cases Package.read root path with
  | error failure => rfl
  | ok package => rfl

theorem loadPaths_eq_replay (c : Catalog language) (root : Directory) (paths : List String) :
    (Catalog.loadPaths root paths c).1 = c.replay (paths.flatMap (loadEvents root)) := by
  induction paths generalizing c with
  | nil => rfl
  | cons path rest ih =>
    have hfirst := loadPath_eq_replay c root path
    rw [List.flatMap_cons, replay_append, ← hfirst, ← ih]
    cases hload : Catalog.loadPath root c path with
    | mk loaded outcome =>
      cases outcome with
      | error failure => simp only [Catalog.loadPaths, hload]
      | ok summary => simp only [Catalog.loadPaths, hload]

theorem change_eq_replay (c : Catalog language) (step : Change) :
    c.change step = c.replay (c.events step) := by
  cases step with
  | load root path => exact loadPath_eq_replay c root path
  | loadDirectory root directory =>
    simp only [Catalog.change, Catalog.loadDirectory, Catalog.events]
    cases Files.entries? root directory with
    | none => rfl
    | some entries => exact loadPaths_eq_replay c root _
  | unload name => rfl
  | reload root name =>
    simp only [Catalog.change, Catalog.reload, Catalog.events]
    cases c.plugin? name with
    | none => rfl
    | some plugin =>
      dsimp only [Catalog.loadPath]
      cases Package.read root plugin.path with
      | error failure => rfl
      | ok package =>
        have hname : (c.load package).2.summary.name = package.descriptor.name := rfl
        dsimp only
        rw [hname]
        split <;> rfl

/-- A history is what happens in it. -/
theorem after_eq_replay (c : Catalog language) (history : List Change) :
    c.after history = c.replay (c.journal history) := by
  induction history generalizing c with
  | nil => rfl
  | cons step rest ih =>
    have hrest : c.after (step :: rest) = (c.change step).after rest := rfl
    rw [hrest, ih, journal, replay_append, ← change_eq_replay]

end Catalog

theorem read_of_mem_loadEvents {root : Directory} {path : String} {package : Package}
    (h : Event.loaded package ∈ loadEvents root path) : Package.read root path = .ok package := by
  unfold loadEvents at h
  cases hread : Package.read root path with
  | error failure =>
    rw [hread] at h
    cases h
  | ok found =>
    rw [hread] at h
    cases List.mem_singleton.mp h
    rfl

theorem read_of_mem_events {c : Catalog language} {step : Change} {package : Package}
    (h : Event.loaded package ∈ c.events step) :
    ∃ root path, Package.read root path = .ok package := by
  cases step with
  | load root path => exact ⟨root, path, read_of_mem_loadEvents h⟩
  | loadDirectory root directory =>
    simp only [Catalog.events] at h
    split at h
    · cases h
    · obtain ⟨path, -, hpath⟩ := List.mem_flatMap.mp h
      exact ⟨root, path, read_of_mem_loadEvents hpath⟩
  | unload name => cases List.mem_singleton.mp h
  | reload root name =>
    simp only [Catalog.events] at h
    split at h
    · cases h
    · next plugin hplugin =>
      split at h
      · cases h
      · next found hread =>
        rcases List.mem_cons.mp h with heq | hother
        · cases heq
          exact ⟨root, plugin.path, hread⟩
        · split at hother
          · cases hother
          · cases List.mem_singleton.mp hother

/-- Every package of a journal was read from some files. -/
theorem read_of_mem_journal {c : Catalog language} {history : List Change} {package : Package}
    (h : Event.loaded package ∈ c.journal history) :
    ∃ root path, Package.read root path = .ok package := by
  induction history generalizing c with
  | nil => cases h
  | cons step rest ih =>
    rcases List.mem_append.mp h with hfirst | hrest
    · exact read_of_mem_events hfirst
    · exact ih hrest

theorem find?_unload_self (c : Catalog language) (name : String) :
    KeyTable.find? (c.unload name).plugins name = none := by
  unfold Catalog.unload
  cases hplugin : KeyTable.find? c.plugins name with
  | none => exact hplugin
  | some plugin =>
    dsimp only
    rw [KeyTable.find?_erase, if_pos rfl]

/-- What holds on when a plugin goes, and when a package that was read comes under a free name,
holds after every history. -/
theorem Catalog.after_induction {motive : Catalog language → Prop}
    (hunload : ∀ c name, motive c → motive (c.unload name))
    (hadd : ∀ c root path package, motive c → Package.read root path = .ok package →
      KeyTable.find? c.plugins package.descriptor.name = none → motive (c.add package).1)
    {c : Catalog language} (h : motive c) (history : List Change) : motive (c.after history) := by
  have hstep (c : Catalog language) (event : Event) (hc : motive c)
      (hread : ∀ package, event = .loaded package →
        ∃ root path, Package.read root path = .ok package) : motive (c.apply event) := by
    cases event with
    | loaded package =>
      obtain ⟨root, path, hpackage⟩ := hread package rfl
      exact hadd _ root path package (hunload c package.descriptor.name hc) hpackage
        (find?_unload_self c _)
    | removed name => exact hunload c name hc
  have hrun : ∀ events : List Event, (∀ package, Event.loaded package ∈ events →
      ∃ root path, Package.read root path = .ok package) → ∀ c, motive c →
        motive (c.replay events) := by
    intro events
    induction events with
    | nil => exact fun _ c hc => hc
    | cons event rest ih =>
      intro hread c hc
      refine ih (fun package hmem => hread package (List.mem_cons_of_mem _ hmem)) _ ?_
      exact hstep c event hc (fun package heq => hread package (heq ▸ List.mem_cons_self))
  rw [c.after_eq_replay]
  exact hrun _ (fun package hmem => read_of_mem_journal hmem) c h

/-! ## The invariant -/

/-- Some loaded plugin keeps a script with this name. -/
def Catalog.Claims (c : Catalog language) (name : String) : Prop :=
  ∃ script, Kept c.plugins script ∧ name ∈ script.names

/-- What is kept was accepted, and it serves its names. -/
structure Catalog.Consistent (c : Catalog language) : Prop where
  ordered : KeyTable.Ordered c.plugins
  accepted : ∀ script, Kept c.plugins script → language.Accepts script.source script.dialect
  serves : ∀ name, c.scripts.Serves (Kept c.plugins) name

theorem consistent_empty (state : language.State) :
    Catalog.Consistent { scripts := ⟨state, []⟩ } := by
  have hnone {script : Script} : ¬ Kept [] script := by
    rintro ⟨owner, plugin, hmem, -⟩
    cases hmem
  refine ⟨List.Pairwise.nil, fun script hkept => absurd hkept hnone, fun name => ⟨?_, ?_⟩⟩
  · intro compiled hcompiled
    cases hcompiled
  · intro script hkept
    exact absurd hkept hnone

namespace Catalog.Consistent
variable {c : Catalog language} (hsteady : language.Steady)

include hsteady in
theorem unload (h : c.Consistent) (name : String) : (c.unload name).Consistent := by
  unfold Catalog.unload
  cases hplugin : KeyTable.find? c.plugins name with
  | none => exact h
  | some plugin =>
    have hkept := kept_iff_erase h.ordered hplugin
    have haccepted : ∀ script, Kept (KeyTable.erase c.plugins name) script →
        language.Accepts script.source script.dialect :=
      fun script hs => h.accepted script ((hkept script).mpr (Or.inl hs))
    refine ⟨h.ordered.erase name, haccepted, fun other => ?_⟩
    by_cases hother : other ∈ plugin.scripts.flatMap (fun entry => entry.2.names)
    · exact serves_releaseAll hsteady haccepted c.scripts hother
    · have hfind := find?_releaseAll_of_notMem (KeyTable.erase c.plugins name) c.scripts hother
      refine ((h.serves other).of_find?_eq hfind).of_claims ?_ ?_
      · intro script hs hname
        refine ((hkept script).mp hs).resolve_right ?_
        rintro ⟨key, hmem⟩
        exact hother (List.mem_flatMap.mpr ⟨(key, script), hmem, hname⟩)
      · intro script hs hname
        exact ⟨script, (hkept script).mpr (Or.inl hs), hname⟩

include hsteady in
theorem add (h : c.Consistent) {package : Package}
    (hnew : KeyTable.find? c.plugins package.descriptor.name = none) :
    (c.add package).1.Consistent := by
  have hkept := kept_insert h.ordered hnew
    (package.loaded (loadScripts c.plugins package.scripts c.scripts).2)
  refine ⟨h.ordered.insert _ _, ?_, fun name => ?_⟩
  · intro script hs
    rcases (hkept script).mp hs with hs | ⟨key, hs⟩
    · exact h.accepted script hs
    · exact accepts_of_kept hs
  · have hserves := serves_loadScripts hsteady package.scripts (fun _ hs => hs) h.serves name
    refine hserves.of_claims (fun script hs _ => (hkept script).mpr hs) ?_
    intro script hs hname
    exact ⟨script, (hkept script).mp hs, hname⟩

include hsteady in
theorem after (h : c.Consistent) (history : List Change) : (c.after history).Consistent :=
  Catalog.after_induction (fun _ name hc => hc.unload hsteady name)
    (fun _ _ _ _ hc _ hnew => hc.add hsteady hnew) h history

end Catalog.Consistent

theorem Catalog.Reached.consistent {c : Catalog language} (h : c.Reached)
    (hsteady : language.Steady) : c.Consistent := by
  obtain ⟨state, history, rfl⟩ := h
  exact (consistent_empty state).after hsteady history

/-! ## Names of scripts -/

/-- Whoever looks for the name finds the code of a kept script that claims it. -/
structure Catalog.Answers (c : Catalog language) (name : String) : Prop where
  has : c.scripts.has name = true
  listed : name ∈ c.scripts.names
  found : ∃ script code, Kept c.plugins script ∧ name ∈ script.names ∧
    KeyTable.find? c.scripts.codes name = some code ∧
    (∃ state codes,
      (language.compile state codes name script.source script.dialect).2 = .ok code) ∧
    ∀ context, (c.scripts.call name context).2 =
      (language.run c.scripts.state c.scripts.codes name code context).2

/-- Nobody finds the name. -/
structure Catalog.Lacks (c : Catalog language) (name : String) : Prop where
  has : c.scripts.has name = false
  listed : name ∉ c.scripts.names
  found : KeyTable.find? c.scripts.codes name = none
  call : ∀ context, c.scripts.call name context =
    (c.scripts, context.storage, .error (.notFound ("script '" ++ name ++ "'")))

section Names
variable {c : Catalog language} (h : c.Consistent) {name : String}
include h

theorem answers_of_claims (hclaims : c.Claims name) : c.Answers name := by
  obtain ⟨claimant, hclaimant, hmem⟩ := hclaims
  obtain ⟨compiled, hfound⟩ := (h.serves name).present claimant hclaimant hmem
  obtain ⟨script, hkept, hname, hmade⟩ := (h.serves name).bound compiled hfound
  have hhas : (KeyTable.find? c.scripts.loaded name).isSome = true := by rw [hfound]; rfl
  refine ⟨hhas, KeyTable.find?_isSome_iff.mp hhas, script, compiled.code, hkept, hname, ?_,
    hmade.code, fun context => ?_⟩
  · rw [Scripts.codes, KeyTable.find?_mapValues, hfound]
    rfl
  · simp [Scripts.call, hfound]

theorem lacks_of_not_claims (hclaims : ¬ c.Claims name) : c.Lacks name := by
  have hnone : KeyTable.find? c.scripts.loaded name = none := by
    cases hfound : KeyTable.find? c.scripts.loaded name with
    | none => rfl
    | some compiled =>
      obtain ⟨script, hkept, hname, -⟩ := (h.serves name).bound compiled hfound
      exact absurd ⟨script, hkept, hname⟩ hclaims
  refine ⟨?_, ?_, ?_, fun context => ?_⟩
  · rw [Scripts.has, KeyTable.contains, hnone]
    rfl
  · rw [Scripts.names, ← KeyTable.find?_isSome_iff, hnone]
    simp
  · rw [Scripts.codes, KeyTable.find?_mapValues, hnone]
    rfl
  · simp [Scripts.call, hnone]

end Names

/-- After any history the names of scripts are exactly those that the kept scripts claim: a
claimed name runs the source of a script that claims it, and no other name is left. -/
theorem names_after_history (hsteady : language.Steady) (state : language.State)
    (history : List Change) (name : String) :
    let c := Catalog.after { scripts := ⟨state, []⟩ } history
    (c.Claims name → c.Answers name) ∧ (¬ c.Claims name → c.Lacks name) := by
  have h := (consistent_empty state).after hsteady history
  exact ⟨answers_of_claims h, lacks_of_not_claims h⟩

theorem steady_program : Interpreter.Steady Program.language := by
  intro source dialect haccepts state codes name
  obtain ⟨state', codes', name', code, hcode⟩ := haccepts
  simp only [Program.language] at hcode ⊢
  split at hcode
  · cases hcode
  · next hgood => exact ⟨source, by rw [if_neg hgood]⟩

/-! ## A plugin that stays and one that goes -/

/-- The directory of a plugin that holds scripts only. -/
def scriptPlugin (name : String) (scripts : Directory) : String × FileTree := (name, .dir [
  ("descriptor.json",
    .file ("\x7b\"name\":\"" ++ name ++ "\",\"version\":\"1\"\x7d").toUTF8.toList),
  ("script", .dir scripts)])

def scriptDescriptor (name : String) : Descriptor :=
  ⟨name, none, "1", none, none, none, none, none, none⟩

/-- Two plugins, each with a script that says one word. -/
def servants : List (String × String) := [("butler", "bye"), ("maid", "hi")]

def servantFiles : Directory := servants.map (fun (name, word) =>
  scriptPlugin name [(word ++ ".lua", .file ("return '" ++ word ++ "'").toUTF8.toList)])

def servantPackage (servant : String × String) : Package :=
  ⟨servant.1, .json, scriptDescriptor servant.1, [(servant.1 ++ "." ++ servant.2,
    Script.make servant.1 [] (servant.2 ++ ".lua") .lua ("return '" ++ servant.2 ++ "'"))],
    [], [], []⟩

theorem read_servant : ∀ servant ∈ servants,
    Package.read servantFiles servant.1 = .ok (servantPackage servant) := by
  have hdescriptor : ∀ servant ∈ servants,
      readDescriptor servantFiles servant.1 = .ok (.json, scriptDescriptor servant.1) := by
    decide +kernel
  have hfile : ∀ servant ∈ servants,
      Files.entries? servantFiles (Files.under servant.1 "script") =
        some [(servant.2 ++ ".lua", .file ("return '" ++ servant.2 ++ "'").toUTF8.toList)] := by
    intro servant hservant
    fin_cases hservant <;> rfl
  have hdialect : ∀ servant ∈ servants, Dialect.ofPath (servant.2 ++ ".lua") = some .lua := by
    decide +kernel
  have hsource : ∀ servant ∈ servants,
      Text.ofBytes? ("return '" ++ servant.2 ++ "'").toUTF8.toList =
        some ("return '" ++ servant.2 ++ "'") := by decide +kernel
  have hother : ∀ servant ∈ servants, ∀ directory ∈ ["reply", "rulebook", "template"],
      Files.entries? servantFiles (Files.under servant.1 directory) = none := by decide +kernel
  have hqualified : ∀ servant ∈ servants,
      qualifiedName servant.1 [] (servant.2 ++ ".lua") = servant.1 ++ "." ++ servant.2 := by
    decide +kernel
  intro servant hservant
  have hread := read_of_file (hdescriptor servant hservant) (hfile servant hservant)
    (hdialect servant hservant) (hsource servant hservant) (hother servant hservant)
  rw [scriptDescriptor, hqualified servant hservant] at hread
  exact hread

/-- The butler is unloaded, and the maid stays when her files are gone. -/
def service : Catalog Program.language := Catalog.after { scripts := Program.start }
  [.load servantFiles "maid", .load servantFiles "butler", .reload [] "maid", .unload "butler"]

theorem service_eq : service =
    (Catalog.reload [] ((Catalog.load { scripts := Program.start }
      (servantPackage ("maid", "hi"))).1.load (servantPackage ("butler", "bye"))).1
        "maid").1.unload "butler" := by
  simp only [service, Catalog.after, List.foldl_cons, List.foldl_nil, Catalog.change,
    Catalog.loadPath]
  rw [read_servant ("maid", "hi") (by decide), read_servant ("butler", "bye") (by decide)]

theorem names_after_history_maid : Program.language.Steady ∧
    service.Claims "hi" ∧ service.Answers "hi" ∧
    ¬ service.Claims "bye" ∧ service.Lacks "bye" := by
  have hhi : claimants service.plugins "hi" ≠ [] := by
    rw [service_eq]
    decide +kernel
  have hbye : claimants service.plugins "bye" = [] := by
    rw [service_eq]
    decide +kernel
  have hclaims : service.Claims "hi" := by
    obtain ⟨script, hscript⟩ := List.exists_mem_of_ne_nil _ hhi
    exact ⟨script, mem_claimants.mp hscript⟩
  have hgone : ¬ service.Claims "bye" := by
    rintro ⟨script, hscript⟩
    rw [← mem_claimants, hbye] at hscript
    cases hscript
  exact ⟨steady_program, hclaims, (names_after_history steady_program [] _ "hi").1 hclaims, hgone,
    (names_after_history steady_program [] _ "bye").2 hgone⟩

end DiceHost.Plugin
