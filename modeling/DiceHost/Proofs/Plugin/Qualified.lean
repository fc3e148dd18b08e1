import DiceHost.Proofs.Plugin.Handover

/-! # Qualified names

A script answers to its qualified name before any other script that has this name as its short
name. The rule holds between plugins and whenever a plugin goes. Inside one package the scripts
are loaded in the order of their qualified names and only the other plugins are asked, so a
script further back takes the qualified name of one before it.
-/
namespace DiceHost.Plugin
open DiceHost.Script
variable {language : Interpreter} {plugins : KeyTable Loaded}

/-- The owner of a qualified name has it as its qualified name. -/
theorem qualified_of_owner? {name : String} {script other : Script}
    (h : owner? plugins name = some script) (hkept : Kept plugins other)
    (hname : other.qualified = name) : script.qualified = name := by
  have hmem : other ∈ claimants plugins name := by
    refine mem_claimants.mpr ⟨hkept, ?_⟩
    rw [← hname]
    exact List.mem_cons_self
  unfold owner? at h
  rcases Option.or_eq_some_iff.mp h with hfirst | ⟨hnone, -⟩
  · have hqualified := List.find?_some hfirst
    simpa using hqualified
  · have hother := List.find?_eq_none.mp hnone other hmem
    simp [hname] at hother

/-! ## Scripts of one package -/

section Package
variable {scripts scripts' : Scripts language} {script : Script}

/-- What one accepted script does to a name: nothing, or it takes the name; a short name only if
no other plugin has it. -/
theorem binding_of_accepted (h : loadScript plugins scripts script = (scripts', true))
    (name : String) :
    (script.qualified ≠ name ∧
      KeyTable.find? scripts'.loaded name = KeyTable.find? scripts.loaded name) ∨
    (Binds scripts' name script ∧ (script.qualified = name ∨
      (script.short = some name ∧ owner? plugins name = none))) := by
  unfold loadScript at h
  split at h
  · cases h
  · next loaded hload =>
    -- the qualified name is taken in any case; the short name is looked at afterwards
    have hqualified : (script.qualified ≠ name ∧
        KeyTable.find? loaded.loaded name = KeyTable.find? scripts.loaded name) ∨
        (Binds loaded name script ∧ script.qualified = name) := by
      by_cases hname : script.qualified = name
      · subst hname
        exact Or.inr ⟨binds_of_load_ok hload, rfl⟩
      · exact Or.inl ⟨hname, Scripts.find?_of_load_ok_of_ne hload (Ne.symm hname)⟩
    have hsame (hfind : KeyTable.find? scripts'.loaded name = KeyTable.find? loaded.loaded name) :
        (script.qualified ≠ name ∧
          KeyTable.find? scripts'.loaded name = KeyTable.find? scripts.loaded name) ∨
        (Binds scripts' name script ∧ (script.qualified = name ∨
          (script.short = some name ∧ owner? plugins name = none))) := by
      rcases hqualified with ⟨hne, hold⟩ | ⟨hbinds, heq⟩
      · exact Or.inl ⟨hne, hfind.trans hold⟩
      · exact Or.inr ⟨hbinds.of_find?_eq hfind, Or.inl heq⟩
    cases hshort : script.short with
    | none =>
      simp only [hshort, Prod.mk.injEq, and_true] at h
      subst h
      simpa [hshort] using hsame rfl
    | some short =>
      simp only [hshort] at h
      rw [hshort] at hsame
      split at h
      · simp only [Prod.mk.injEq, and_true] at h
        subst h
        exact hsame rfl
      · next hfree =>
        simp only [Prod.mk.injEq, and_true] at h
        cases hagain : loaded.load short script.source script.dialect with
        | mk loaded' outcome =>
          rw [hagain] at h
          subst h
          cases outcome with
          | error failure => exact hsame (by rw [loaded_of_load_error hagain])
          | ok =>
            by_cases hname : name = short
            · subst hname
              have hnone : owner? plugins name = none := by simpa using hfree
              exact Or.inr ⟨binds_of_load_ok hagain, Or.inr ⟨rfl, hnone⟩⟩
            · exact hsame (Scripts.find?_of_load_ok_of_ne hagain hname)

theorem mem_of_kept {entries : KeyTable Script} {entry : String × Script}
    (h : entry ∈ (loadScripts plugins entries scripts).2) : entry ∈ entries := by
  induction entries generalizing scripts with
  | nil => exact h
  | cons first rest ih =>
    obtain ⟨key, script⟩ := first
    simp only [loadScripts] at h
    split at h
    · rcases List.mem_cons.mp h with heq | h
      · exact heq ▸ List.mem_cons_self
      · exact List.mem_cons_of_mem _ (ih h)
    · exact List.mem_cons_of_mem _ (ih h)

variable (plugins) in
/-- What the scripts of a package do to a name: nothing, if none of them has it as its qualified
name, or one of them takes it. One that takes it as its short name stands behind every script of
the package that has it as its qualified name. -/
theorem binding_of_loadScripts {entries : KeyTable Script} (h : Filed entries)
    (scripts : Scripts language) (name : String) :
    (KeyTable.find? (loadScripts plugins entries scripts).1.loaded name =
        KeyTable.find? scripts.loaded name ∧
      ∀ key script, (key, script) ∈ (loadScripts plugins entries scripts).2 →
        script.qualified ≠ name) ∨
    ∃ key script, (key, script) ∈ (loadScripts plugins entries scripts).2 ∧
      Binds (loadScripts plugins entries scripts).1 name script ∧
      (script.qualified = name ∨ (script.short = some name ∧ owner? plugins name = none ∧
        ∀ other sibling, (other, sibling) ∈ (loadScripts plugins entries scripts).2 →
          sibling.qualified = name → name < script.qualified)) := by
  induction entries generalizing scripts with
  | nil =>
    refine Or.inl ⟨rfl, ?_⟩
    intro key script hmem
    cases hmem
  | cons entry rest ih =>
    obtain ⟨key, first⟩ := entry
    cases hload : loadScript plugins scripts first with
    | mk loaded accepted =>
      simp only [loadScripts, hload]
      have hrest := ih h.tail loaded
      cases accepted with
      | false =>
        have hloaded := loaded_of_refused hload
        rw [hloaded] at hrest
        simpa using hrest
      | true =>
        simp only [if_true]
        -- what the later scripts do stays; where they do nothing, the first one decides
        rcases hrest with ⟨hsame, hnone⟩ | ⟨other, script, hmem, hbinds, hright⟩
        · rcases binding_of_accepted hload name with ⟨hne, hold⟩ | ⟨hbinds, hright⟩
          · refine Or.inl ⟨hsame.trans hold, ?_⟩
            intro other script hmem
            rcases List.mem_cons.mp hmem with heq | hmem
            · cases heq
              exact hne
            · exact hnone other script hmem
          · refine Or.inr ⟨key, first, List.mem_cons_self, hbinds.of_find?_eq hsame, ?_⟩
            by_cases hname : first.qualified = name
            · exact Or.inl hname
            · obtain ⟨hshort, hfree⟩ := hright.resolve_left hname
              refine Or.inr ⟨hshort, hfree, ?_⟩
              intro other sibling hmem hsibling
              rcases List.mem_cons.mp hmem with heq | hmem
              · cases heq
                exact absurd hsibling hname
              · exact absurd hsibling (hnone other sibling hmem)
        · refine Or.inr ⟨other, script, List.mem_cons_of_mem _ hmem, hbinds, ?_⟩
          rcases hright with hname | ⟨hshort, hfree, hbehind⟩
          · exact Or.inl hname
          · refine Or.inr ⟨hshort, hfree, ?_⟩
            intro key' sibling hmem' hsibling
            rcases List.mem_cons.mp hmem' with heq | hmem'
            · cases heq
              -- the files stand in the order of their names, so a later script has a greater one
              have hlt := h.lt_of_cons (mem_of_kept hmem)
              rwa [hsibling] at hlt
            · exact hbehind key' sibling hmem' hsibling

end Package

/-! ## Who may have a qualified name -/

/-- The script has the name as its short name and stands behind a script of its own plugin that
has it as its qualified name. -/
def Overtakes (plugins : KeyTable Loaded) (name : String) (script : Script) : Prop :=
  script.short = some name ∧ ∃ owner plugin sibling, (owner, plugin) ∈ plugins ∧
    plugin.Keeps script ∧ plugin.Keeps sibling ∧ sibling.qualified = name ∧
    name < script.qualified

/-- A kept script that may answer to a qualified name. -/
def HasRight (plugins : KeyTable Loaded) (name : String) (script : Script) : Prop :=
  Kept plugins script ∧ (script.qualified = name ∨ Overtakes plugins name script)

/-- Every qualified name of a kept script is bound to a script that may answer to it. -/
def Catalog.Respects (c : Catalog language) : Prop :=
  ∀ sibling, Kept c.plugins sibling → ∃ script, HasRight c.plugins sibling.qualified script ∧
    Binds c.scripts sibling.qualified script

theorem HasRight.mem_names {name : String} {script : Script}
    (h : HasRight plugins name script) : name ∈ script.names := by
  rcases h.2 with heq | ⟨hshort, -⟩
  · rw [← heq]
    exact List.mem_cons_self
  · simp [Script.names, hshort]

theorem respects_empty (state : language.State) :
    Catalog.Respects { scripts := ⟨state, []⟩ } := by
  rintro sibling ⟨owner, plugin, hmem, -⟩
  cases hmem

/-- A right holds on when a plugin goes that does not claim the name. -/
theorem HasRight.erase {name gone : String} {script : Script} {plugin : Loaded}
    (h : HasRight plugins name script) (hordered : KeyTable.Ordered plugins)
    (hplugin : KeyTable.find? plugins gone = some plugin)
    (hclaim : ∀ other, plugin.Keeps other → name ∉ other.names) :
    HasRight (KeyTable.erase plugins gone) name script := by
  have hforeign : ¬ plugin.Keeps script := fun hkeeps => hclaim script hkeeps h.mem_names
  obtain ⟨hkept, hright⟩ := h
  have hleft := ((kept_iff_erase hordered hplugin script).mp hkept).resolve_right hforeign
  refine ⟨hleft, hright.imp_right ?_⟩
  rintro ⟨hshort, owner, found, sibling, hmem, hkeeps, hsibling, hname, hlt⟩
  refine ⟨hshort, owner, found, sibling, KeyTable.mem_erase.mpr ⟨hmem, ?_⟩, hkeeps, hsibling,
    hname, hlt⟩
  rintro rfl
  have hfound := hordered.find?_eq_some hmem
  rw [hplugin] at hfound
  cases hfound
  exact hforeign hkeeps

/-- A right holds on when a plugin comes. -/
theorem HasRight.insert {name new : String} {script : Script} {plugin : Loaded}
    (h : HasRight plugins name script) (hordered : KeyTable.Ordered plugins)
    (hnew : KeyTable.find? plugins new = none) :
    HasRight (KeyTable.insert new plugin plugins) name script := by
  obtain ⟨hkept, hright⟩ := h
  refine ⟨(kept_insert hordered hnew plugin script).mpr (Or.inl hkept), hright.imp_right ?_⟩
  rintro ⟨hshort, owner, found, sibling, hmem, hrest⟩
  refine ⟨hshort, owner, found, sibling, ?_, hrest⟩
  have hne : owner ≠ new := by
    rintro rfl
    rw [hordered.find?_eq_some hmem] at hnew
    cases hnew
  refine KeyTable.mem_of_find? ?_
  rw [KeyTable.find?_insert_of_ne hne, hordered.find?_eq_some hmem]

namespace Catalog.Respects
variable {c : Catalog language}

theorem unload (h : c.Respects) (hconsistent : c.Consistent) (hsteady : language.Steady)
    (name : String) : (c.unload name).Respects := by
  cases hplugin : c.plugin? name with
  | none =>
    rw [Catalog.plugin?] at hplugin
    rw [Catalog.unload, hplugin]
    exact h
  | some plugin =>
    have hplugins := plugins_unload hplugin
    intro sibling hkept
    by_cases hclaimed : ∃ other, plugin.Keeps other ∧ sibling.qualified ∈ other.names
    · obtain ⟨other, hkeeps, hname⟩ := hclaimed
      cases howner : owner? (c.unload name).plugins sibling.qualified with
      | none => exact absurd List.mem_cons_self (owner?_eq_none howner hkept)
      | some script =>
        have hright : HasRight (c.unload name).plugins sibling.qualified script :=
          ⟨(claims_of_owner? howner).1, Or.inl (qualified_of_owner? howner hkept rfl)⟩
        exact ⟨script, hright,
          binds_unload_of_claimed hplugin hconsistent hsteady hkeeps hname howner⟩
    · have hunclaimed : ∀ other, plugin.Keeps other → sibling.qualified ∉ other.names :=
        fun other hkeeps hname => hclaimed ⟨other, hkeeps, hname⟩
      rw [hplugins] at hkept ⊢
      have hold := (kept_iff_erase hconsistent.ordered hplugin sibling).mpr (Or.inl hkept)
      obtain ⟨script, hright, hbinds⟩ := h sibling hold
      exact ⟨script, hright.erase hconsistent.ordered hplugin hunclaimed,
        hbinds.of_find?_eq (find?_unload_of_not_claimed hplugin hunclaimed)⟩

theorem add (h : c.Respects) (hconsistent : c.Consistent) {package : Package}
    (hfiled : Filed package.scripts)
    (hnew : KeyTable.find? c.plugins package.descriptor.name = none) :
    (c.add package).1.Respects := by
  let kept := (loadScripts c.plugins package.scripts c.scripts).2
  have hkept := kept_insert hconsistent.ordered hnew (package.loaded kept)
  intro sibling hsibling
  rcases binding_of_loadScripts c.plugins hfiled c.scripts sibling.qualified with
    ⟨hsame, hnone⟩ | ⟨key, script, hmem, hbinds, hright⟩
  · -- the package does not have the name, so whoever had it has it still
    have hold : Kept c.plugins sibling := by
      refine ((hkept sibling).mp hsibling).resolve_right ?_
      rintro ⟨key, hmem⟩
      exact hnone key sibling hmem rfl
    obtain ⟨script, hright, hbinds⟩ := h sibling hold
    exact ⟨script, hright.insert hconsistent.ordered hnew, hbinds.of_find?_eq hsame⟩
  · have hkeeps : (package.loaded kept).Keeps script := ⟨key, hmem⟩
    refine ⟨script, ⟨(hkept script).mpr (Or.inr hkeeps), hright.imp_right ?_⟩, hbinds⟩
    rintro ⟨hshort, hfree, hbehind⟩
    -- a short name is only taken from scripts of the same package
    have hown : (package.loaded kept).Keeps sibling := by
      refine ((hkept sibling).mp hsibling).resolve_left (fun hother => ?_)
      exact owner?_eq_none hfree hother List.mem_cons_self
    obtain ⟨other, hother⟩ := hown
    exact ⟨hshort, package.descriptor.name, package.loaded kept, sibling,
      KeyTable.mem_of_find? (KeyTable.find?_insert_self _ _ _), hkeeps, ⟨other, hother⟩, rfl,
      hbehind other sibling hother rfl⟩

end Catalog.Respects

theorem Catalog.Reached.respects {c : Catalog language} (h : c.Reached)
    (hsteady : language.Steady) : c.Respects := by
  obtain ⟨state, history, rfl⟩ := h
  have hboth : (Catalog.after { scripts := ⟨state, []⟩ } history : Catalog language).Consistent ∧
      (Catalog.after { scripts := ⟨state, []⟩ } history : Catalog language).Respects := by
    refine Catalog.after_induction (motive := fun c => c.Consistent ∧ c.Respects) ?_ ?_
      ⟨consistent_empty state, respects_empty state⟩ history
    · rintro c name ⟨hconsistent, hrespects⟩
      exact ⟨hconsistent.unload hsteady name, hrespects.unload hconsistent hsteady name⟩
    · rintro c root path package ⟨hconsistent, hrespects⟩ hread hnew
      exact ⟨hconsistent.add hsteady hnew, hrespects.add hconsistent (filed_of_read hread) hnew⟩
  exact hboth.2

/-- After any history the qualified name of a kept script runs a kept script that has it as its
qualified name, or one further back in the same package that has it as its short name. -/
theorem runs_qualified (hsteady : language.Steady) {c : Catalog language} (hreached : c.Reached)
    {sibling : Script} (hkept : Kept c.plugins sibling) :
    ∃ script, Kept c.plugins script ∧ c.Runs sibling.qualified script ∧
      (script.qualified = sibling.qualified ∨
        Overtakes c.plugins sibling.qualified script) := by
  obtain ⟨script, ⟨hscript, hright⟩, hbinds⟩ := hreached.respects hsteady sibling hkept
  exact ⟨script, hscript, hbinds.runs, hright⟩

/-! ## A package that takes a name from itself -/

/-- The files of a plugin `m` with the scripts `m.a` and `m.m.a`. -/
def nestedFiles : Directory := [scriptPlugin "m" [("a.lua", .file "whole".toUTF8.toList),
  ("m", .dir [("a.lua", .file "nested".toUTF8.toList)])]]

def nestedPackage : Package := ⟨"m", .json, scriptDescriptor "m",
  [("m.a", Script.make "m" [] "a.lua" .lua "whole"),
    ("m.m.a", Script.make "m" ["m"] "a.lua" .lua "nested")], [], [], []⟩

theorem read_nested : Package.read nestedFiles "m" = .ok nestedPackage := by
  have hdescriptor : readDescriptor nestedFiles "m" = .ok (.json, scriptDescriptor "m") := by
    decide +kernel
  have hentries : Files.entries? nestedFiles (Files.under "m" "script") =
      some [("a.lua", .file "whole".toUTF8.toList),
        ("m", .dir [("a.lua", .file "nested".toUTF8.toList)])] := rfl
  have hother : ∀ directory ∈ ["reply", "rulebook", "template"],
      Files.entries? nestedFiles (Files.under "m" directory) = none := by
    intro directory hdirectory
    fin_cases hdirectory <;> rfl
  have hdialect : Dialect.ofPath "a.lua" = some .lua := by decide +kernel
  have hwhole : Text.ofBytes? "whole".toUTF8.toList = some "whole" := by decide +kernel
  have hnested : Text.ofBytes? "nested".toUTF8.toList = some "nested" := by decide +kernel
  have hshallow : qualifiedName "m" [] "a.lua" = "m.a" := by decide +kernel
  have hdeep : qualifiedName "m" ["m"] "a.lua" = "m.m.a" := by decide +kernel
  refine read_of_scripts hdescriptor ?_ hother
  rw [scanDirectory, hentries]
  simp only [Scan.entries, scriptDescriptor, List.nil_append]
  rw [scripts_file hdialect hnested, scripts_file hdialect hwhole, hshallow, hdeep]
  rfl

def nested : Catalog Program.language :=
  Catalog.after { scripts := Program.start } [.load nestedFiles "m"]

theorem nested_eq : nested = (Catalog.load { scripts := Program.start } nestedPackage).1 := by
  simp only [nested, Catalog.after, List.foldl_cons, List.foldl_nil, Catalog.change,
    Catalog.loadPath]
  rw [read_nested]

theorem claimants_nested : (claimants nested.plugins "m.a").map
    (fun script => (script.qualified, script.source)) =
      [("m.a", "whole"), ("m.m.a", "nested")] := by
  rw [nested_eq]
  decide +kernel

theorem kept_nested : ∃ script, Kept nested.plugins script ∧ script.qualified = "m.a" := by
  have hmem : ("m.a", "whole") ∈ (claimants nested.plugins "m.a").map
      (fun script => (script.qualified, script.source)) := by
    rw [claimants_nested]
    exact List.mem_cons_self
  obtain ⟨script, hscript, heq⟩ := List.mem_map.mp hmem
  exact ⟨script, (mem_claimants.mp hscript).1, (Prod.mk.inj heq).1⟩

theorem runs_qualified_nested : ∃ sibling, Kept nested.plugins sibling ∧
    sibling.qualified = "m.a" ∧ ∃ script, Kept nested.plugins script ∧
      nested.Runs sibling.qualified script ∧
      (script.qualified = sibling.qualified ∨
        Overtakes nested.plugins sibling.qualified script) := by
  obtain ⟨sibling, hkept, hname⟩ := kept_nested
  exact ⟨sibling, hkept, hname, runs_qualified steady_program ⟨[], _, rfl⟩ hkept⟩

/-- The name `m.a` runs the script `m.m.a`, and not the script of this qualified name. -/
theorem nested_takes_qualified : nested.Reached ∧
    (∃ script, Kept nested.plugins script ∧ script.qualified = "m.a") ∧
    ¬ ∃ script, Kept nested.plugins script ∧ script.qualified = "m.a" ∧
      nested.Runs "m.a" script := by
  refine ⟨⟨[], _, rfl⟩, kept_nested, ?_⟩
  rintro ⟨script, hkept, hname, hruns⟩
  have hfound : (show Option String from KeyTable.find? nested.scripts.codes "m.a") =
      some "nested" := by
    rw [nested_eq]
    decide +kernel
  have hsource : script.source = "whole" := by
    have hmem : (script.qualified, script.source) ∈ (claimants nested.plugins "m.a").map
        (fun script => (script.qualified, script.source)) := by
      refine List.mem_map.mpr ⟨script, mem_claimants.mpr ⟨hkept, ?_⟩, rfl⟩
      rw [← hname]
      exact List.mem_cons_self
    rw [claimants_nested, hname] at hmem
    simpa using hmem
  obtain ⟨code, hcode, ⟨state, codes, hmade⟩, -⟩ := hruns
  have hgood : Text.startsWith "!bad" "whole" = false := by decide +kernel
  simp only [Program.language, hsource, hgood, Bool.false_eq_true, if_false] at hmade
  rw [show code = ("nested" : String) from Option.some.inj (hcode.symm.trans hfound)] at hmade
  exact absurd (Except.ok.inj hmade) (by decide)

end DiceHost.Plugin
