import DiceHost.Plugin.Catalog
import DiceHost.Proofs.KeyTable

/-! # The scripts that the plugins keep

A name has an owner when some kept script claims it, and the owner is such a script. What
is kept follows the plugins: a plugin that goes takes its scripts with it, and a new one
brings its own.
-/
namespace DiceHost.Plugin
open DiceHost.Script

/-- The script was accepted from this plugin. -/
def Loaded.Keeps (plugin : Loaded) (script : Script) : Prop := ∃ key, (key, script) ∈ plugin.scripts

/-- The script was accepted from some plugin. -/
def Kept (plugins : KeyTable Loaded) (script : Script) : Prop :=
  ∃ owner plugin, (owner, plugin) ∈ plugins ∧ plugin.Keeps script

theorem mem_claimants {plugins : KeyTable Loaded} {name : String} {script : Script} :
    script ∈ claimants plugins name ↔ Kept plugins script ∧ name ∈ script.names := by
  simp only [claimants, List.mem_flatMap, List.mem_filterMap, Prod.exists,
    Option.ite_none_right_eq_some, Option.some.injEq, List.contains_iff_mem]
  constructor
  · rintro ⟨owner, plugin, hplugin, key, found, hfound, hname, rfl⟩
    exact ⟨⟨owner, plugin, hplugin, key, hfound⟩, hname⟩
  · rintro ⟨⟨owner, plugin, hplugin, key, hkey⟩, hname⟩
    exact ⟨owner, plugin, hplugin, key, script, hkey, hname, rfl⟩

/-- The owner of a name is kept and claims it. -/
theorem claims_of_owner? {plugins : KeyTable Loaded} {name : String} {script : Script}
    (h : owner? plugins name = some script) : Kept plugins script ∧ name ∈ script.names := by
  unfold owner? at h
  rw [← mem_claimants]
  rcases Option.or_eq_some_iff.mp h with hfirst | ⟨-, hhead⟩
  · exact List.mem_of_find?_eq_some hfirst
  · exact List.mem_of_head? hhead

theorem owner?_eq_none {plugins : KeyTable Loaded} {name : String}
    (h : owner? plugins name = none) {script : Script} (hkept : Kept plugins script) :
    name ∉ script.names := by
  intro hname
  have hmem := mem_claimants.mpr ⟨hkept, hname⟩
  obtain ⟨-, hhead⟩ := Option.or_eq_none_iff.mp h
  rw [List.head?_eq_none_iff.mp hhead] at hmem
  cases hmem

section Ordered
variable {plugins : KeyTable Loaded} (hordered : KeyTable.Ordered plugins) {name : String}
include hordered

/-- When a plugin goes, the scripts of the others stay. -/
theorem kept_iff_erase {plugin : Loaded} (h : KeyTable.find? plugins name = some plugin)
    (script : Script) : Kept plugins script ↔
      Kept (KeyTable.erase plugins name) script ∨ plugin.Keeps script := by
  constructor
  · rintro ⟨owner, found, hmem, hkeeps⟩
    by_cases howner : owner = name
    · subst howner
      have hfound := hordered.find?_eq_some hmem
      rw [h] at hfound
      cases hfound
      exact Or.inr hkeeps
    · exact Or.inl ⟨owner, found, KeyTable.mem_erase.mpr ⟨hmem, howner⟩, hkeeps⟩
  · rintro (⟨owner, found, hmem, hkeeps⟩ | hkeeps)
    · exact ⟨owner, found, (KeyTable.mem_erase.mp hmem).1, hkeeps⟩
    · exact ⟨name, plugin, KeyTable.mem_of_find? h, hkeeps⟩

/-- A plugin under a new name adds its scripts. -/
theorem kept_insert (h : KeyTable.find? plugins name = none) (plugin : Loaded)
    (script : Script) : Kept (KeyTable.insert name plugin plugins) script ↔
      Kept plugins script ∨ plugin.Keeps script := by
  constructor
  · rintro ⟨owner, found, hmem, hkeeps⟩
    rcases KeyTable.mem_insert hmem with heq | hmem
    · cases heq
      exact Or.inr hkeeps
    · exact Or.inl ⟨owner, found, hmem, hkeeps⟩
  · rintro (⟨owner, found, hmem, hkeeps⟩ | hkeeps)
    · have hfound := hordered.find?_eq_some hmem
      have hne : owner ≠ name := by
        rintro rfl
        rw [h] at hfound
        cases hfound
      have hinsert : KeyTable.find? (KeyTable.insert name plugin plugins) owner = some found := by
        rw [KeyTable.find?_insert_of_ne hne, hfound]
      exact ⟨owner, found, KeyTable.mem_of_find? hinsert, hkeeps⟩
    · exact ⟨name, plugin, KeyTable.mem_of_find? (KeyTable.find?_insert_self name plugin plugins),
        hkeeps⟩

end Ordered
end DiceHost.Plugin
