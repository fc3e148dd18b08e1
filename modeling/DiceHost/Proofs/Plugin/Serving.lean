import DiceHost.Proofs.Plugin.Owner
import DiceHost.Proofs.Script.Loading

/-! # Names while plugins come and go

Releasing a name makes it served by the plugins that are left, and touches no other name.
Loading the scripts of a package keeps every name served, by what was kept before and by
the scripts accepted so far.
-/
namespace DiceHost.Plugin
open DiceHost.Script
variable {language : Interpreter} {plugins : KeyTable Loaded}

/-! ## Releasing names -/

theorem find?_release_of_ne {scripts : Scripts language} {name other : String}
    (hne : other ≠ name) : KeyTable.find? (release plugins scripts name).loaded other =
      KeyTable.find? scripts.loaded other := by
  unfold release
  split
  · rw [find?_unload, if_neg hne]
  · split
    · next script hload => exact Scripts.find?_of_load_ok_of_ne hload hne
    · next script hload => rw [find?_unload, if_neg hne, loaded_of_load_error hload]

theorem serves_release (hsteady : language.Steady)
    (haccepted : ∀ script, Kept plugins script → language.Accepts script.source script.dialect)
    (scripts : Scripts language) (name : String) :
    (release plugins scripts name).Serves (Kept plugins) name := by
  unfold release
  cases howner : owner? plugins name with
  | none => exact Scripts.serves_unload (fun _ hkept => owner?_eq_none howner hkept)
  | some script =>
    obtain ⟨hkept, hname⟩ := claims_of_owner? howner
    obtain ⟨loaded, hload⟩ := exists_load_ok hsteady (haccepted script hkept) scripts name
    dsimp only
    rw [hload]
    exact Scripts.serves_of_load_ok hload hkept hname

theorem find?_releaseAll_of_notMem (plugins : KeyTable Loaded) {names : List String}
    (scripts : Scripts language) {other : String} (h : other ∉ names) :
    KeyTable.find? (names.foldl (release plugins) scripts).loaded other =
      KeyTable.find? scripts.loaded other := by
  induction names generalizing scripts with
  | nil => rfl
  | cons name rest ih =>
    rw [List.mem_cons, not_or] at h
    rw [List.foldl_cons, ih _ h.2, find?_release_of_ne h.1]

/-- A name that is given back ends as if it were given back last. -/
theorem find?_releaseAll_of_mem (plugins : KeyTable Loaded) {names : List String}
    (scripts : Scripts language) {name : String} (h : name ∈ names) :
    ∃ before, KeyTable.find? (names.foldl (release plugins) scripts).loaded name =
      KeyTable.find? (release plugins before name).loaded name := by
  induction names generalizing scripts with
  | nil => cases h
  | cons first rest ih =>
    rw [List.foldl_cons]
    by_cases hrest : name ∈ rest
    · exact ih (release plugins scripts first) hrest
    · have hfirst : name = first := (List.mem_cons.mp h).resolve_right hrest
      subst hfirst
      exact ⟨scripts, find?_releaseAll_of_notMem plugins _ hrest⟩

theorem serves_releaseAll (hsteady : language.Steady)
    (haccepted : ∀ script, Kept plugins script → language.Accepts script.source script.dialect)
    {names : List String} (scripts : Scripts language) {name : String} (h : name ∈ names) :
    (names.foldl (release plugins) scripts).Serves (Kept plugins) name := by
  obtain ⟨before, hbefore⟩ := find?_releaseAll_of_mem plugins scripts h
  exact (serves_release hsteady haccepted before name).of_find?_eq hbefore

/-! ## Loading scripts -/

section Load
variable {scripts scripts' : Scripts language} {kept : Script → Prop} {script : Script}

/-- A script that is refused changes no name. -/
theorem loaded_of_refused (h : loadScript plugins scripts script = (scripts', false)) :
    scripts'.loaded = scripts.loaded := by
  unfold loadScript at h
  split at h
  · next hload =>
    cases h
    exact loaded_of_load_error hload
  · split at h
    · split at h <;> cases h
    · cases h

theorem accepts_of_accepted (h : loadScript plugins scripts script = (scripts', true)) :
    language.Accepts script.source script.dialect := by
  unfold loadScript at h
  split at h
  · cases h
  · next hload => exact accepts_of_load_ok hload

/-- The qualified name is bound to the script, and nothing else is changed. -/
theorem serves_of_qualified {name : String}
    (hload : scripts.load script.qualified script.source script.dialect = (scripts', .ok ()))
    (hserves : scripts.Serves kept name)
    (hclaim : name ∈ script.short → ∃ owner, kept owner ∧ name ∈ owner.names) :
    scripts'.Serves (fun s => kept s ∨ s = script) name := by
  by_cases hname : name = script.qualified
  · subst hname
    exact Scripts.serves_of_load_ok hload (Or.inr rfl) List.mem_cons_self
  · have hold := hserves.of_find?_eq (Scripts.find?_of_load_ok_of_ne hload hname)
    refine hold.of_claims (fun _ hkept _ => Or.inl hkept) ?_
    rintro owner (hkept | rfl) hmem
    · exact ⟨owner, hkept, hmem⟩
    · have hshort : name ∈ owner.short.toList := (List.mem_cons.mp hmem).resolve_left hname
      exact hclaim (Option.mem_toList.mp hshort)

/-- An accepted script serves its names, except a short name that another script has. -/
theorem serves_of_accepted (hsteady : language.Steady)
    (hplugins : ∀ s, Kept plugins s → kept s) (hserves : ∀ name, scripts.Serves kept name)
    (h : loadScript plugins scripts script = (scripts', true)) (name : String) :
    scripts'.Serves (fun s => kept s ∨ s = script) name := by
  have haccepts := accepts_of_accepted h
  unfold loadScript at h
  split at h
  · cases h
  · next loaded hload =>
    cases hshort : script.short with
    | none =>
      simp only [hshort, Prod.mk.injEq, and_true] at h
      subst h
      exact serves_of_qualified hload (hserves name) (by simp [hshort])
    | some short =>
      simp only [hshort] at h
      split at h
      · next howner =>
        simp only [Prod.mk.injEq, and_true] at h
        subst h
        refine serves_of_qualified hload (hserves name) (fun hname => ?_)
        rw [hshort, Option.mem_some_iff] at hname
        subst hname
        obtain ⟨owner, howner⟩ := Option.isSome_iff_exists.mp howner
        obtain ⟨hkept, hclaim⟩ := claims_of_owner? howner
        exact ⟨owner, hplugins owner hkept, hclaim⟩
      · obtain ⟨loaded', hload'⟩ := exists_load_ok hsteady haccepts loaded short
        simp only [hload', Prod.mk.injEq, and_true] at h
        subst h
        by_cases hname : name = short
        · subst hname
          refine Scripts.serves_of_load_ok hload' (Or.inr rfl) ?_
          simp [Script.names, hshort]
        · have hold := serves_of_qualified hload (hserves name) (by simp [hshort, Ne.symm hname])
          exact hold.of_find?_eq (Scripts.find?_of_load_ok_of_ne hload' hname)

end Load

/-- Every script that a package keeps is accepted. -/
theorem accepts_of_kept {entries : KeyTable Script} {scripts : Scripts language} {key : String}
    {script : Script} (h : (key, script) ∈ (loadScripts plugins entries scripts).2) :
    language.Accepts script.source script.dialect := by
  induction entries generalizing scripts with
  | nil => cases h
  | cons entry rest ih =>
    obtain ⟨name, first⟩ := entry
    cases hload : loadScript plugins scripts first with
    | mk loaded accepted =>
      simp only [loadScripts, hload] at h
      cases accepted with
      | false => exact ih h
      | true =>
        rcases List.mem_cons.mp h with heq | h
        · cases heq
          exact accepts_of_accepted hload
        · exact ih h

/-- Loading the scripts of a package keeps every name served. -/
theorem serves_loadScripts (hsteady : language.Steady) (entries : KeyTable Script)
    {scripts : Scripts language} {kept : Script → Prop} (hplugins : ∀ s, Kept plugins s → kept s)
    (hserves : ∀ name, scripts.Serves kept name) (name : String) :
    (loadScripts plugins entries scripts).1.Serves
      (fun s => kept s ∨ ∃ key, (key, s) ∈ (loadScripts plugins entries scripts).2) name := by
  induction entries generalizing scripts kept with
  | nil => simpa [loadScripts] using hserves name
  | cons entry rest ih =>
    obtain ⟨key, first⟩ := entry
    cases hload : loadScript plugins scripts first with
    | mk loaded accepted =>
      simp only [loadScripts, hload]
      cases accepted with
      | false =>
        have hloaded := loaded_of_refused hload
        exact ih hplugins (fun other => (hserves other).of_find?_eq (by rw [hloaded]))
      | true =>
        have hplugins' : ∀ s, Kept plugins s → kept s ∨ s = first :=
          fun s hs => Or.inl (hplugins s hs)
        have hnext := ih hplugins' (serves_of_accepted hsteady hplugins hserves hload)
        refine hnext.of_claims ?_ ?_
        · rintro s ((hs | rfl) | ⟨other, hs⟩) -
          · exact Or.inl hs
          · exact Or.inr ⟨key, List.mem_cons_self⟩
          · exact Or.inr ⟨other, List.mem_cons_of_mem _ hs⟩
        · rintro s (hs | ⟨other, hs⟩) hname
          · exact ⟨s, Or.inl (Or.inl hs), hname⟩
          · rcases List.mem_cons.mp hs with heq | hs
            · cases heq
              exact ⟨first, Or.inl (Or.inr rfl), hname⟩
            · exact ⟨s, Or.inr ⟨other, hs⟩, hname⟩

end DiceHost.Plugin
