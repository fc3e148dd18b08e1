import DiceHost.Proofs.KeyTable
import DiceHost.Script.Interpreter

/-! # Loading and forgetting names

An interpreter is steady when it accepts a source always or never. A name is then served
by a set of scripts when it is bound to one of them that claims it, or when none claims it.
-/
namespace DiceHost.Script
variable {language : Interpreter}

/-! ## What an interpreter accepts -/

/-- The source is accepted in some state, under some name. -/
def Interpreter.Accepts (language : Interpreter) (source : String) (dialect : Dialect) : Prop :=
  ∃ state codes name code, (language.compile state codes name source dialect).2 = .ok code

/-- Whether a source is accepted depends on the source and its dialect only. -/
def Interpreter.Steady (language : Interpreter) : Prop :=
  ∀ source dialect, language.Accepts source dialect → ∀ state codes name, ∃ code,
    (language.compile state codes name source dialect).2 = .ok code

/-- The code was made from this script under this name. -/
structure Compiled.MadeFrom (compiled : Compiled language) (name : String) (script : Script) :
    Prop where
  source : compiled.source = script.source
  dialect : compiled.dialect = script.dialect
  code : ∃ state codes,
    (language.compile state codes name script.source script.dialect).2 = .ok compiled.code

/-! ## One name -/

section Load
variable {scripts loaded : Scripts language} {name other : String} {script : Script}

theorem find?_of_load_ok (h : scripts.load name script.source script.dialect = (loaded, .ok ())) :
    ∃ compiled : Compiled language, compiled.MadeFrom name script ∧
      ∀ other, KeyTable.find? loaded.loaded other =
        if other = name then some compiled else KeyTable.find? scripts.loaded other := by
  unfold Scripts.load at h
  split at h
  · next state code hcode =>
    cases h
    refine ⟨⟨script.source, script.dialect, code⟩, ⟨rfl, rfl, _, _, by rw [hcode]⟩, ?_⟩
    intro other
    exact KeyTable.find?_insert name other _ scripts.loaded
  · cases h

theorem accepts_of_load_ok
    (h : scripts.load name script.source script.dialect = (loaded, .ok ())) :
    language.Accepts script.source script.dialect := by
  unfold Scripts.load at h
  split at h
  · next state code hcode => exact ⟨_, _, _, code, by rw [hcode]⟩
  · cases h

theorem loaded_of_load_error {failure : Failure}
    (h : scripts.load name script.source script.dialect = (loaded, .error failure)) :
    loaded.loaded = scripts.loaded := by
  unfold Scripts.load at h
  split at h
  · cases h
  · cases h
    rfl

/-- A steady interpreter loads again what it accepted once. -/
theorem exists_load_ok (hsteady : language.Steady)
    (h : language.Accepts script.source script.dialect) (scripts : Scripts language)
    (name : String) :
    ∃ loaded, scripts.load name script.source script.dialect = (loaded, .ok ()) := by
  obtain ⟨code, hcode⟩ := hsteady _ _ h scripts.state scripts.codes name
  unfold Scripts.load
  split
  · exact ⟨_, rfl⟩
  · next state failure hfailure =>
    rw [hfailure] at hcode
    cases hcode

theorem find?_unload (scripts : Scripts language) (name other : String) :
    KeyTable.find? (scripts.unload name).loaded other =
      if other = name then none else KeyTable.find? scripts.loaded other :=
  KeyTable.find?_erase scripts.loaded name other

end Load

/-! ## Names and the scripts that claim them -/

/-- The name is bound to one of these scripts that claims it, unless none of them does. -/
structure Scripts.Serves (scripts : Scripts language) (kept : Script → Prop) (name : String) :
    Prop where
  bound : ∀ compiled, KeyTable.find? scripts.loaded name = some compiled →
    ∃ script, kept script ∧ name ∈ script.names ∧ compiled.MadeFrom name script
  present : ∀ script, kept script → name ∈ script.names →
    ∃ compiled, KeyTable.find? scripts.loaded name = some compiled

section Serves
variable {scripts scripts' : Scripts language} {kept kept' : Script → Prop} {name : String}
  {script : Script}

theorem Scripts.Serves.of_find?_eq (h : scripts.Serves kept name)
    (heq : KeyTable.find? scripts'.loaded name = KeyTable.find? scripts.loaded name) :
    scripts'.Serves kept name := by
  refine ⟨?_, ?_⟩
  · rw [heq]
    exact h.bound
  · rw [heq]
    exact h.present

/-- Other scripts may be kept, if those that claim the name stay and only claimed names are
claimed. -/
theorem Scripts.Serves.of_claims (h : scripts.Serves kept name)
    (hstay : ∀ script, kept script → name ∈ script.names → kept' script)
    (hclaim : ∀ script, kept' script → name ∈ script.names →
      ∃ script, kept script ∧ name ∈ script.names) :
    scripts.Serves kept' name := by
  refine ⟨?_, ?_⟩
  · intro compiled hcompiled
    obtain ⟨script, hkept, hname, hmade⟩ := h.bound compiled hcompiled
    exact ⟨script, hstay script hkept hname, hname, hmade⟩
  · intro script hkept hname
    obtain ⟨script', hkept', hname'⟩ := hclaim script hkept hname
    exact h.present script' hkept' hname'

/-- A script that was loaded under a name it claims serves this name. -/
theorem Scripts.serves_of_load_ok
    (h : scripts.load name script.source script.dialect = (scripts', .ok ()))
    (hkept : kept script) (hname : name ∈ script.names) : scripts'.Serves kept name := by
  obtain ⟨compiled, hmade, hfind⟩ := find?_of_load_ok h
  have hself : KeyTable.find? scripts'.loaded name = some compiled := by rw [hfind, if_pos rfl]
  refine ⟨?_, fun _ _ _ => ⟨compiled, hself⟩⟩
  intro found hfound
  rw [hself] at hfound
  cases hfound
  exact ⟨script, hkept, hname, hmade⟩

theorem Scripts.find?_of_load_ok_of_ne {other : String}
    (h : scripts.load name script.source script.dialect = (scripts', .ok ())) (hne : other ≠ name) :
    KeyTable.find? scripts'.loaded other = KeyTable.find? scripts.loaded other := by
  obtain ⟨compiled, -, hfind⟩ := find?_of_load_ok h
  rw [hfind, if_neg hne]

/-- A name that no script claims is served when it is forgotten. -/
theorem Scripts.serves_unload (h : ∀ script, kept script → name ∉ script.names) :
    (scripts.unload name).Serves kept name := by
  have hnone : KeyTable.find? (scripts.unload name).loaded name = none := by
    rw [find?_unload, if_pos rfl]
  refine ⟨?_, ?_⟩
  · intro compiled hcompiled
    rw [hnone] at hcompiled
    cases hcompiled
  · intro script hkept hname
    exact absurd hname (h script hkept)

end Serves
end DiceHost.Script
