import DiceHost.Context
import DiceHost.Plugin.Rules
import DiceHost.Proofs.KeyTable

/-! # Looking a rule up

Rules are merged into systems and go with their plugins. Whatever the history, the systems stay in
name order, so the first one that is found by walking through the registry is the first one by name;
and the copy of the texts that a script gets answers like the registry it was taken from.
-/
namespace DiceHost.Plugin.RuleRegistry

/-! ## Histories -/

/-- What can happen to the rules. -/
inductive Change where
  | merge (system plugin : String) (entries : List (String × String))
  | remove (plugin : String)

def apply (registry : RuleRegistry) : Change → RuleRegistry
  | .merge system plugin entries => registry.merge system plugin entries
  | .remove plugin => registry.removePlugin plugin

/-- The registry after a history, which begins without rules. -/
def after (changes : List Change) : RuleRegistry := changes.foldl apply []

theorem ordered_apply {registry : RuleRegistry} (h : KeyTable.Ordered registry) (change : Change) :
    KeyTable.Ordered (registry.apply change) := by
  cases change with
  | merge system plugin entries => exact h.insert _ _
  | remove plugin => exact (h.mapValues _).filter _

theorem ordered_after (changes : List Change) : KeyTable.Ordered (after changes) := by
  have hrun (registry : RuleRegistry) (h : KeyTable.Ordered registry) :
      KeyTable.Ordered (changes.foldl apply registry) := by
    induction changes generalizing registry with
    | nil => exact h
    | cons change rest ih => exact ih _ (ordered_apply h change)
  exact hrun [] List.Pairwise.nil

/-! ## All systems -/

section Lookup
variable {registry : RuleRegistry} {keyword system text : String}

theorem query_cons (entry : String × KeyTable Rule) (rest : RuleRegistry)
    (system keyword : String) :
    query (entry :: rest) system keyword =
      if system = entry.1 then (KeyTable.find? entry.2 keyword).map (·.text)
      else query rest system keyword := by
  unfold query manual
  rw [KeyTable.find?_cons]
  split <;> rfl

theorem query_of_notMem (h : system ∉ KeyTable.keys registry) :
    registry.query system keyword = none := by
  have hnone : KeyTable.find? registry system = none := by
    rw [← Option.not_isSome_iff_eq_none, KeyTable.find?_isSome_iff]
    exact h
  unfold query manual
  rw [hnone]
  rfl

/-- A keyword is unknown to all systems together exactly when it is to each of them. -/
theorem queryAny_eq_none (h : KeyTable.Ordered registry) :
    registry.queryAny keyword = none ↔ ∀ system, registry.query system keyword = none := by
  unfold queryAny
  rw [List.findSome?_eq_none_iff]
  constructor
  · intro hnone system
    unfold query manual
    cases hfound : KeyTable.find? registry system with
    | none => rfl
    | some rules =>
      have hentry := hnone _ (KeyTable.mem_of_find? hfound)
      simpa using hentry
  · rintro hnone ⟨system, rules⟩ hmem
    have hquery := hnone system
    unfold query manual at hquery
    rw [h.find?_eq_some hmem] at hquery
    simpa using hquery

/-- The first system by name that knows a keyword is the one whose text is found. -/
theorem queryAny_eq_some (h : KeyTable.Ordered registry) :
    registry.queryAny keyword = some (system, text) ↔
      registry.query system keyword = some text ∧
        ∀ earlier, earlier < system → registry.query earlier keyword = none := by
  induction registry with
  | nil => exact ⟨fun h => (nomatch h), fun h => (nomatch h.1)⟩
  | cons entry rest ih =>
    obtain ⟨hlater, hrest⟩ := List.pairwise_cons.mp h
    have hkeys : ∀ key ∈ KeyTable.keys rest, entry.1 < key := by
      intro key hkey
      obtain ⟨other, hother, rfl⟩ := List.mem_map.mp hkey
      exact hlater other hother
    -- the other keys are greater, so up to its own name the first entry alone has an answer
    have hfirst (other : String) (hother : ¬ entry.1 < other) : query rest other keyword = none :=
      query_of_notMem (fun hmem => hother (hkeys other hmem))
    have hself := query_cons entry rest entry.1 keyword
    rw [if_pos rfl] at hself
    cases hfound : (KeyTable.find? entry.2 keyword).map (·.text) with
    | some found =>
      have hany : queryAny (entry :: rest) keyword = some (entry.1, found) := by
        obtain ⟨rule, hrule, rfl⟩ := Option.map_eq_some_iff.mp hfound
        simp [queryAny, hrule]
      rw [hfound] at hself
      rw [hany]
      constructor
      · rintro ⟨⟩
        refine ⟨hself, fun earlier hearlier => ?_⟩
        rw [query_cons, if_neg (ne_of_lt hearlier), hfirst earlier (lt_asymm hearlier)]
      · rintro ⟨htext, hnone⟩
        rcases lt_trichotomy system entry.1 with hlt | rfl | hgt
        · rw [query_cons, if_neg (ne_of_lt hlt), hfirst system (lt_asymm hlt)] at htext
          cases htext
        · rw [hself] at htext
          rw [Option.some.inj htext]
        · rw [hnone entry.1 hgt] at hself
          cases hself
    | none =>
      have hany : queryAny (entry :: rest) keyword = queryAny rest keyword := by
        have hrules := Option.map_eq_none_iff.mp hfound
        simp [queryAny, hrules]
      have hquery (other : String) : query (entry :: rest) other keyword =
          query rest other keyword := by
        rw [query_cons]
        split
        · next heq => rw [heq, hfound, hfirst entry.1 (lt_irrefl _)]
        · rfl
      simp only [hany, hquery, ih hrest]

/-! ## The copy for scripts -/

/-- The copy has the texts of the registry under the same names. -/
theorem find?_snapshot (registry : RuleRegistry) (system keyword : String) :
    (KeyTable.find? registry.snapshot system).bind (KeyTable.find? · keyword) =
      registry.query system keyword := by
  unfold snapshot query manual
  rw [KeyTable.find?_mapValues]
  cases KeyTable.find? registry system with
  | none => rfl
  | some rules => exact KeyTable.find?_mapValues _ _ _

/-- What the copy gives for a keyword is the text that the registry finds in all systems. -/
theorem find?_manuals (registry : RuleRegistry) (keyword : String) :
    Manuals.find? registry.snapshot keyword = (registry.queryAny keyword).map (·.2) := by
  induction registry with
  | nil => rfl
  | cons entry rest ih =>
    have hstep : Manuals.find? (snapshot (entry :: rest)) keyword =
        ((KeyTable.find? (KeyTable.mapValues Rule.text entry.2) keyword).or
          (Manuals.find? (snapshot rest) keyword)) := by
      simp only [Manuals.find?, snapshot, KeyTable.mapValues, List.map_cons, List.findSome?_cons]
      cases KeyTable.find? (entry.2.map fun e => (e.1, e.2.text)) keyword <;> rfl
    rw [hstep, ih, KeyTable.find?_mapValues]
    simp only [queryAny, List.findSome?_cons]
    cases KeyTable.find? entry.2 keyword with
    | none => rfl
    | some rule => rfl

end Lookup
end DiceHost.Plugin.RuleRegistry
