import DiceHost.Plugin.Template
import DiceHost.Proofs.KeyTable
import Mathlib.Data.List.Nodup

/-! # Names of template fields

A template that was read has no display name twice and no alias twice. A name in a
formula then means at most one field: the one displayed under it, else the one with
that alias.
-/
namespace DiceHost.Plugin

/-- No two fields share a display name, and no two share an alias. -/
structure Template.Distinct (t : Template) : Prop where
  displays : (t.fields.map (·.display)).Nodup
  aliases : (t.fields.map (·.alias)).Nodup

theorem repeated?_none {template : String} {displays aliases : List String}
    {fields : List TemplateField} (h : repeated? template displays aliases fields = none) :
    (∀ f ∈ fields, f.display ∉ displays ∧ f.alias ∉ aliases) ∧
      (fields.map (·.display)).Nodup ∧ (fields.map (·.alias)).Nodup := by
  induction fields generalizing displays aliases with
  | nil => simp
  | cons f rest ih =>
    unfold repeated? at h
    split at h
    · cases h
    · split at h
      · cases h
      · next hdisplay halias =>
        obtain ⟨hfresh, hdisplays, haliases⟩ := ih h
        have hd : f.display ∉ displays := by simpa using hdisplay
        have ha : f.alias ∉ aliases := by simpa using halias
        refine ⟨?_, ?_, ?_⟩
        · intro g hg
          rcases List.mem_cons.mp hg with rfl | hg
          · exact ⟨hd, ha⟩
          · exact ⟨fun hm => (hfresh g hg).1 (List.mem_cons_of_mem _ hm),
              fun hm => (hfresh g hg).2 (List.mem_cons_of_mem _ hm)⟩
        · refine List.nodup_cons.mpr ⟨?_, hdisplays⟩
          intro hm
          obtain ⟨g, hg, heq⟩ := List.mem_map.mp hm
          exact (hfresh g hg).1 (heq ▸ List.mem_cons_self)
        · refine List.nodup_cons.mpr ⟨?_, haliases⟩
          intro hm
          obtain ⟨g, hg, heq⟩ := List.mem_map.mp hm
          exact (hfresh g hg).2 (heq ▸ List.mem_cons_self)

theorem distinct_of_parse {text : String} {t : Template} (h : Template.parse text = .ok t) :
    t.Distinct := by
  unfold Template.parse at h
  split at h
  · cases h
  · split at h
    · cases h
    · dsimp only at h
      split at h
      · cases h
      · next hrepeated =>
        cases h
        exact ⟨(repeated?_none hrepeated).2.1, (repeated?_none hrepeated).2.2⟩

/-! ## What a name means -/

/-- The field that a name means: one displayed under it goes before one with this alias. -/
def Template.resolve (t : Template) (name : String) : Option TemplateField :=
  (t.fields.find? (fun f => f.display = name)).or (t.fields.find? (fun f => f.alias = name))

theorem Template.mem_of_resolve {t : Template} {name : String} {f : TemplateField}
    (h : t.resolve name = some f) : f ∈ t.fields := by
  rcases Option.or_eq_some_iff.mp h with h | ⟨-, h⟩
  · exact List.mem_of_find?_eq_some h
  · exact List.mem_of_find?_eq_some h

/-- A later display name takes the place of what is in the table, a later alias does not. -/
theorem find?_indexOnto {fields : List TemplateField} (hdisplays : (fields.map (·.display)).Nodup)
    (index : KeyTable Nat) (i : Nat) (name : String) :
    KeyTable.find? (indexOnto index i fields) name =
      ((fields.findIdx? (fun f => f.display = name)).map (· + i)).or
        ((KeyTable.find? index name).or
          ((fields.findIdx? (fun f => f.alias = name)).map (· + i))) := by
  induction fields generalizing index i with
  | nil => simp [indexOnto]
  | cons f rest ih =>
    obtain ⟨hfresh, hrest⟩ := List.nodup_cons.mp hdisplays
    have hshift (found : Option Nat) : (found.map (· + 1)).map (· + i) = found.map (· + (i + 1)) := by
      rw [Option.map_map]
      exact congrArg (Option.map · found) (funext fun n => by simp; omega)
    rw [indexOnto, ih hrest, TemplateField.enter, KeyTable.find?_insertNew, KeyTable.find?_insert,
      List.findIdx?_cons, List.findIdx?_cons]
    by_cases hdisplay : f.display = name
    · have hnone : rest.findIdx? (fun g => g.display = name) = none := by
        rw [List.findIdx?_eq_none_iff]
        intro g hg
        have hne : g.display ≠ name := by
          rintro heq
          exact hfresh (List.mem_map.mpr ⟨g, hg, heq.trans hdisplay.symm⟩)
        simpa using hne
      simp [hdisplay, hnone]
    · by_cases halias : f.alias = name
      · simp [hdisplay, halias, hshift, eq_comm (a := name)]
      · simp [hdisplay, halias, hshift, eq_comm (a := name)]

/-- Formulas name fields the way `resolve` says. -/
theorem Template.Distinct.resolve_eq {t : Template} (ht : t.Distinct) (name : String) :
    t.resolve name = (KeyTable.find? t.index name).bind (fun i => t.fields[i]?) := by
  unfold Template.resolve Template.index
  rw [find?_indexOnto ht.displays, List.find?_eq_bind_findIdx?_getElem?,
    List.find?_eq_bind_findIdx?_getElem?]
  cases hi : t.fields.findIdx? (fun f => f.display = name) with
  | none => simp
  | some i =>
    obtain ⟨hlt, -⟩ := List.findIdx?_eq_some_iff_getElem.mp hi
    simp [hlt]

theorem Template.Distinct.number_eq {t : Template} (ht : t.Distinct) {f : TemplateField} {i : Nat}
    (h : t.fields[i]? = some f) : t.fields.idxOf f = i := by
  obtain ⟨hlt, rfl⟩ := List.getElem?_eq_some_iff.mp h
  exact (List.Nodup.of_map _ ht.displays).idxOf_getElem i hlt

end DiceHost.Plugin
