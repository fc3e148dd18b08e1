import DiceHost.Proofs.Template.Defaults
import Mathlib.Data.Fintype.Card
import Mathlib.Data.Set.Finite.List
import Mathlib.Logic.Relation

/-! # Formulas that depend on each other

The fields with a formula form a graph: an edge goes from a field to one that its formula
mentions. Defaults exist when the graph has no cycle. Otherwise the failure lists the
fields that reach a cycle.
-/
namespace DiceHost.Plugin
open DiceHost.Formula
open Relation (ReflTransGen TransGen)

/-! ## Chains and cycles -/

section Graph
variable {α : Type} {r : α → α → Prop} {a b : α}

theorem acc_of_reflTransGen (hacc : Acc (fun b a => r a b) a) (h : ReflTransGen r a b) :
    Acc (fun b a => r a b) b := by
  induction h with
  | refl => exact hacc
  | tail _ hstep ih => exact ih.inv hstep

theorem not_cycle_of_acc (hacc : Acc (fun b a => r a b) a) : ¬ TransGen r a a := by
  induction hacc with
  | intro a _ ih =>
    intro hcycle
    obtain ⟨b, hstep, hback⟩ := TransGen.head'_iff.mp hcycle
    exact ih b hstep (TransGen.tail' hback hstep)

/-- A chain that goes on forever in finitely many places reaches a cycle. -/
theorem acc_iff_no_cycle {places : List α} (hplaces : ∀ a b, r a b → b ∈ places) :
    Acc (fun b a => r a b) a ↔ ¬ ∃ b, ReflTransGen r a b ∧ TransGen r b b := by
  constructor
  · rintro hacc ⟨b, hreach, hcycle⟩
    exact not_cycle_of_acc (acc_of_reflTransGen hacc hreach) hcycle
  · intro hno
    have hfinite : {b | ReflTransGen r a b}.Finite := by
      refine (List.finite_toSet (a :: places)).subset (fun b hb => ?_)
      rcases ReflTransGen.cases_tail hb with rfl | ⟨c, -, hstep⟩
      · exact List.mem_cons_self
      · exact List.mem_cons_of_mem _ (hplaces c b hstep)
    have : Finite {b // ReflTransGen r a b} := hfinite
    let below : {b // ReflTransGen r a b} → {b // ReflTransGen r a b} → Prop :=
      fun c b => TransGen r b.1 c.1
    have : IsTrans _ below := ⟨fun _ _ _ hcb hdc => hdc.trans hcb⟩
    have : Std.Irrefl below := ⟨fun b hcycle => hno ⟨b.1, b.2, hcycle⟩⟩
    have hwf : WellFounded below := Finite.wellFounded_of_trans_of_irrefl below
    have hall : ∀ b : {b // ReflTransGen r a b}, Acc (fun b a => r a b) b.1 := by
      intro b
      induction hwf.apply b with
      | intro b _ ih =>
        exact Acc.intro _ (fun c hstep => ih ⟨c, b.2.tail hstep⟩ (TransGen.single hstep))
    exact hall ⟨a, .refl⟩

end Graph

/-! ## The graph of a template -/

/-- The formula of one field mentions another field with a formula. -/
def Template.Depends (t : Template) (f g : TemplateField) : Prop :=
  f ∈ t.fields ∧ ∃ e, f.Computes e ∧ (∃ name, e.Mentions name ∧ t.resolve name = some g) ∧
    ∃ e', g.Computes e'

theorem Template.Depends.mem {t : Template} {f g : TemplateField} (h : t.Depends f g) :
    g ∈ t.fields := by
  obtain ⟨-, e, -, ⟨name, -, hg⟩, -⟩ := h
  exact Template.mem_of_resolve hg

section Distinct
variable {t : Template} (ht : t.Distinct) {f g : TemplateField} {i j : Nat}
include ht

theorem reads_iff_depends (hf : t.fields[i]? = some f) (hg : t.fields[j]? = some g) :
    t.sheet.Reads i j ↔ t.Depends f g := by
  constructor
  · rintro ⟨e, he, hread⟩
    obtain ⟨f', hf', hcomputes⟩ := formula?_sheet.mp he
    rw [hf] at hf'
    cases hf'
    obtain ⟨⟨name, hm, hj⟩, e', he'⟩ := Sheet.mem_reads.mp hread
    obtain ⟨g', hg', hcomputes'⟩ := formula?_sheet.mp he'
    rw [hg] at hg'
    cases hg'
    have hresolve : t.resolve name = some g := by
      rw [ht.resolve_eq, show KeyTable.find? t.index name = some j from hj]
      exact hg
    exact ⟨List.mem_of_getElem? hf, e, hcomputes, ⟨name, hm, hresolve⟩, e', hcomputes'⟩
  · rintro ⟨-, e, hcomputes, ⟨name, hm, hresolve⟩, e', hcomputes'⟩
    rw [ht.resolve_eq] at hresolve
    obtain ⟨k, hk, hgk⟩ := Option.bind_eq_some_iff.mp hresolve
    have hkj : k = j := by rw [← ht.number_eq hgk, ht.number_eq hg]
    subst hkj
    refine ⟨e, formula?_sheet.mpr ⟨f, hf, hcomputes⟩, Sheet.mem_reads.mpr ⟨⟨name, hm, hk⟩, e', ?_⟩⟩
    exact formula?_sheet.mpr ⟨g, hg, hcomputes'⟩

theorem acc_reads_iff (hf : t.fields[i]? = some f) :
    Acc (fun j i => t.sheet.Reads i j) i ↔ Acc (fun g f => t.Depends f g) f := by
  constructor
  · intro hacc
    induction hacc generalizing f with
    | intro i _ ih =>
      refine Acc.intro _ (fun g hdepends => ?_)
      obtain ⟨j, hg⟩ := List.mem_iff_getElem?.mp hdepends.mem
      exact ih j ((reads_iff_depends ht hf hg).mpr hdepends) hg
  · intro hacc
    induction hacc generalizing i with
    | intro f _ ih =>
      refine Acc.intro _ (fun j hreads => ?_)
      have ⟨e, _, hread⟩ := hreads
      obtain ⟨e', he'⟩ := (Sheet.mem_reads.mp hread).2
      obtain ⟨g, hg, -⟩ := formula?_sheet.mp he'
      exact ih g ((reads_iff_depends ht hf hg).mp hreads) hg

/-- The fields with an endless chain of reads are those that reach a cycle. -/
theorem not_acc_iff (hf : t.fields[i]? = some f) : ¬ Acc (fun j i => t.sheet.Reads i j) i ↔
    ∃ g, ReflTransGen t.Depends f g ∧ TransGen t.Depends g g := by
  rw [acc_reads_iff ht hf, acc_iff_no_cycle (fun _ _ h => h.mem), not_not]

end Distinct

/-! ## The failure -/

theorem filterMap_range (fields : List TemplateField) :
    (List.range fields.length).filterMap (fun i => fields[i]?.map (·.display)) =
      fields.map (·.display) := by
  induction fields with
  | nil => rfl
  | cons f rest ih =>
    rw [List.length_cons, List.range_succ_eq_map, List.filterMap_cons]
    simp only [List.getElem?_cons_zero, Option.map_some, List.filterMap_map, Function.comp_def,
      List.getElem?_cons_succ, ih, List.map_cons]

/-- The field has a formula, and from it a cycle can be reached. -/
def Template.Circular (t : Template) (f : TemplateField) : Prop :=
  (∃ e, f.Computes e) ∧ ∃ g, ReflTransGen t.Depends f g ∧ TransGen t.Depends g g

section Distinct
variable {t : Template} (ht : t.Distinct)
include ht

theorem circular_iff {f : TemplateField} {i : Nat} (hf : t.fields[i]? = some f) : t.Circular f ↔
    ∃ e, t.sheet.formula? i = some e ∧ ¬ Acc (fun j i => t.sheet.Reads i j) i := by
  unfold Template.Circular
  rw [← not_acc_iff ht hf]
  constructor
  · rintro ⟨⟨e, he⟩, hacc⟩
    exact ⟨e, formula?_sheet.mpr ⟨f, hf, he⟩, hacc⟩
  · rintro ⟨e, he, hacc⟩
    obtain ⟨f', hf', hcomputes⟩ := formula?_sheet.mp he
    rw [hf] at hf'
    cases hf'
    exact ⟨⟨e, hcomputes⟩, hacc⟩

theorem exists_error_iff :
    (∃ failure, t.defaults = .error failure) ↔ ∃ f, TransGen t.Depends f f := by
  have hsolve : (∃ failure, t.defaults = .error failure) ↔
      ∃ stuck, t.sheet.solve (t.fields.map TemplateField.plain?) = .error stuck := by
    unfold Template.defaults
    split
    · next values h => simp [h]
    · next stuck h => simp [h]
  rw [hsolve, (fits_sheet t).solve_error_iff]
  constructor
  · rintro ⟨i, e, he, hacc⟩
    obtain ⟨f, hf, -⟩ := formula?_sheet.mp he
    obtain ⟨-, g, -, hcycle⟩ := (circular_iff ht hf).mpr ⟨e, he, hacc⟩
    exact ⟨g, hcycle⟩
  · rintro ⟨f, hcycle⟩
    obtain ⟨g, ⟨hmem, e, he, -⟩, -⟩ := TransGen.head'_iff.mp hcycle
    obtain ⟨i, hf⟩ := List.mem_iff_getElem?.mp hmem
    exact ⟨i, (circular_iff ht hf).mp ⟨⟨e, he⟩, f, .refl, hcycle⟩⟩

theorem circular_names {failure : Failure} (h : t.defaults = .error failure) :
    ∃ names, failure = .circularFormula names ∧ names.Sublist (t.fields.map (·.display)) ∧
      ∀ name, name ∈ names ↔ ∃ f ∈ t.fields, f.display = name ∧ t.Circular f := by
  unfold Template.defaults at h
  split at h
  · cases h
  · next stuck hsolve =>
    obtain ⟨hsub, hstuck⟩ := (fits_sheet t).mem_stuck hsolve
    refine ⟨_, (Except.error.inj h).symm, ?_, fun name => ?_⟩
    · have hlen : t.sheet.formulas.length = t.fields.length := by simp [Template.sheet]
      rw [← filterMap_range t.fields, ← hlen]
      exact (hsub.trans List.filter_sublist).filterMap _
    · rw [List.mem_filterMap]
      constructor
      · rintro ⟨i, hi, hname⟩
        obtain ⟨f, hf, rfl⟩ := Option.map_eq_some_iff.mp hname
        exact ⟨f, List.mem_of_getElem? hf, rfl, (circular_iff ht hf).mpr ((hstuck i).mp hi)⟩
      · rintro ⟨f, hmem, rfl, hcircular⟩
        obtain ⟨i, hf⟩ := List.mem_iff_getElem?.mp hmem
        exact ⟨i, (hstuck i).mpr ((circular_iff ht hf).mp hcircular), by simp [hf]⟩

end Distinct

/-- Defaults fail exactly when formulas depend on each other in a circle. The failure then
names the fields that reach a circle, each once and in the order of the template. -/
theorem defaults_error_iff_cycle {text : String} {t : Template}
    (hread : Template.parse text = .ok t) :
    ((∃ failure, t.defaults = .error failure) ↔ ∃ f, TransGen t.Depends f f) ∧
      ∀ failure, t.defaults = .error failure → ∃ names, failure = .circularFormula names ∧
        names.Sublist (t.fields.map (·.display)) ∧ names.Nodup ∧
        ∀ name, name ∈ names ↔ ∃ f ∈ t.fields, f.display = name ∧ t.Circular f := by
  have ht := distinct_of_parse hread
  refine ⟨exists_error_iff ht, fun failure hfailure => ?_⟩
  obtain ⟨names, rfl, hsub, hmem⟩ := circular_names ht hfailure
  exact ⟨names, rfl, hsub, hsub.nodup ht.displays, hmem⟩

/-- Two fields over each other, one of them by its alias, and one over the first of them. -/
def tangled : Template := ⟨"T", [
  ⟨"A", "a", some "js", some "this.B", none⟩,
  ⟨"B", "b", some "js", some "this.a", none⟩,
  ⟨"C", "c", some "js", some "-this.A", none⟩]⟩

theorem parse_tangled : Template.parse ("<model name=\"T\"><property>" ++
    "<any name=\"A\" alias=\"a\" text=\"js\">this.B</any>" ++
    "<any name=\"B\" alias=\"b\" text=\"js\">this.a</any>" ++
    "<any name=\"C\" alias=\"c\" text=\"js\">-this.A</any>") = .ok tangled :=
  eq_ok_of_toOption (by decide +kernel)

theorem defaults_error_iff_cycle_tangled :
    ((∃ failure, tangled.defaults = .error failure) ↔ ∃ f, TransGen tangled.Depends f f) ∧
      ∀ failure, tangled.defaults = .error failure →
        ∃ names, failure = .circularFormula names ∧
          names.Sublist (tangled.fields.map (·.display)) ∧ names.Nodup ∧
          ∀ name, name ∈ names ↔ ∃ f ∈ tangled.fields, f.display = name ∧ tangled.Circular f :=
  defaults_error_iff_cycle parse_tangled

example : (match tangled.defaults with
    | .error (.circularFormula names) => names
    | _ => []) = ["A", "B", "C"] := by decide +kernel

end DiceHost.Plugin
