import DiceHost.Proofs.Search
import DiceHost.Proofs.Template.Cycles

/-! # Templates with their fields in another order

The fields of a template can be declared in any order: a name means the same field, the same
fields depend on each other, and without a cycle the equations of the fields have one solution
only. So the defaults are the same attributes, or the same fields are in a cycle.
-/
namespace DiceHost.Plugin
open DiceHost.Formula
open Relation (TransGen)

/-! ## One solution -/

section Solution
variable {t : Template} {value value' : TemplateField → Float} {f : TemplateField}

theorem Template.Solves.eq_plain (h : t.Solves value) (hf : f ∈ t.fields) {x : Float}
    (hx : f.plain? = some x) : value f = x := by
  unfold TemplateField.plain? at hx
  split at hx
  · next src hsrc =>
    split at hx
    · cases hx
    · next message hmessage => rw [h.unreadable f hf src message hsrc hmessage, Option.some.inj hx]
  · next hnone => rw [h.plain f hf hnone, Option.some.inj hx]

/-- Where no chain of formulas goes on forever, the equations determine the value. -/
theorem Template.Solves.unique (h : t.Solves value) (h' : t.Solves value')
    (hacc : Acc (fun g f => t.Depends f g) f) (hf : f ∈ t.fields) : value f = value' f := by
  -- down the fields that the formula mentions; a plain field has its value from nowhere else
  induction hacc with
  | intro f _ ih =>
    rcases f.plain_or_computes with ⟨x, hx⟩ | ⟨e, he⟩
    · rw [h.eq_plain hf hx, h'.eq_plain hf hx]
    · have hlookup : ∀ name, e.Mentions name →
          (t.resolve name).map value = (t.resolve name).map value' := by
        intro name hname
        cases hg : t.resolve name with
        | none => rfl
        | some g =>
          have hmem := Template.mem_of_resolve hg
          rcases g.plain_or_computes with ⟨x, hx⟩ | hcomputes
          · rw [Option.map_some, Option.map_some, h.eq_plain hmem hx, h'.eq_plain hmem hx]
          · have hdepends : t.Depends f g := ⟨hf, e, he, ⟨name, hname, hg⟩, hcomputes⟩
            rw [Option.map_some, Option.map_some, ih g hdepends hmem]
      obtain ⟨src, hsrc, hparse⟩ := he
      rw [h.formula f hf src e hsrc hparse, h'.formula f hf src e hsrc hparse, eval_congr hlookup]

end Solution

/-! ## Another order -/

section Order
variable {t t' : Template} (hperm : t.fields.Perm t'.fields)
include hperm

theorem Template.Distinct.perm (ht : t.Distinct) : t'.Distinct :=
  ⟨(hperm.map _).nodup_iff.mp ht.displays, (hperm.map _).nodup_iff.mp ht.aliases⟩

theorem Template.Distinct.resolve_perm (ht : t.Distinct) : t'.resolve = t.resolve := by
  have hfind {key : TemplateField → String} (hkey : (t.fields.map key).Nodup) (name : String) :
      t'.fields.find? (fun f => key f = name) = t.fields.find? (fun f => key f = name) := by
    refine find?_eq_of_perm hperm.symm ((List.pairwise_map.mp hkey).imp ?_)
    intro f g hne hboth
    simp only [decide_eq_true_eq] at hboth
    exact hne (hboth.1.trans hboth.2.symm)
  funext name
  unfold Template.resolve
  rw [hfind ht.displays, hfind ht.aliases]

theorem Template.Distinct.depends_perm (ht : t.Distinct) : t'.Depends = t.Depends := by
  funext f g
  unfold Template.Depends
  rw [ht.resolve_perm hperm, hperm.mem_iff]

theorem Template.Distinct.circular_perm (ht : t.Distinct) : t'.Circular = t.Circular := by
  funext f
  unfold Template.Circular
  rw [ht.depends_perm hperm]

theorem Template.Distinct.solves_perm (ht : t.Distinct) {value : TemplateField → Float}
    (h : t'.Solves value) : t.Solves value := by
  refine ⟨fun f hf => h.plain f (hperm.mem_iff.mp hf),
    fun f hf => h.unreadable f (hperm.mem_iff.mp hf), fun f hf => ?_⟩
  rw [← ht.resolve_perm hperm]
  exact h.formula f (hperm.mem_iff.mp hf)

end Order

/-! ## The defaults -/

section Defaults
variable {t t' : Template} (ht : t.Distinct)
include ht

theorem Template.Distinct.acc_of_defaults {attributes : Fields} (h : t.defaults = .ok attributes)
    (f : TemplateField) : Acc (fun g f => t.Depends f g) f := by
  have hcycle : ¬ ∃ f, TransGen t.Depends f f := by
    intro hcycle
    obtain ⟨failure, hfailure⟩ := (exists_error_iff ht).mpr hcycle
    rw [h] at hfailure
    cases hfailure
  refine (acc_iff_no_cycle (fun _ _ hdepends => hdepends.mem)).mpr ?_
  rintro ⟨g, -, hg⟩
  exact hcycle ⟨g, hg⟩

variable (hperm : t.fields.Perm t'.fields)
include hperm

theorem Template.Distinct.attributes_perm {attributes attributes' : Fields}
    (h : t.defaults = .ok attributes) (h' : t'.defaults = .ok attributes') :
    attributes = attributes' := by
  obtain ⟨value, hvalue, rfl⟩ := ht.exists_solution h
  obtain ⟨value', hvalue', rfl⟩ := (ht.perm hperm).exists_solution h'
  have hsame : ∀ f ∈ t.fields, value f = value' f := fun f hf =>
    hvalue.unique (ht.solves_perm hperm hvalue') (ht.acc_of_defaults h f) hf
  have hentries : t.fields.map (fun f => (f.display, numberValue (value f))) =
      t.fields.map (fun f => (f.display, numberValue (value' f))) :=
    List.map_congr_left (fun f hf => by rw [hsame f hf])
  rw [hentries]
  refine KeyTable.ofList_eq_of_perm (hperm.map _) ?_
  rw [List.map_map]
  exact ht.displays

theorem Template.Distinct.names_perm {names names' : List String}
    (h : t.defaults = .error (.circularFormula names))
    (h' : t'.defaults = .error (.circularFormula names')) : names.Perm names' := by
  have ht' := ht.perm hperm
  obtain ⟨_, hnames, hsub, hmem⟩ := circular_names ht h
  obtain ⟨_, hnames', hsub', hmem'⟩ := circular_names ht' h'
  cases hnames
  cases hnames'
  refine (List.perm_ext_iff_of_nodup (hsub.nodup ht.displays) (hsub'.nodup ht'.displays)).mpr ?_
  intro name
  rw [hmem, hmem', ht.circular_perm hperm]
  simp only [hperm.mem_iff]

end Defaults

/-- The same attributes, or failures that list the same fields. -/
def SameDefaults : Except Failure Fields → Except Failure Fields → Prop
  | .ok attributes, .ok attributes' => attributes = attributes'
  | .error (.circularFormula names), .error (.circularFormula names') => names.Perm names'
  | _, _ => False

theorem Template.Distinct.sameDefaults {t t' : Template} (ht : t.Distinct)
    (hperm : t.fields.Perm t'.fields) : SameDefaults t.defaults t'.defaults := by
  have ht' := ht.perm hperm
  have hfails : (∃ failure, t'.defaults = .error failure) ↔
      ∃ failure, t.defaults = .error failure := by
    rw [exists_error_iff ht, exists_error_iff ht', ht.depends_perm hperm]
  cases h : t.defaults with
  | ok attributes =>
    cases h' : t'.defaults with
    | ok attributes' => exact ht.attributes_perm hperm h h'
    | error failure' =>
      obtain ⟨failure, hfailure⟩ := hfails.mp ⟨failure', h'⟩
      rw [h] at hfailure
      cases hfailure
  | error failure =>
    obtain ⟨failure', h'⟩ := hfails.mpr ⟨failure, h⟩
    obtain ⟨names, rfl, -⟩ := circular_names ht h
    obtain ⟨names', rfl, -⟩ := circular_names ht' h'
    rw [h']
    exact ht.names_perm hperm h h'

theorem Template.Distinct.resolve_display {t : Template} (ht : t.Distinct) {f : TemplateField}
    (hf : f ∈ t.fields) : t.resolve f.display = some f := by
  have hfind : t.fields.find? (fun g => g.display = f.display) = some f := by
    cases hfound : t.fields.find? (fun g => g.display = f.display) with
    | none => simpa using List.find?_eq_none.mp hfound f hf
    | some g =>
      have hdisplay : g.display = f.display := by simpa using List.find?_some hfound
      exact congrArg some (List.inj_on_of_nodup_map ht.displays (List.mem_of_find?_eq_some hfound)
        hf hdisplay)
  rw [Template.resolve, hfind]
  rfl

/-- The fields of a template that was read can stand in any order. A name in a formula means the
same field, the one displayed under it before one with this alias; the defaults are the same
attributes, or formulas depend on each other in a circle and the failure names the same fields. -/
theorem defaults_of_perm {text : String} {t t' : Template} (hread : Template.parse text = .ok t)
    (hperm : t.fields.Perm t'.fields) :
    SameDefaults t.defaults t'.defaults ∧
      (∀ name, (KeyTable.find? t'.index name).bind (fun i => t'.fields[i]?) = t.resolve name) ∧
      ∀ f ∈ t.fields, t.resolve f.display = some f := by
  have ht := distinct_of_parse hread
  refine ⟨ht.sameDefaults hperm, fun name => ?_, fun f hf => ht.resolve_display hf⟩
  rw [← (ht.perm hperm).resolve_eq, ht.resolve_perm hperm]

/-- The alias of the first field is the display name of the last one. -/
def namesake : Template := ⟨"N", [
  ⟨"A", "B", none, none, some 1⟩,
  ⟨"C", "c", some "js", some "this.B+1", none⟩,
  ⟨"B", "b", none, none, some 5⟩]⟩

theorem parse_namesake : Template.parse ("<model name=\"N\"><property>" ++
    "<any name=\"A\" alias=\"B\" default=\"1\"/>" ++
    "<any name=\"C\" alias=\"c\" text=\"js\">this.B+1</any>" ++
    "<any name=\"B\" alias=\"b\" default=\"5\"/>") = .ok namesake :=
  eq_ok_of_toOption (by decide +kernel)

theorem defaults_of_perm_namesake :
    let turned : Template := ⟨"N", namesake.fields.reverse⟩
    namesake.fields.Perm turned.fields ∧ SameDefaults namesake.defaults turned.defaults ∧
      (∀ name, (KeyTable.find? turned.index name).bind (fun i => turned.fields[i]?) =
        namesake.resolve name) ∧
      (∀ f ∈ namesake.fields, namesake.resolve f.display = some f) ∧
      namesake.defaults.toOption = some [("A", .int 1), ("B", .int 5), ("C", .int 6)] := by
  intro turned
  have hperm : namesake.fields.Perm turned.fields := (List.reverse_perm _).symm
  obtain ⟨hsame, hnames, hdisplays⟩ := defaults_of_perm parse_namesake hperm
  exact ⟨hperm, hsame, hnames, hdisplays, by decide +kernel⟩

end DiceHost.Plugin
