import DiceHost.Proofs.Formula.Solve
import DiceHost.Proofs.KeyTable
import DiceHost.Proofs.Template.Names

/-! # Default attributes solve their equations

When the defaults of a template exist, there are values of its fields such that every
field has its plain default or the value that its formula takes over these same values.
The attributes are these values under the display names.
-/
namespace DiceHost.Plugin
open DiceHost.Formula

/-! ## The sheet of a template -/

/-- The formula that the default of a field follows. -/
def TemplateField.Computes (f : TemplateField) (e : Expr) : Prop :=
  ∃ src, f.arithmetic? = some src ∧ Formula.parse src = .ok e

theorem TemplateField.computed?_eq_some {f : TemplateField} {e : Expr} :
    f.computed? = some e ↔ f.Computes e := by
  unfold TemplateField.computed? TemplateField.Computes
  cases f.arithmetic? with
  | none => simp
  | some src => cases h : Formula.parse src <;> simp [h, Except.toOption]

theorem TemplateField.plain?_of_computes {f : TemplateField} {e : Expr} (h : f.Computes e) :
    f.plain? = none := by
  obtain ⟨src, hsrc, he⟩ := h
  simp [TemplateField.plain?, hsrc, he]

theorem TemplateField.plain_or_computes (f : TemplateField) :
    (∃ x, f.plain? = some x) ∨ ∃ e, f.Computes e := by
  unfold TemplateField.plain?
  cases hsrc : f.arithmetic? with
  | none => exact Or.inl ⟨_, rfl⟩
  | some src =>
    cases he : Formula.parse src with
    | error message => simp [he]
    | ok e => exact Or.inr ⟨e, src, hsrc, he⟩

theorem formula?_sheet {t : Template} {i : Nat} {e : Expr} :
    t.sheet.formula? i = some e ↔ ∃ f, t.fields[i]? = some f ∧ f.Computes e := by
  cases hf : t.fields[i]? with
  | none => simp [Sheet.formula?, Template.sheet, hf]
  | some f => simp [Sheet.formula?, Template.sheet, hf, TemplateField.computed?_eq_some]

theorem formula?_sheet_of_getElem? {t : Template} {i : Nat} {f : TemplateField}
    (h : t.fields[i]? = some f) : t.sheet.formula? i = f.computed? := by
  simp [Sheet.formula?, Template.sheet, h]

theorem valueAt_plain {t : Template} {i : Nat} {f : TemplateField} (h : t.fields[i]? = some f) :
    valueAt (t.fields.map TemplateField.plain?) i = f.plain? := by
  simp [valueAt, h]

theorem fits_sheet (t : Template) : t.sheet.Fits (t.fields.map TemplateField.plain?) := by
  refine ⟨by simp [Template.sheet], ?_⟩
  intro i e he
  obtain ⟨f, hf, hcomputes⟩ := formula?_sheet.mp he
  rw [valueAt_plain hf, TemplateField.plain?_of_computes hcomputes]

/-! ## The equations -/

/-- The values of the fields agree with their plain defaults and with their formulas over the
values themselves. -/
structure Template.Solves (t : Template) (value : TemplateField → Float) : Prop where
  plain : ∀ f ∈ t.fields, f.arithmetic? = none → value f = f.default.getD 0.0
  /-- a formula that cannot be read counts as zero -/
  unreadable : ∀ f ∈ t.fields, ∀ src message, f.arithmetic? = some src →
    Formula.parse src = .error message → value f = 0.0
  /-- a formula that fails counts as zero -/
  formula : ∀ f ∈ t.fields, ∀ src e, f.arithmetic? = some src → Formula.parse src = .ok e →
    value f = match e.eval (fun name => (t.resolve name).map value) with
      | .ok x => x
      | .error _ => 0.0

/-- The value of a field by its number. -/
def Template.valueIn (t : Template) (values : List (Option Float)) (f : TemplateField) : Float :=
  (valueAt values (t.fields.idxOf f)).getD 0.0

section Solved
variable {t : Template} {values : List (Option Float)}
  (hsolve : t.sheet.solve (t.fields.map TemplateField.plain?) = .ok values)
include hsolve

theorem valueAt_of_plain {i : Nat} {f : TemplateField} {x : Float} (hf : t.fields[i]? = some f)
    (hx : f.plain? = some x) : valueAt values i = some x := by
  have hnone : t.sheet.formula? i = none := by
    rw [formula?_sheet_of_getElem? hf]
    cases he : f.computed? with
    | none => rfl
    | some e =>
      rw [TemplateField.plain?_of_computes (TemplateField.computed?_eq_some.mp he)] at hx
      cases hx
  obtain ⟨-, hkept, -⟩ := (fits_sheet t).of_solve hsolve
  rw [hkept i hnone, valueAt_plain hf, hx]

theorem valueAt_of_computes {i : Nat} {f : TemplateField} {e : Expr} (hf : t.fields[i]? = some f)
    (he : f.Computes e) : valueAt values i = some (t.sheet.evaluate values e) := by
  obtain ⟨-, -, hsolved⟩ := (fits_sheet t).of_solve hsolve
  exact hsolved i e (formula?_sheet.mpr ⟨f, hf, he⟩)

theorem valueAt_known {i : Nat} {f : TemplateField} (hf : t.fields[i]? = some f) :
    ∃ x, valueAt values i = some x := by
  rcases f.plain_or_computes with ⟨x, hx⟩ | ⟨e, he⟩
  · exact ⟨x, valueAt_of_plain hsolve hf hx⟩
  · exact ⟨_, valueAt_of_computes hsolve hf he⟩

theorem valueAt_eq (ht : t.Distinct) {i : Nat} {f : TemplateField} (hf : t.fields[i]? = some f) :
    valueAt values i = some (t.valueIn values f) := by
  obtain ⟨x, hx⟩ := valueAt_known hsolve hf
  simp [Template.valueIn, ht.number_eq hf, hx]

/-- What a formula looks up are the final values. -/
theorem lookup_eq (ht : t.Distinct) (name : String) :
    (KeyTable.find? t.index name).bind (valueAt values) =
      (t.resolve name).map (t.valueIn values) := by
  rw [ht.resolve_eq]
  cases hi : KeyTable.find? t.index name with
  | none => rfl
  | some i =>
    cases hf : t.fields[i]? with
    | some f => simp [valueAt_eq hsolve ht hf, hf]
    | none =>
      obtain ⟨hlen, -, -⟩ := (fits_sheet t).of_solve hsolve
      have hle : t.fields.length ≤ i := List.getElem?_eq_none_iff.mp hf
      have hnone : values[i]? = none := by
        rw [List.getElem?_eq_none_iff, hlen]
        simpa [Template.sheet] using hle
      simp [valueAt, hnone, hf]

theorem solves_of_solve (ht : t.Distinct) : t.Solves (t.valueIn values) := by
  have hvalue {f : TemplateField} {x : Float} (hf : f ∈ t.fields) (hx : f.plain? = some x) :
      t.valueIn values f = x := by
    obtain ⟨i, hi⟩ := List.mem_iff_getElem?.mp hf
    have h := valueAt_eq hsolve ht hi
    rw [valueAt_of_plain hsolve hi hx] at h
    exact (Option.some.inj h).symm
  refine ⟨?_, ?_, ?_⟩
  · intro f hf hnone
    exact hvalue hf (by simp [TemplateField.plain?, hnone])
  · intro f hf src message hsrc hmessage
    exact hvalue hf (by simp [TemplateField.plain?, hsrc, hmessage])
  · intro f hf src e hsrc he
    obtain ⟨i, hi⟩ := List.mem_iff_getElem?.mp hf
    have h := valueAt_eq hsolve ht hi
    rw [valueAt_of_computes hsolve hi ⟨src, hsrc, he⟩] at h
    have hlookup : (fun name => (t.sheet.number? name).bind (valueAt values)) =
        fun name => (t.resolve name).map (t.valueIn values) :=
      funext (lookup_eq hsolve ht)
    have hvalue' := (Option.some.inj h).symm
    rw [Sheet.evaluate, hlookup] at hvalue'
    exact hvalue'

theorem attributes_eq (ht : t.Distinct) : t.fields.zipWith
    (fun f value => (f.display, numberValue (value.getD 0.0))) values =
      t.fields.map (fun f => (f.display, numberValue (t.valueIn values f))) := by
  obtain ⟨hlen, -, -⟩ := (fits_sheet t).of_solve hsolve
  have hlen' : values.length = t.fields.length := by simpa [Template.sheet] using hlen
  refine List.ext_getElem (by simp [hlen']) (fun i hi _ => ?_)
  rw [List.length_zipWith] at hi
  have hf : t.fields[i]? = some t.fields[i] := List.getElem?_eq_getElem (by omega)
  have hvalue := valueAt_eq hsolve ht hf
  rw [valueAt, List.getElem?_eq_getElem (by omega : i < values.length), Option.join_some] at hvalue
  simp [hvalue]

end Solved

theorem defaults_eq_ok {t : Template} {attributes : Fields} (h : t.defaults = .ok attributes) :
    ∃ values, t.sheet.solve (t.fields.map TemplateField.plain?) = .ok values ∧
      attributes = KeyTable.ofList (t.fields.zipWith
        (fun f value => (f.display, numberValue (value.getD 0.0))) values) := by
  unfold Template.defaults at h
  split at h
  · next values hsolve => exact ⟨values, hsolve, (Except.ok.inj h).symm⟩
  · cases h

theorem Template.Distinct.exists_solution {t : Template} (ht : t.Distinct) {attributes : Fields}
    (h : t.defaults = .ok attributes) : ∃ value, t.Solves value ∧ attributes =
      KeyTable.ofList (t.fields.map (fun f => (f.display, numberValue (value f)))) := by
  obtain ⟨values, hsolve, rfl⟩ := defaults_eq_ok h
  exact ⟨t.valueIn values, solves_of_solve hsolve ht, by rw [attributes_eq hsolve ht]⟩

/-- The defaults of a template that was read solve the equations of its fields: every formula
is evaluated over the values that the fields have in the end, and the attributes are these
values under exactly the display names. -/
theorem defaults_solve {text : String} {t : Template} {attributes : Fields}
    (hread : Template.parse text = .ok t) (h : t.defaults = .ok attributes) :
    ∃ value : TemplateField → Float, t.Solves value ∧
      (∀ key, key ∈ KeyTable.keys attributes ↔ ∃ f ∈ t.fields, f.display = key) ∧
      KeyTable.Ordered attributes ∧
      ∀ f ∈ t.fields, KeyTable.find? attributes f.display = some (numberValue (value f)) := by
  have ht := distinct_of_parse hread
  obtain ⟨value, hvalue, rfl⟩ := ht.exists_solution h
  have hkeys : ((t.fields.map (fun f => (f.display, numberValue (value f)))).map (·.1)).Nodup := by
    rw [List.map_map]
    exact ht.displays
  refine ⟨value, hvalue, ?_, KeyTable.ordered_ofList _, ?_⟩
  · intro key
    rw [KeyTable.mem_keys_ofList hkeys]
    simp
  · intro f hf
    exact KeyTable.find?_ofList hkeys (List.mem_map_of_mem hf)

theorem eq_ok_of_toOption {ε α : Type} {result : Except ε α} {a : α}
    (h : result.toOption = some a) : result = .ok a := by
  cases result with
  | error failure => cases h
  | ok b => rw [Option.some.inj h]

/-- A field over a plain one by its alias, and one over it by its display name. -/
def fighter : Template := ⟨"F", [
  ⟨"A", "a", some "js", some "this.B*this.c", none⟩,
  ⟨"B", "b", some "js", some "this.c/2", none⟩,
  ⟨"C", "c", none, none, some 7⟩]⟩

theorem parse_fighter : Template.parse ("<model name=\"F\"><property>" ++
    "<any name=\"A\" alias=\"a\" text=\"js\">this.B*this.c</any>" ++
    "<any name=\"B\" alias=\"b\" text=\"js\">this.c/2</any>" ++
    "<any name=\"C\" alias=\"c\" default=\"7\"/>") = .ok fighter :=
  eq_ok_of_toOption (by decide +kernel)

theorem defaults_fighter :
    fighter.defaults = .ok [("A", .float 24.5), ("B", .float 3.5), ("C", .int 7)] :=
  eq_ok_of_toOption (by decide +kernel)

theorem defaults_solve_fighter : ∃ value : TemplateField → Float, fighter.Solves value ∧
    (∀ key, key ∈ ["A", "B", "C"] ↔ ∃ f ∈ fighter.fields, f.display = key) ∧
    KeyTable.Ordered [("A", Json.float 24.5), ("B", .float 3.5), ("C", .int 7)] ∧
    ∀ f ∈ fighter.fields,
      KeyTable.find? [("A", Json.float 24.5), ("B", .float 3.5), ("C", .int 7)] f.display =
        some (numberValue (value f)) :=
  defaults_solve parse_fighter defaults_fighter

end DiceHost.Plugin
