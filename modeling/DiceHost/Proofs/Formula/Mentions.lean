import DiceHost.Formula.Expr

/-! # The fields a formula reads

`Mentions` says which names occur in a formula. The references are exactly these names,
and the value of a formula depends on the fields under these names only.
-/
namespace DiceHost.Formula
open DiceHost.Decimal

/-- The formula reads a field under this name. -/
def Expr.Mentions (name : String) : Expr → Prop
  | number _ => False
  | field read => read = name
  | neg inner => inner.Mentions name
  | binary _ left right => left.Mentions name ∨ right.Mentions name

theorem mem_addName {names : List String} {name added : String} :
    name ∈ addName names added ↔ name ∈ names ∨ added = name := by
  unfold addName
  split
  · next h =>
    constructor
    · exact Or.inl
    · rintro (h' | rfl)
      · exact h'
      · simpa using h
  · simp [eq_comm]

theorem mem_referencesOnto {e : Expr} {names : List String} {name : String} :
    name ∈ e.referencesOnto names ↔ name ∈ names ∨ e.Mentions name := by
  induction e generalizing names with
  | number x => simp [Expr.referencesOnto, Expr.Mentions]
  | field read => exact mem_addName
  | neg inner ih => exact ih
  | binary op left right ihl ihr =>
    simp only [Expr.referencesOnto, Expr.Mentions, ihr, ihl, or_assoc]

theorem mem_references {e : Expr} {name : String} : name ∈ e.references ↔ e.Mentions name := by
  simp [Expr.references, mem_referencesOnto]

section Lookup
variable {lookup lookup' : String → Option Float}

theorem value_congr {e : Expr} (h : ∀ name, e.Mentions name → lookup name = lookup' name) :
    e.value lookup = e.value lookup' := by
  induction e with
  | number x => rfl
  | field read => simp [Expr.value, h read rfl]
  | neg inner ih => simp only [Expr.value, ih h]
  | binary op left right ihl ihr =>
    have hl := ihl (fun name hm => h name (Or.inl hm))
    have hr := ihr (fun name hm => h name (Or.inr hm))
    simp only [Expr.value, hl, hr]

/-- Two cards that agree on the mentioned fields give a formula the same value, or the same
failure. -/
theorem eval_congr {e : Expr} (h : ∀ name, e.Mentions name → lookup name = lookup' name) :
    e.eval lookup = e.eval lookup' := by
  simp only [Expr.eval, value_congr h]

end Lookup
end DiceHost.Formula
