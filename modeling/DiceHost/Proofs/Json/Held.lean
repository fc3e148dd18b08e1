import DiceHost.Json.Value

/-! # The values the host can hold

`Json` can spell more values than the host has: a held value keeps the fields of every
object in key order, its integers fit a 64-bit range and its floats are finite.
-/
namespace DiceHost.Json
open DiceHost.Decimal

mutual
/-- Every number inside the value satisfies its property. -/
def Numbers (int : Int → Prop) (float : Float → Prop) : Json → Prop
  | .int n => int n
  | .float x => float x
  | .arr items => NumbersItems int float items
  | .obj fields => NumbersFields int float fields
  | _ => True

def NumbersItems (int : Int → Prop) (float : Float → Prop) : List Json → Prop
  | [] => True
  | v :: rest => Numbers int float v ∧ NumbersItems int float rest

def NumbersFields (int : Int → Prop) (float : Float → Prop) : List (String × Json) → Prop
  | [] => True
  | (_, v) :: rest => Numbers int float v ∧ NumbersFields int float rest
end

/-- An integer of one of the 64-bit ranges. -/
def FitsWord (n : Int) : Prop := minInt ≤ n ∧ n ≤ maxNat

/-- A value the host can hold. -/
structure Held (v : Json) : Prop where
  ordered : v.Ordered
  numbers : v.Numbers FitsWord (fun x => isFinite x = true)

section Combine
variable {int int' int'' : Int → Prop} {float float' float'' : Float → Prop}

mutual
/-- What two properties of the numbers give together holds of all of them. -/
theorem Numbers.combine (hint : ∀ n, int n → int' n → int'' n)
    (hfloat : ∀ x, float x → float' x → float'' x) {v : Json} (h : v.Numbers int float)
    (h' : v.Numbers int' float') : v.Numbers int'' float'' := by
  cases v with
  | null | bool | str => trivial
  | int n => exact hint n h h'
  | float x => exact hfloat x h h'
  | arr items => exact NumbersItems.combine hint hfloat h h'
  | obj fields => exact NumbersFields.combine hint hfloat h h'

theorem NumbersItems.combine (hint : ∀ n, int n → int' n → int'' n)
    (hfloat : ∀ x, float x → float' x → float'' x) {items : List Json}
    (h : NumbersItems int float items) (h' : NumbersItems int' float' items) :
    NumbersItems int'' float'' items := by
  cases items with
  | nil => trivial
  | cons v rest =>
    exact ⟨Numbers.combine hint hfloat h.1 h'.1, NumbersItems.combine hint hfloat h.2 h'.2⟩

theorem NumbersFields.combine (hint : ∀ n, int n → int' n → int'' n)
    (hfloat : ∀ x, float x → float' x → float'' x) {fields : List (String × Json)}
    (h : NumbersFields int float fields) (h' : NumbersFields int' float' fields) :
    NumbersFields int'' float'' fields := by
  cases fields with
  | nil => trivial
  | cons field rest =>
    exact ⟨Numbers.combine hint hfloat h.1 h'.1, NumbersFields.combine hint hfloat h.2 h'.2⟩
end

end Combine

/-! ## Item by item -/

theorem orderedItems_iff {items : List Json} : OrderedItems items ↔ ∀ v ∈ items, v.Ordered := by
  induction items with
  | nil => simp [OrderedItems]
  | cons v rest ih => simp [OrderedItems, ih]

theorem orderedFields_iff {fields : List (String × Json)} :
    OrderedFields fields ↔ ∀ field ∈ fields, field.2.Ordered := by
  induction fields with
  | nil => simp [OrderedFields]
  | cons field rest ih => simp only [OrderedFields, ih, List.forall_mem_cons]

section Numbers
variable {int : Int → Prop} {float : Float → Prop}

theorem numbersItems_iff {items : List Json} :
    NumbersItems int float items ↔ ∀ v ∈ items, v.Numbers int float := by
  induction items with
  | nil => simp [NumbersItems]
  | cons v rest ih => simp [NumbersItems, ih]

theorem numbersFields_iff {fields : List (String × Json)} :
    NumbersFields int float fields ↔ ∀ field ∈ fields, field.2.Numbers int float := by
  induction fields with
  | nil => simp [NumbersFields]
  | cons field rest ih => simp only [NumbersFields, ih, List.forall_mem_cons]

end Numbers

theorem depthItems_le {items : List Json} {depth : Nat} :
    depthItems items ≤ depth ↔ ∀ v ∈ items, v.depth ≤ depth := by
  induction items with
  | nil => simp [depthItems]
  | cons v rest ih => simp only [depthItems, Nat.max_le, ih, List.forall_mem_cons]

theorem depthFields_le {fields : List (String × Json)} {depth : Nat} :
    depthFields fields ≤ depth ↔ ∀ field ∈ fields, field.2.depth ≤ depth := by
  induction fields with
  | nil => simp [depthFields]
  | cons field rest ih => simp only [depthFields, Nat.max_le, ih, List.forall_mem_cons]

end DiceHost.Json
