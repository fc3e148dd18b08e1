import DiceHost.Proofs.Store.Operations

/-! # Cells of keyed data

Keyed data stands in cells, one for a place. A write goes into the cell of its place and leaves
everything else alone, and a read gives what the cell reads as.
-/
namespace DiceHost

/-- Where a value of keyed data stands. -/
structure Place where
  scope : DataScope
  id : String
  key : String
deriving DecidableEq, Repr

def Write.place (write : Write) : Place := ⟨write.scope, write.id, write.key⟩

/-- The value of a cell; a cell that cannot be read is a failure. -/
def readCell {κ : Type} (read : κ → Option Json) : Option κ → Except Failure (Option Json)
  | none => .ok none
  | some cell =>
    match read cell with
    | some value => .ok (some value)
    | none => .error Column.unreadable

/-- A store that keeps its data in cells. -/
class CellStore (σ : Type) (κ : outParam Type) [Store σ] where
  cell? : σ → Place → Option κ
  ofValue : Json → κ
  read : κ → Option Json
  /-- the store after a write -/
  put : σ → Write → σ
  /-- the store without its keyed data -/
  rest : σ → σ
  setValue_run (s : σ) (write : Write) :
    (Store.setValue write.scope write.id write.key write.value : Action σ Unit) s =
      (.ok (), put s write)
  value?_run (s : σ) (place : Place) :
    (Store.value? place.scope place.id place.key : Action σ (Option Json)) s =
      (readCell read (cell? s place), s)
  cell?_put (s : σ) (write : Write) (place : Place) :
    cell? (put s write) place =
      if place = write.place then some (ofValue write.value) else cell? s place
  rest_put (s : σ) (write : Write) : rest (put s write) = rest s
  /-- every place has one cell, and it can be read -/
  Sound : σ → Prop
  isSome_read {s : σ} (h : Sound s) {place : Place} {cell : κ} (hcell : cell? s place = some cell) :
    (read cell).isSome
  values_run {s : σ} (h : Sound s) (scope : DataScope) (id : String) :
    ∃ fields, (Store.values scope id : Action σ Fields) s = (.ok fields, s) ∧
      ∀ key, KeyTable.find? fields key = (cell? s ⟨scope, id, key⟩).bind read

/-! ## Memory -/

instance : CellStore Memory Json where
  cell? m place := m.value? place.scope place.id place.key
  ofValue value := value
  read := some
  put m write := m.setValue write.scope write.id write.key write.value
  rest m := { m with groups := [], users := [] }
  setValue_run m write := rfl
  value?_run m place := by
    have hread (found : Option Json) : readCell some found = .ok found := by
      cases found <;> rfl
    rw [hread]
    rfl
  cell?_put m write place := by
    obtain ⟨scope, id, key⟩ := place
    rw [Memory.value?, values_setValue]
    by_cases howner : scope = write.scope ∧ id = write.id
    · obtain ⟨rfl, rfl⟩ := howner
      rw [if_pos ⟨rfl, rfl⟩, KeyTable.find?_insert]
      by_cases hkey : key = write.key
      · simp [Write.place, hkey]
      · simp [Write.place, hkey, Memory.value?]
    · rw [if_neg howner, if_neg ?_]
      · rfl
      · intro hplace
        obtain ⟨hscope, hid, -⟩ := Place.mk.inj hplace
        exact howner ⟨hscope, hid⟩
  rest_put m write := by
    obtain ⟨scope, id, key, value⟩ := write
    cases scope <;> rfl
  Sound _ := True
  isSome_read _ _ _ _ := rfl
  values_run {m} _ scope id := ⟨m.values scope id, rfl, fun key => (Option.bind_fun_some _).symm⟩

/-! ## Tables -/

section Tables
variable {γ : Type} [Column γ]

/-- Every place has one row at most, and every column can be read. -/
structure Database.Legible (d : Database γ) : Prop where
  distinct : d.data.Pairwise (fun a b => ¬ a.Same b)
  readable : ∀ row ∈ d.data, ∃ value, Column.decode row.value = some value

theorem Database.legible_empty : ({} : Database γ).Legible where
  distinct := List.Pairwise.nil
  readable row hrow := by cases hrow

theorem Database.find?_values {d : Database γ} (h : d.data.Pairwise (fun a b => ¬ a.Same b))
    (scope : DataScope) (id key : String) : KeyTable.find? (d.values scope id) key =
      (d.data.find? (DataRow.isAt scope id key)).bind (fun row => Column.decode row.value) :=
  find?_ofList_entries h scope id key

instance : CellStore (Database γ) γ where
  cell? d place := (d.dataRow? place.scope place.id place.key).map DataRow.value
  ofValue := Column.encode
  read := Column.decode
  put d write := d.putColumn write.scope write.id write.key (Column.encode write.value)
  rest d := { d with data := [] }
  setValue_run d write := rfl
  value?_run d place := by
    have hread : readCell Column.decode
        ((d.dataRow? place.scope place.id place.key).map DataRow.value) =
          d.value? place.scope place.id place.key := by
      rw [Database.value?]
      cases d.dataRow? place.scope place.id place.key with
      | none => rfl
      | some row =>
        rw [Option.map_some, readCell, Database.decodeFound, Column.decodeWith,
          Option.bind_fun_some]
        cases Column.decode row.value <;> rfl
    rw [hread]
    exact run_readingOrFail _ d
  cell?_put d write place := by
    obtain ⟨scope, id, key⟩ := place
    rw [Database.dataRow?, find?_putColumn, Database.dataRow?]
    by_cases hplace : scope = write.scope ∧ id = write.id ∧ key = write.key
    · obtain ⟨rfl, rfl, rfl⟩ := hplace
      simp [Write.place]
    · rw [if_neg hplace, if_neg ?_]
      intro heq
      exact hplace (Place.mk.inj heq)
  rest_put d write := by
    unfold Database.putColumn
    split <;> rfl
  Sound := Database.Legible
  isSome_read {d} h {place} {cell} hcell := by
    obtain ⟨row, hrow, rfl⟩ := Option.map_eq_some_iff.mp hcell
    obtain ⟨value, hvalue⟩ := h.readable row (List.mem_of_find?_eq_some hrow)
    rw [hvalue]
    rfl
  values_run {d} h scope id := by
    refine ⟨d.values scope id, rfl, fun key => ?_⟩
    rw [Database.find?_values h.distinct, Option.bind_map]
    rfl

end Tables
end DiceHost
