import DiceHost.Engine.Exchange
import DiceHost.Proofs.Engine.Globals

/-! # Host values as tables

Making the script value of a host value puts new tables behind those that are there. The table of
an object has the script value of each field under its name, nothing for a null, and nothing
under any other key.
-/
namespace DiceHost.Engine

/-! ## The heap grows -/

/-- The tables of a state are the first ones of another. -/
def Extends (s t : State) : Prop := ∃ later, t.tables = s.tables ++ later

section Extends
variable {s t u : State}

theorem Extends.refl (s : State) : Extends s s := ⟨#[], Array.append_empty.symm⟩

theorem Extends.trans (h : Extends s t) (h' : Extends t u) : Extends s u := by
  obtain ⟨later, hlater⟩ := h
  obtain ⟨later', hlater'⟩ := h'
  exact ⟨later ++ later', by rw [hlater', hlater, Array.append_assoc]⟩

theorem Extends.table (h : Extends s t) {id : Nat} (hid : id < s.tables.size) :
    t.table id = s.table id := by
  obtain ⟨later, hlater⟩ := h
  rw [State.table, hlater, Array.getElem?_append_left hid, State.table]

theorem Extends.size_le (h : Extends s t) : s.tables.size ≤ t.tables.size := by
  obtain ⟨later, hlater⟩ := h
  rw [hlater, Array.size_append]
  exact Nat.le_add_right _ _

theorem extends_allocate (s : State) (new : Table) : Extends s (s.allocate new).1 :=
  ⟨#[new], rfl⟩

end Extends

mutual
theorem extends_ofJson (s : State) : (v : Json) → Extends s (ofJson s v).1
  | .null => .refl s
  | .bool _ => .refl s
  | .int _ => .refl s
  | .float _ => .refl s
  | .str _ => .refl s
  | .arr items => by
    rw [ofJson]
    exact (extends_ofItems s {} items).trans (extends_allocate _ _)
  | .obj fields => by
    rw [ofJson]
    exact (extends_ofFields s {} fields).trans (extends_allocate _ _)

theorem extends_ofItems (s : State) (t : Table) : (items : List Json) → Extends s (ofItems s t items).1
  | [] => .refl s
  | v :: rest => by
    rw [ofItems]
    exact (extends_ofJson s v).trans (extends_ofItems _ _ rest)

theorem extends_ofFields (s : State) (t : Table) :
    (fields : List (String × Json)) → Extends s (ofFields s t fields).1
  | [] => .refl s
  | (_, v) :: rest => by
    rw [ofFields]
    exact (extends_ofJson s v).trans (extends_ofFields _ _ rest)
end

/-! ## Fields -/

/-- The script value was made from the host value, with the tables that this takes. -/
def MadeFrom (s : State) (v : Json) (x : Value) : Prop :=
  ∃ before, Extends (ofJson before v).1 s ∧ (ofJson before v).2 = x

theorem MadeFrom.extends {s t : State} {v : Json} {x : Value} (h : MadeFrom s v x)
    (hst : Extends s t) : MadeFrom t v x := by
  obtain ⟨before, hbefore, hx⟩ := h
  exact ⟨before, hbefore.trans hst, hx⟩

theorem madeFrom_null (s : State) : MadeFrom s .null .nil := ⟨s, .refl s, rfl⟩

/-- Only null becomes nil. -/
theorem MadeFrom.isNil_eq {s : State} {v : Json} {x : Value} (h : MadeFrom s v x) (hv : v ≠ .null) :
    Table.isNil x = false := by
  obtain ⟨before, -, rfl⟩ := h
  cases v with
  | null => exact absurd rfl hv
  | int n =>
    rw [ofJson, numberOfInt]
    split <;> rfl
  | _ => rw [ofJson]; rfl

section Fields
variable {s : State} {t : Table} {fields : Fields}

theorem metatable_ofFields (s : State) (t : Table) (fields : Fields) :
    (ofFields s t fields).2.metatable = t.metatable := by
  induction fields generalizing s t with
  | nil => rfl
  | cons field rest ih =>
    obtain ⟨name, v⟩ := field
    rw [ofFields]
    exact (ih _ _).trans (metatable_setText _ _ _)

theorem get_ofFields_of_notMem {key : Bytes} (h : ∀ field ∈ fields, key ≠ field.1.toUTF8) :
    (ofFields s t fields).2.get (.str key) = t.get (.str key) := by
  induction fields generalizing s t with
  | nil => rfl
  | cons field rest ih =>
    obtain ⟨hfirst, hrest⟩ := List.forall_mem_cons.mp h
    obtain ⟨name, v⟩ := field
    rw [ofFields, ih hrest, get_setText, if_neg hfirst]

theorem madeFrom_ofFields (hnames : (KeyTable.keys fields).Nodup) {name : String} {v : Json}
    (h : (name, v) ∈ fields) :
    MadeFrom (ofFields s t fields).1 v ((ofFields s t fields).2.getText name) := by
  induction fields generalizing s t with
  | nil => cases h
  | cons field rest ih =>
    obtain ⟨hfresh, hrest⟩ := List.nodup_cons.mp hnames
    rcases List.mem_cons.mp h with rfl | hlast
    · rw [ofFields]
      have hlater : ∀ field ∈ rest, name.toUTF8 ≠ field.1.toUTF8 := by
        intro field hfield heq
        have hname : field.1 ∈ KeyTable.keys rest := List.mem_map_of_mem hfield
        exact hfresh (String.toByteArray_inj.mp heq ▸ hname)
      refine ⟨s, extends_ofFields _ _ rest, ?_⟩
      exact ((get_ofFields_of_notMem hlater).trans
        ((get_setText _ _ _ _).trans (if_pos rfl))).symm
    · rw [ofFields]
      exact ih hrest hlast

end Fields

end DiceHost.Engine
