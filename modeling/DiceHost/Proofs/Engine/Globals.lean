import DiceHost.Engine.Run
import DiceHost.Proofs.KeyTable
import Mathlib.Data.List.Induction

/-! # Tables with text keys and global variables

What a table gives for a text key after another entry is stored, and from there the global
variables of an engine that has run nothing.
-/
namespace DiceHost.Engine
open DiceHost.Text DiceHost.Script

theorem getText_eq (t : Table) (name : String) :
    t.getText name = (t.fields[Key.str name.toUTF8]?).getD .nil := rfl

theorem get_empty (key : Bytes) : ({} : Table).get (.str key) = .nil := by
  simp [Table.get, Value.key?, Table.getKey]

theorem get_setText (t : Table) (name : String) (key : Bytes) (v : Value) :
    (t.setText name v).get (.str key) = if key = name.toUTF8 then v else t.get (.str key) := by
  have hget (t : Table) : t.get (.str key) = (t.fields[Key.str key]?).getD .nil := rfl
  by_cases hkey : key = name.toUTF8
  · subst hkey
    rw [hget, if_pos rfl]
    unfold Table.setText Table.setKey Table.setField
    cases v with
    | nil => simp
    | _ =>
      dsimp only
      split <;> simp
  · have hne : ¬ (Key.str name.toUTF8 == Key.str key) = true := by
      rw [beq_iff_eq]
      exact fun heq => hkey (Key.str.inj heq).symm
    rw [hget, hget, if_neg hkey]
    unfold Table.setText Table.setKey Table.setField
    cases v with
    | nil =>
      dsimp only
      rw [Std.HashMap.getElem?_erase, if_neg hne]
    | _ =>
      dsimp only
      split <;> rw [Std.HashMap.getElem?_insert, if_neg hne]

theorem getText_setText (t : Table) (name other : String) (v : Value) :
    (t.setText name v).getText other = if other = name then v else t.getText other := by
  have hget (t : Table) : t.getText other = t.get (.str other.toUTF8) := rfl
  rw [hget, hget, get_setText]
  by_cases hname : other = name
  · rw [if_pos hname, if_pos (congrArg String.toUTF8 hname)]
  · have hbytes : other.toUTF8 ≠ name.toUTF8 := fun heq => hname (String.toByteArray_inj.mp heq)
    rw [if_neg hname, if_neg hbytes]

theorem metatable_setText (t : Table) (name : String) (v : Value) :
    (t.setText name v).metatable = t.metatable := by
  unfold Table.setText Table.setKey Table.setField
  dsimp only
  split
  · rfl
  · split <;> rfl

theorem getText_tableOf (entries : List (String × Value)) (name : String) :
    (tableOf entries).getText name = (KeyTable.find? entries.reverse name).getD .nil := by
  induction entries using List.reverseRecOn with
  | nil => simp [tableOf, getText_eq]
  | append_singleton rest entry ih =>
    have hstep : tableOf (rest ++ [entry]) = (tableOf rest).setText entry.1 entry.2 := by
      simp [tableOf]
    rw [hstep, getText_setText, ih, List.reverse_append, List.reverse_singleton,
      List.singleton_append, KeyTable.find?_cons]
    split <;> rfl

theorem metatable_tableOf (entries : List (String × Value)) :
    (tableOf entries).metatable = none := by
  induction entries using List.reverseRecOn with
  | nil => rfl
  | append_singleton rest entry ih =>
    have hstep : tableOf (rest ++ [entry]) = (tableOf rest).setText entry.1 entry.2 := by
      simp [tableOf]
    rw [hstep, metatable_setText, ih]

def globalEntries : List (String × Value) :=
  baseLibrary ++ [("loadLua", .builtin .loadScript)] ++
    [("_G", .table 0), ("string", .table 2), ("table", .table 3), ("math", .table 4),
      ("dice", .table 5), ("utf8", .table 6), ("coroutine", .table 7)]

theorem globals_start (limits : Limits) :
    (State.start limits).table State.globals = tableOf globalEntries := by
  simp only [State.table, State.start, State.globals, globalEntries, List.getElem?_toArray,
    List.getElem?_cons_zero, Option.getD_some, List.map_cons, List.map_nil]

/-- The value of a global variable. -/
def State.globalValue (s : State) (name : String) : Value := (s.table State.globals).getText name

theorem globalValue_rawSet {s : State} (hsize : State.globals < s.tables.size) (name other : String)
    (v : Value) : (s.rawSet State.globals (.ofString name) v).globalValue other =
      if other = name then v else s.globalValue other := by
  have htable : (s.rawSet State.globals (.ofString name) v).table State.globals =
      (s.table State.globals).setText name v := by
    show ((s.tables.modify State.globals _)[State.globals]?).getD {} = _
    rw [Array.getElem?_modify, State.table, Array.getElem?_eq_getElem hsize]
    rfl
  rw [State.globalValue, htable, getText_setText, State.globalValue]

theorem globalValue_start (limits : Limits) (name : String) :
    (State.start limits).globalValue name =
      (KeyTable.find? globalEntries.reverse name).getD .nil := by
  rw [State.globalValue, globals_start, getText_tableOf]

theorem atom?_global {s : State} {env : Env} {name : String}
    (h : Table.isNil (s.globalValue name) = false) :
    atom? s env (.global name.toUTF8) = some (s.globalValue name) := by
  unfold State.globalValue Table.getText at h ⊢
  simp only [atom?]
  split
  · next hnil =>
    rw [hnil] at h
    cases h
  · rfl

end DiceHost.Engine
