import DiceHost.Proofs.KeyTable
import DiceHost.Proofs.Store.Cards

/-! # Keyed data in two stores

Tables of values by owner and a table of data rows hold the same data. A row has a place of its
own, so the rows of an owner, put in the order of their keys, are the table of this owner.
-/
namespace DiceHost
variable {γ : Type}

/-- Two rows of one place. -/
def DataRow.Same (a b : DataRow γ) : Prop := a.scope = b.scope ∧ a.id = b.id ∧ a.key = b.key

theorem DataRow.Same.symm (a b : DataRow γ) (h : a.Same b) : b.Same a :=
  ⟨h.1.symm, h.2.1.symm, h.2.2.symm⟩

theorem DataRow.isAt_iff {scope : DataScope} {id key : String} {row : DataRow γ} :
    row.isAt scope id key = true ↔ row.scope = scope ∧ row.id = id ∧ row.key = key :=
  decide_eq_true_iff

theorem DataRow.same_of_isAt {scope : DataScope} {id key : String} {a b : DataRow γ}
    (ha : a.isAt scope id key = true) (hb : b.isAt scope id key = true) : a.Same b := by
  obtain ⟨hscope, hid, hkey⟩ := isAt_iff.mp ha
  obtain ⟨hscope', hid', hkey'⟩ := isAt_iff.mp hb
  exact ⟨hscope.trans hscope'.symm, hid.trans hid'.symm, hkey.trans hkey'.symm⟩

/-- A row is at one place only. -/
theorem DataRow.place_eq {scope scope' : DataScope} {id id' key key' : String} {row : DataRow γ}
    (h : row.isAt scope id key = true) (h' : row.isAt scope' id' key' = true) :
    scope' = scope ∧ id' = id ∧ key' = key := by
  obtain ⟨rfl, rfl, rfl⟩ := isAt_iff.mp h
  obtain ⟨rfl, rfl, rfl⟩ := isAt_iff.mp h'
  exact ⟨rfl, rfl, rfl⟩

/-- With one row of a place it makes no difference from which end the rows are searched. -/
theorem find?_reverse {rows : List (DataRow γ)} (h : rows.Pairwise (fun a b => ¬ a.Same b))
    (scope : DataScope) (id key : String) :
    rows.reverse.find? (DataRow.isAt scope id key) = rows.find? (DataRow.isAt scope id key) := by
  refine find?_eq_of_perm (List.reverse_perm rows) (h.imp ?_)
  intro a b hne hboth
  exact hne (DataRow.same_of_isAt hboth.1 hboth.2)

variable [Column γ] {p : Json → Prop}

/-- A table of rows holds the values of all owners, and they are such as columns hold. -/
structure DataMatch (p : Json → Prop) (rows : List (DataRow γ))
    (values : DataScope → String → Fields) : Prop where
  found : ∀ scope id key, (rows.find? (DataRow.isAt scope id key)).map DataRow.value =
    (KeyTable.find? (values scope id) key).map Column.encode
  distinct : rows.Pairwise (fun a b => ¬ a.Same b)
  suits : ∀ scope id, KeyTable.Suits p (values scope id)

/-- The value of a row of an owner, under its key. -/
def DataRow.pair? (scope : DataScope) (id : String) (row : DataRow γ) : Option (String × Json) :=
  if row.scope = scope ∧ row.id = id then (Column.decode row.value).map (row.key, ·) else none

/-- With one row of a place, what is found under a key is the value of its row, if that can be
read. -/
theorem find?_entries {rows : List (DataRow γ)} (h : rows.Pairwise (fun a b => ¬ a.Same b))
    (scope : DataScope) (id key : String) :
    KeyTable.find? (rows.filterMap (DataRow.pair? scope id)) key =
      (rows.find? (DataRow.isAt scope id key)).bind (fun row => Column.decode row.value) := by
  induction rows with
  | nil => rfl
  | cons row rest ih =>
    obtain ⟨hfirst, hrest⟩ := List.pairwise_cons.mp h
    by_cases hat : row.isAt scope id key = true
    · obtain ⟨hscope, hid, hkey⟩ := DataRow.isAt_iff.mp hat
      rw [List.find?_cons_of_pos hat, Option.bind_some, List.filterMap_cons, DataRow.pair?,
        if_pos ⟨hscope, hid⟩]
      cases hdecode : Column.decode row.value with
      | some value => simp [KeyTable.find?_cons, hkey]
      | none =>
        -- no other row has this place, so nothing stands in for one that cannot be read
        have hnone : rest.find? (DataRow.isAt scope id key) = none := by
          refine List.find?_eq_none.mpr (fun other hother hotherAt => ?_)
          exact hfirst other hother (DataRow.same_of_isAt hat hotherAt)
        rw [Option.map_none, ih hrest, hnone]
        rfl
    · rw [List.find?_cons_of_neg hat, ← ih hrest, List.filterMap_cons, DataRow.pair?]
      by_cases howner : row.scope = scope ∧ row.id = id
      · have hkey : key ≠ row.key := fun hkey =>
          hat (DataRow.isAt_iff.mpr ⟨howner.1, howner.2, hkey.symm⟩)
        rw [if_pos howner]
        cases Column.decode row.value with
        | some value => simp [KeyTable.find?_cons, hkey]
        | none => rfl
      · rw [if_neg howner]

/-- The same for the table of all rows of an owner. -/
theorem find?_ofList_entries {rows : List (DataRow γ)}
    (h : rows.Pairwise (fun a b => ¬ a.Same b)) (scope : DataScope) (id key : String) :
    KeyTable.find? (KeyTable.ofList (rows.filterMap (DataRow.pair? scope id))) key =
      (rows.find? (DataRow.isAt scope id key)).bind (fun row => Column.decode row.value) := by
  have hreverse : rows.reverse.Pairwise (fun a b => ¬ a.Same b) :=
    List.pairwise_reverse.mpr (h.imp (fun hne hsame => hne (DataRow.Same.symm _ _ hsame)))
  rw [KeyTable.ofList, KeyTable.find?_insertAll, KeyTable.find?_nil, Option.or_none,
    ← List.filterMap_reverse, find?_entries hreverse, find?_reverse h]

namespace DataMatch
variable {rows : List (DataRow γ)} {values : DataScope → String → Fields}
  (h : DataMatch p rows values)

theorem nil : DataMatch p ([] : List (DataRow γ)) (fun _ _ => []) :=
  ⟨fun _ _ _ => rfl, List.Pairwise.nil, fun _ _ => KeyTable.Suits.nil⟩

include h

theorem find?_self {row : DataRow γ} (hrow : row ∈ rows) :
    rows.find? (DataRow.isAt row.scope row.id row.key) = some row := by
  cases hfind : rows.find? (DataRow.isAt row.scope row.id row.key) with
  | none =>
    have hnone := List.find?_eq_none.mp hfind row hrow
    exact absurd (DataRow.isAt_iff.mpr ⟨rfl, rfl, rfl⟩) hnone
  | some other =>
    have hsame : other.Same row := DataRow.isAt_iff.mp (List.find?_some hfind)
    rw [eq_of_pairwise_not DataRow.Same.symm h.distinct (List.mem_of_find?_eq_some hfind) hrow
      hsame]

variable (hfaithful : Column.Faithful γ p)
include hfaithful

/-- What is found under a key is a value that columns hold. -/
theorem decode_value (scope : DataScope) (id key : String) :
    ∀ v ∈ KeyTable.find? (values scope id) key, Column.decode (Column.encode v : γ) = some v :=
  fun _ hv => hfaithful.value ((h.suits scope id).values _ (KeyTable.mem_of_find? hv))

theorem readable {row : DataRow γ} (hrow : row ∈ rows) :
    ∃ v, Column.decode row.value = some v := by
  have hfound := h.found row.scope row.id row.key
  rw [h.find?_self hrow, Option.map_some] at hfound
  obtain ⟨v, hkept, hv⟩ := Option.map_eq_some_iff.mp hfound.symm
  exact ⟨v, by rw [← hv, h.decode_value hfaithful _ _ _ v hkept]⟩

theorem decode_found (scope : DataScope) (id key : String) :
    (rows.find? (DataRow.isAt scope id key)).bind (fun row => Column.decode row.value) =
      KeyTable.find? (values scope id) key := by
  have hfound := congrArg (fun column => column.bind Column.decode) (h.found scope id key)
  simp only [Option.bind_map, Function.comp_def] at hfound
  rw [hfound]
  cases hkept : KeyTable.find? (values scope id) key with
  | none => rfl
  | some v => exact h.decode_value hfaithful scope id key v hkept

theorem value_eq (scope : DataScope) (id key : String) :
    Database.decodeFound (fun row => Column.decodeWith some row.value)
      (rows.find? (DataRow.isAt scope id key)) = .ok (KeyTable.find? (values scope id) key) := by
  rw [← h.decode_found hfaithful]
  cases hfind : rows.find? (DataRow.isAt scope id key) with
  | none => rfl
  | some row =>
    obtain ⟨v, hv⟩ := h.readable hfaithful (List.mem_of_find?_eq_some hfind)
    simp only [Database.decodeFound, Column.decodeWith, hv, Option.bind_some]
    rfl

theorem values_eq (scope : DataScope) (id : String) :
    KeyTable.ofList (rows.filterMap (DataRow.pair? scope id)) = values scope id := by
  refine (KeyTable.ordered_ofList _).ext (h.suits scope id).ordered (fun key => ?_)
  rw [find?_ofList_entries h.distinct, h.decode_found hfaithful]

end DataMatch

/-! ## Writing a value -/

section Put
variable (d : Database γ) (scope : DataScope) (id key : String) (column : γ)

omit [Column γ] in
/-- A column that was put is found at its place, and the other places are as before. -/
theorem find?_putColumn (scope' : DataScope) (id' key' : String) :
    ((d.putColumn scope id key column).data.find? (DataRow.isAt scope' id' key')).map
        DataRow.value =
      if scope' = scope ∧ id' = id ∧ key' = key then some column
      else (d.data.find? (DataRow.isAt scope' id' key')).map DataRow.value := by
  unfold Database.putColumn Database.dataRow?
  cases hold : d.data.find? (DataRow.isAt scope id key) with
  | none =>
    simp only [Option.isSome_none, Bool.false_eq_true, if_false, List.find?_append]
    by_cases hsame : scope' = scope ∧ id' = id ∧ key' = key
    · obtain ⟨rfl, rfl, rfl⟩ := hsame
      simp [hold, DataRow.isAt]
    · have hat : (DataRow.isAt scope' id' key' ⟨scope, id, key, column⟩) = false := by
        have hnew : (⟨scope, id, key, column⟩ : DataRow γ).isAt scope id key = true :=
          DataRow.isAt_iff.mpr ⟨rfl, rfl, rfl⟩
        exact Bool.eq_false_iff.mpr (fun hat => hsame (DataRow.place_eq hnew hat))
      simp [hsame, hat]
  | some row =>
    simp only [Option.isSome_some, if_true, List.find?_map]
    have hcomp : DataRow.isAt scope' id' key' ∘
        (fun row : DataRow γ => if row.isAt scope id key then { row with value := column } else row)
        = DataRow.isAt scope' id' key' := by
      funext row
      simp only [Function.comp_apply]
      split <;> rfl
    rw [hcomp]
    by_cases hsame : scope' = scope ∧ id' = id ∧ key' = key
    · obtain ⟨rfl, rfl, rfl⟩ := hsame
      rw [hold, if_pos ⟨rfl, rfl, rfl⟩]
      simp [List.find?_some hold]
    · rw [if_neg hsame]
      cases hfind : d.data.find? (DataRow.isAt scope' id' key') with
      | none => rfl
      | some found =>
        have hat : found.isAt scope id key = false :=
          Bool.eq_false_iff.mpr (fun hat => hsame (DataRow.place_eq hat (List.find?_some hfind)))
        simp [hat]

omit [Column γ] in
theorem distinct_putColumn (h : d.data.Pairwise (fun a b => ¬ a.Same b)) :
    (d.putColumn scope id key column).data.Pairwise (fun a b => ¬ a.Same b) := by
  unfold Database.putColumn Database.dataRow?
  cases hold : d.data.find? (DataRow.isAt scope id key) with
  | none =>
    simp only [Option.isSome_none, Bool.false_eq_true, if_false]
    refine List.pairwise_append.mpr ⟨h, List.pairwise_singleton _ _, ?_⟩
    intro row hrow new hnew hsame
    rw [List.mem_singleton.mp hnew] at hsame
    exact List.find?_eq_none.mp hold row hrow (DataRow.isAt_iff.mpr hsame)
  | some row =>
    simp only [Option.isSome_some, if_true]
    refine List.pairwise_map.mpr (h.imp ?_)
    intro a b hne hsame
    have hplace (row : DataRow γ) :
        (if row.isAt scope id key then { row with value := column } else row).Same row := by
      split <;> exact ⟨rfl, rfl, rfl⟩
    obtain ⟨hascope, haid, hakey⟩ := hplace a
    obtain ⟨hbscope, hbid, hbkey⟩ := hplace b
    obtain ⟨hscope, hid, hkey⟩ := hsame
    exact hne ⟨hascope.symm.trans (hscope.trans hbscope), haid.symm.trans (hid.trans hbid),
      hakey.symm.trans (hkey.trans hbkey)⟩

end Put

theorem DataMatch.put {d : Database γ} {values values' : DataScope → String → Fields}
    (h : DataMatch p d.data values) (scope : DataScope) (id key : String) {value : Json}
    (hsuits : p value) (hvalues : ∀ scope' id', values' scope' id' =
      if scope' = scope ∧ id' = id then KeyTable.insert key value (values scope id)
      else values scope' id') :
    DataMatch p (d.putColumn scope id key (Column.encode value)).data values' := by
  refine ⟨fun scope' id' key' => ?_, distinct_putColumn d scope id key _ h.distinct, ?_⟩
  · rw [find?_putColumn, hvalues]
    by_cases howner : scope' = scope ∧ id' = id
    · obtain ⟨rfl, rfl⟩ := howner
      have hown : scope' = scope' ∧ id' = id' := ⟨rfl, rfl⟩
      rw [if_pos hown, KeyTable.find?_insert]
      by_cases hkey : key' = key
      · rw [if_pos ⟨rfl, rfl, hkey⟩, if_pos hkey]
        rfl
      · rw [if_neg (fun hsame => hkey hsame.2.2), if_neg hkey, h.found]
    · rw [if_neg howner, if_neg (fun hsame => howner ⟨hsame.1, hsame.2.1⟩), h.found]
  · intro scope' id'
    rw [hvalues]
    split
    · exact (h.suits scope id).insert key hsuits
    · exact h.suits scope' id'

/-- A value that was written is found under its key, and nothing else has changed. -/
theorem values_setValue (m : Memory) (scope : DataScope) (id key : String) (value : Json)
    (scope' : DataScope) (id' : String) : (m.setValue scope id key value).values scope' id' =
      if scope' = scope ∧ id' = id then KeyTable.insert key value (m.values scope id)
      else m.values scope' id' := by
  have hdata : (m.setValue scope id key value).data scope' = if scope' = scope then
      KeyTable.insert id (KeyTable.insert key value (m.values scope id)) (m.data scope)
      else m.data scope' := by
    cases scope <;> cases scope' <;> rfl
  rw [Memory.values, hdata]
  by_cases hscope : scope' = scope
  · subst hscope
    rw [if_pos rfl, KeyTable.find?_insert]
    by_cases hid : id' = id
    · rw [if_pos hid, if_pos ⟨rfl, hid⟩]
      rfl
    · rw [if_neg hid, if_neg (fun hsame => hid hsame.2)]
      rfl
  · rw [if_neg hscope, if_neg (fun hsame => hscope hsame.1)]
    rfl

end DiceHost
