import DiceHost.KeyTable
import Mathlib.Data.List.Sort
import Mathlib.Data.String.Basic

/-! # Laws of tables ordered by a text key

What a lookup finds after an insertion or an erasure, for any table; and what the
strict order of the keys adds: entries are determined by their keys, and inserting
the entries of an ordered table one after another gives the table back.
-/
namespace DiceHost.KeyTable
variable {α β : Type}

@[simp] theorem find?_nil (key : String) : find? ([] : KeyTable α) key = none := rfl

@[simp] theorem find?_cons (entry : String × α) (table : KeyTable α) (key : String) :
    find? (entry :: table) key = if key = entry.1 then some entry.2 else find? table key := by
  obtain ⟨first, value⟩ := entry
  by_cases h : key = first
  · simp [find?, h]
  · have hb : (key == first) = false := beq_eq_false_iff_ne.mpr h
    simp [find?, List.lookup_cons, hb, h]

@[simp] theorem find?_insert_self (key : String) (value : α) (table : KeyTable α) :
    find? (insert key value table) key = some value := by
  induction table with
  | nil => simp [insert]
  | cons entry rest ih =>
    unfold insert
    split
    · simp
    · split
      · simp
      · next hne => simpa [hne] using ih

theorem find?_insert_of_ne {key other : String} (h : other ≠ key) (value : α)
    (table : KeyTable α) : find? (insert key value table) other = find? table other := by
  induction table with
  | nil => simp [insert, h]
  | cons entry rest ih =>
    unfold insert
    split
    · simp [h]
    · split
      · next heq => simp [h, ← heq]
      · simp [ih]

theorem find?_insert (key other : String) (value : α) (table : KeyTable α) :
    find? (insert key value table) other =
      if other = key then some value else find? table other := by
  by_cases h : other = key
  · subst h; simp
  · simp [h, find?_insert_of_ne h]

theorem insert_insert (key : String) (value : α) (table : KeyTable α) :
    insert key value (insert key value table) = insert key value table := by
  induction table with
  | nil => simp [insert]
  | cons entry rest ih =>
    by_cases hlt : key < entry.1
    · simp [insert, hlt]
    · by_cases heq : key = entry.1
      · simp [insert, heq]
      · simp [insert, hlt, heq, ih]

/-- What is there goes before the new entry. -/
theorem find?_insertNew (key other : String) (value : α) (table : KeyTable α) :
    find? (insertNew key value table) other =
      (find? table other).or (if other = key then some value else none) := by
  unfold insertNew contains
  by_cases h : other = key
  · subst h
    cases hfound : find? table other with
    | none => simp
    | some found => simp [hfound]
  · rw [if_neg h, Option.or_none]
    split
    · rfl
    · exact find?_insert_of_ne h value table

theorem find?_erase (table : KeyTable α) (key other : String) :
    find? (erase table key) other = if other = key then none else find? table other := by
  induction table with
  | nil => simp [erase]
  | cons entry rest ih =>
    simp only [erase, List.filter_cons, bne_iff_ne, ne_eq] at ih ⊢
    by_cases hk : entry.1 = key
    · by_cases ho : other = key
      · simpa [hk, ho] using ih
      · simpa [hk, ho] using ih
    · by_cases ho : other = key
      · have hne : key ≠ entry.1 := fun h => hk h.symm
        simpa [hk, ho, hne] using ih
      · by_cases hother : other = entry.1
        · simp [hk, hother]
        · simpa [hk, ho, hother] using ih

theorem mem_of_find? {table : KeyTable α} {key : String} {value : α}
    (h : find? table key = some value) : (key, value) ∈ table := by
  induction table with
  | nil => simp at h
  | cons entry rest ih =>
    rw [find?_cons] at h
    split at h
    · next hk =>
      cases h
      subst hk
      exact List.mem_cons_self
    · exact List.mem_cons_of_mem _ (ih h)

theorem find?_eq_some_of_nodup {table : KeyTable α} (h : (keys table).Nodup) {key : String}
    {value : α} (hm : (key, value) ∈ table) : find? table key = some value := by
  induction table with
  | nil => cases hm
  | cons entry rest ih =>
    obtain ⟨hfirst, hrest⟩ := List.nodup_cons.mp h
    rw [find?_cons]
    rcases List.mem_cons.mp hm with rfl | hm
    · simp
    · have hne : key ≠ entry.1 := by
        rintro rfl
        exact hfirst (List.mem_map.mpr ⟨_, hm, rfl⟩)
      rw [if_neg hne, ih hrest hm]

theorem find?_isSome_iff {table : KeyTable α} {key : String} :
    (find? table key).isSome ↔ key ∈ keys table := by
  induction table with
  | nil => simp [keys]
  | cons entry rest ih =>
    rw [find?_cons]
    by_cases h : key = entry.1
    · simp [keys, h]
    · simpa [keys, h] using ih

theorem find?_eq_none_iff {table : KeyTable α} {key : String} :
    find? table key = none ↔ key ∉ keys table := by
  rw [← Option.not_isSome_iff_eq_none, find?_isSome_iff]

theorem find?_mapValues (change : α → β) (table : KeyTable α) (key : String) :
    find? (mapValues change table) key = (find? table key).map change := by
  induction table with
  | nil => rfl
  | cons entry rest ih =>
    have hm : mapValues change (entry :: rest) =
        (entry.1, change entry.2) :: mapValues change rest := rfl
    rw [hm, find?_cons, find?_cons, ih]
    split <;> rfl

theorem mapValues_insert (change : α → β) (key : String) (value : α) (table : KeyTable α) :
    mapValues change (insert key value table) =
      insert key (change value) (mapValues change table) := by
  induction table with
  | nil => rfl
  | cons entry rest ih =>
    have hm : mapValues change (entry :: rest) =
        (entry.1, change entry.2) :: mapValues change rest := rfl
    rw [hm]
    simp only [insert]
    split
    · rfl
    · split
      · rfl
      · rw [← ih]
        rfl

theorem mem_insert {key : String} {value : α} {entry : String × α} {table : KeyTable α}
    (h : entry ∈ insert key value table) : entry = (key, value) ∨ entry ∈ table := by
  induction table with
  | nil => simpa [insert] using h
  | cons first rest ih =>
    unfold insert at h
    split at h
    · simpa using h
    · split at h
      · rcases List.mem_cons.mp h with h | h
        · exact Or.inl h
        · exact Or.inr (List.mem_cons_of_mem _ h)
      · rcases List.mem_cons.mp h with h | h
        · exact Or.inr (h ▸ List.mem_cons_self)
        · exact (ih h).imp_right (List.mem_cons_of_mem _)

theorem mem_erase {table : KeyTable α} {key : String} {entry : String × α} :
    entry ∈ erase table key ↔ entry ∈ table ∧ entry.1 ≠ key := by
  simp [erase]

theorem find?_append (table other : KeyTable α) (key : String) :
    find? (table ++ other) key = (find? table key).or (find? other key) := by
  induction table with
  | nil => rfl
  | cons entry rest ih =>
    rw [List.cons_append, find?_cons, find?_cons, ih]
    split <;> rfl

/-! ## Tables of lists -/

theorem insertAll_append (table : KeyTable α) (entries later : List (String × α)) :
    insertAll table (entries ++ later) = insertAll (insertAll table entries) later := by
  simp only [insertAll, List.foldl_append]

theorem mem_of_mem_insertAll {table : KeyTable α} {entries : List (String × α)}
    {entry : String × α} (h : entry ∈ insertAll table entries) :
    entry ∈ entries ∨ entry ∈ table := by
  induction entries generalizing table with
  | nil => exact Or.inr h
  | cons first rest ih =>
    rcases ih h with hrest | hinsert
    · exact Or.inl (List.mem_cons_of_mem _ hrest)
    · rcases mem_insert hinsert with rfl | htable
      · exact Or.inl List.mem_cons_self
      · exact Or.inr htable

/-- The last entry of a key is found; without one, what was there. -/
theorem find?_insertAll (table : KeyTable α) (entries : List (String × α)) (key : String) :
    find? (insertAll table entries) key = (find? entries.reverse key).or (find? table key) := by
  induction entries generalizing table with
  | nil => rfl
  | cons entry rest ih =>
    have hstep : insertAll table (entry :: rest) =
        insertAll (insert entry.1 entry.2 table) rest := rfl
    rw [hstep, ih, List.reverse_cons, find?_append, Option.or_assoc, find?_insert, find?_cons]
    split <;> rfl

theorem find?_insertAll_mapValues (change : α → β) (table : KeyTable β)
    (entries : List (String × α)) (key : String) :
    find? (insertAll table (mapValues change entries)) key =
      ((find? entries.reverse key).map change).or (find? table key) := by
  have hreverse : (mapValues change entries).reverse = mapValues change entries.reverse :=
    List.map_reverse.symm
  rw [find?_insertAll, hreverse, find?_mapValues]

theorem find?_insertAll_of_notMem {table : KeyTable α} {entries : List (String × α)} {key : String}
    (h : key ∉ entries.map (·.1)) : find? (insertAll table entries) key = find? table key := by
  have hnone : find? entries.reverse key = none := find?_eq_none_iff.mpr (by simpa [keys] using h)
  rw [find?_insertAll, hnone, Option.none_or]

theorem find?_insertAll_of_mem {table : KeyTable α} {entries : List (String × α)} {key : String}
    {value : α} (hkeys : (entries.map (·.1)).Nodup) (h : (key, value) ∈ entries) :
    find? (insertAll table entries) key = some value := by
  have hnodup : (keys entries.reverse).Nodup := by
    rw [keys, List.map_reverse]
    exact List.nodup_reverse.mpr hkeys
  have hfound : find? entries.reverse key = some value :=
    find?_eq_some_of_nodup hnodup (List.mem_reverse.mpr h)
  rw [find?_insertAll, hfound, Option.some_or]

theorem find?_insertAll_eq_some {table : KeyTable α} {entries : List (String × α)} {key : String}
    {value : α} (hkeys : (entries.map (·.1)).Nodup) :
    find? (insertAll table entries) key = some value ↔
      (key, value) ∈ entries ∨ (key ∉ entries.map (·.1) ∧ find? table key = some value) := by
  by_cases hkey : key ∈ entries.map (·.1)
  · obtain ⟨⟨_, found⟩, hentry, rfl⟩ := List.mem_map.mp hkey
    have hfound : find? (insertAll table entries) _ = some found :=
      find?_insertAll_of_mem hkeys hentry
    constructor
    · intro hvalue
      rw [hfound] at hvalue
      cases hvalue
      exact Or.inl hentry
    · rintro (hvalue | ⟨hfresh, -⟩)
      · exact find?_insertAll_of_mem hkeys hvalue
      · exact absurd hkey hfresh
  · rw [find?_insertAll_of_notMem hkey]
    constructor
    · exact fun hold => Or.inr ⟨hkey, hold⟩
    · rintro (hvalue | ⟨-, hold⟩)
      · exact absurd (List.mem_map_of_mem hvalue) hkey
      · exact hold

/-- The last entry of a key is the one in the table of a list. -/
theorem find?_ofList_eq (entries : List (String × α)) (key : String) :
    find? (ofList entries) key = find? entries.reverse key := by
  rw [ofList, find?_insertAll]
  exact Option.or_none

theorem find?_insertAll_eq (table : KeyTable α) (entries : List (String × α)) (key : String) :
    find? (insertAll table entries) key = (find? (ofList entries) key).or (find? table key) := by
  rw [find?_ofList_eq, find?_insertAll]

theorem find?_ofList_eq_none {entries : List (String × α)} {key : String} :
    find? (ofList entries) key = none ↔ key ∉ entries.map (·.1) := by
  rw [find?_ofList_eq, find?_eq_none_iff]
  simp [keys]

/-- Every entry of a list without a repeated key is found in its table. -/
theorem find?_ofList {entries : List (String × α)} {key : String} {value : α}
    (hkeys : (entries.map (·.1)).Nodup) (h : (key, value) ∈ entries) :
    find? (ofList entries) key = some value := find?_insertAll_of_mem hkeys h

theorem mem_of_mem_ofList {entries : List (String × α)} {entry : String × α}
    (h : entry ∈ ofList entries) : entry ∈ entries :=
  (mem_of_mem_insertAll h).resolve_right List.not_mem_nil

theorem mem_keys_ofList {entries : List (String × α)} {key : String}
    (hkeys : (entries.map (·.1)).Nodup) :
    key ∈ keys (ofList entries) ↔ key ∈ entries.map (·.1) := by
  rw [← find?_isSome_iff]
  constructor
  · intro h
    by_contra hfresh
    rw [ofList, find?_insertAll_of_notMem hfresh] at h
    cases h
  · intro h
    obtain ⟨entry, hentry, rfl⟩ := List.mem_map.mp h
    rw [find?_ofList hkeys hentry]
    rfl

/-! ## Ordered tables -/

theorem Ordered.insert {table : KeyTable α} (h : Ordered table) (key : String) (value : α) :
    Ordered (insert key value table) := by
  induction table with
  | nil => exact List.pairwise_singleton _ _
  | cons entry rest ih =>
    obtain ⟨hfirst, hrest⟩ := List.pairwise_cons.mp h
    unfold KeyTable.insert
    split
    · next hlt =>
      refine List.pairwise_cons.mpr ⟨?_, h⟩
      intro other ho
      rcases List.mem_cons.mp ho with rfl | ho
      · exact hlt
      · exact hlt.trans (hfirst other ho)
    · split
      · next heq =>
        subst heq
        exact List.pairwise_cons.mpr ⟨hfirst, hrest⟩
      · next hlt hne =>
        refine List.pairwise_cons.mpr ⟨?_, ih hrest⟩
        intro other ho
        rcases mem_insert ho with rfl | ho
        · exact lt_of_le_of_ne (not_lt.mp hlt) (Ne.symm hne)
        · exact hfirst other ho

theorem Ordered.erase {table : KeyTable α} (h : Ordered table) (key : String) :
    Ordered (erase table key) := List.Pairwise.sublist List.filter_sublist h

theorem Ordered.filter {table : KeyTable α} (h : Ordered table) (keep : String × α → Bool) :
    Ordered (table.filter keep) := List.Pairwise.sublist List.filter_sublist h

theorem Ordered.mapValues {table : KeyTable α} (h : Ordered table) (change : α → β) :
    Ordered (mapValues change table) := List.pairwise_map.mpr h

theorem ordered_insertAll {table : KeyTable α} (h : Ordered table) (entries : List (String × α)) :
    Ordered (insertAll table entries) := by
  induction entries generalizing table with
  | nil => exact h
  | cons entry rest ih => exact ih (h.insert entry.1 entry.2)

theorem ordered_ofList (entries : List (String × α)) : Ordered (ofList entries) :=
  ordered_insertAll List.Pairwise.nil entries

theorem Ordered.find?_eq_some {table : KeyTable α} (h : Ordered table) {key : String} {value : α}
    (hm : (key, value) ∈ table) : find? table key = some value :=
  find?_eq_some_of_nodup (List.pairwise_map.mpr (h.imp (fun hlt => hlt.ne))) hm

/-- Ordered tables are known by what is found in them. -/
theorem Ordered.ext {table other : KeyTable α} (h : Ordered table) (hother : Ordered other)
    (hfind : ∀ key, find? table key = find? other key) : table = other := by
  have hmem (first second : KeyTable α) (hfirst : Ordered first)
      (heq : ∀ key, find? first key = find? second key) {entry : String × α}
      (hentry : entry ∈ first) : entry ∈ second := by
    have hfound := hfirst.find?_eq_some hentry
    rw [heq] at hfound
    exact mem_of_find? hfound
  have hirrefl : Std.Irrefl (fun a b : String × α => a.1 < b.1) := ⟨fun a => lt_irrefl a.1⟩
  have hantisymm : Std.Antisymm (fun a b : String × α => a.1 < b.1) :=
    ⟨fun a b hab hba => absurd hba hab.not_gt⟩
  refine List.Pairwise.eq_of_mem_iff h hother (fun entry => ⟨?_, ?_⟩)
  · exact hmem table other h hfind
  · exact hmem other table hother (fun key => (hfind key).symm)

/-- The table of a list without a repeated key does not depend on the order of the list. -/
theorem ofList_eq_of_perm {entries other : List (String × α)} (h : entries.Perm other)
    (hkeys : (entries.map (·.1)).Nodup) : ofList entries = ofList other := by
  refine (ordered_ofList entries).ext (ordered_ofList other) (fun key => Option.ext (fun value => ?_))
  have hkeys' : (other.map (·.1)).Nodup := (h.map _).nodup_iff.mp hkeys
  rw [ofList, ofList, find?_insertAll_eq_some hkeys, find?_insertAll_eq_some hkeys', h.mem_iff,
    (h.map _).mem_iff]

/-- In an ordered table a lookup after a choice of entries is a lookup before it. -/
theorem Ordered.find?_filter {table : KeyTable α} (h : Ordered table)
    (keep : String × α → Bool) (key : String) :
    find? (table.filter keep) key = (find? table key).filter (fun value => keep (key, value)) := by
  induction table with
  | nil => rfl
  | cons entry rest ih =>
    obtain ⟨hfirst, hrest⟩ := List.pairwise_cons.mp h
    have hfilter := ih hrest
    rw [List.filter_cons, find?_cons]
    by_cases hkey : key = entry.1
    · subst hkey
      have hnone : find? rest entry.1 = none := by
        cases hfound : find? rest entry.1 with
        | none => rfl
        | some value => exact absurd (hfirst _ (mem_of_find? hfound)) (lt_irrefl _)
      rw [hnone] at hfilter
      cases hkeep : keep entry with
      | true => simp [Option.filter, hkeep]
      | false => simp [Option.filter, hkeep, hfilter]
    · rw [if_neg hkey, ← hfilter]
      split
      · rw [find?_cons, if_neg hkey]
      · rfl

/-- An entry with a greater key than all others is appended. -/
theorem insert_of_forall_lt {key : String} {value : α} {table : KeyTable α}
    (h : ∀ entry ∈ table, entry.1 < key) : insert key value table = table ++ [(key, value)] := by
  induction table with
  | nil => rfl
  | cons entry rest ih =>
    have hlt : entry.1 < key := h entry List.mem_cons_self
    have hrest := ih (fun other ho => h other (List.mem_cons_of_mem _ ho))
    unfold insert
    rw [if_neg hlt.not_gt, if_neg hlt.ne', hrest]
    rfl

theorem insertAll_of_ordered {table entries : KeyTable α} (h : Ordered (table ++ entries)) :
    insertAll table entries = table ++ entries := by
  induction entries generalizing table with
  | nil => simp [insertAll]
  | cons entry rest ih =>
    have hlt : ∀ other ∈ table, other.1 < entry.1 := fun other ho =>
      (List.pairwise_append.mp h).2.2 other ho entry List.mem_cons_self
    have hstep : insertAll table (entry :: rest) =
        insertAll (insert entry.1 entry.2 table) rest := rfl
    rw [hstep, insert_of_forall_lt hlt, ih (by simpa using h)]
    simp

/-- An ordered table is rebuilt from its own entries. -/
theorem ofList_of_ordered {table : KeyTable α} (h : Ordered table) : ofList table = table :=
  insertAll_of_ordered (by simpa using h)

end DiceHost.KeyTable
