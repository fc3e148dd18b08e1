import DiceHost.Proofs.KeyTable
import DiceHost.Proofs.Literal.Entries

/-! # Literals read back

Reading what was written gives the value back, with an object for each list without
items: a table without items does not tell what it was. The reader refuses exactly the
values that nest deeper than it follows.
-/
namespace DiceHost.Literal
open DiceHost.Text DiceHost.Decimal

mutual
/-- The value with an object for each list without items. -/
def normal : Json → Json
  | .arr [] => .obj []
  | .arr (v :: rest) => .arr (normal v :: normalItems rest)
  | .obj fields => .obj (normalFields fields)
  | v => v

def normalItems : List Json → List Json
  | [] => []
  | v :: rest => normal v :: normalItems rest

def normalFields : List (String × Json) → List (String × Json)
  | [] => []
  | (k, v) :: rest => (k, normal v) :: normalFields rest
end

/-- The text of a double reads as the same double. -/
def ReadsBack (x : Float) : Prop := float? (literalLayout.write x).toList = some x

/-- A double that a literal can carry. -/
def Carried (x : Float) : Prop := isFinite x = true ∧ ReadsBack x

theorem normalItems_eq_map (items : List Json) : normalItems items = items.map normal := by
  induction items with
  | nil => rfl
  | cons v rest ih => simp [normalItems, ih]

theorem normalFields_eq_map (fields : List (String × Json)) :
    normalFields fields = fields.map (fun field => (field.1, normal field.2)) := by
  induction fields with
  | nil => rfl
  | cons field rest ih => simp [normalFields, ih]

theorem ordered_normalFields {fields : List (String × Json)} (h : KeyTable.Ordered fields) :
    KeyTable.Ordered (normalFields fields) := by
  rw [normalFields_eq_map]
  exact List.Pairwise.map _ (fun _ _ hlt => hlt) h

theorem opens_chars {v : Json} (h : v.Numbers Json.FitsWord Carried) :
    Opens (chars v) := by
  cases v with
  | null => exact .intro rfl (by decide) (by decide) (by decide) (by decide)
  | bool b => cases b <;> exact .intro rfl (by decide) (by decide) (by decide) (by decide)
  | int n =>
    rw [chars, toList_toString]
    exact opens_intDigits n
  | float x =>
    rw [chars]
    exact opens_float rfl h.1
  | str s => exact .intro rfl (by decide) (by decide) (by decide) (by decide)
  | arr items => exact .intro rfl (by decide) (by decide) (by decide) (by decide)
  | obj fields => exact .intro rfl (by decide) (by decide) (by decide) (by decide)

/-- A written value is never taken for a key. -/
theorem key_chars (value : Scan Json) (limit : Nat) {v : Json}
    (h : v.Numbers Json.FitsWord Carried) {rest : List Char} (hr : Ends rest)
    (hlen : (chars v ++ rest).length ≤ limit) :
    key value limit (chars v ++ rest) = some (none, chars v ++ rest) := by
  cases v with
  | null => exact key_word value limit ['i', 'l'] rfl (List.all_eq_true.mp rfl) hr
  | bool b =>
    cases b with
    | true => exact key_word value limit ['r', 'u', 'e'] rfl (List.all_eq_true.mp rfl) hr
    | false => exact key_word value limit ['a', 'l', 's', 'e'] rfl (List.all_eq_true.mp rfl) hr
  | int n =>
    obtain ⟨c, tail, heq, hc⟩ := numberLead_intDigits n
    rw [chars, toList_toString, heq]
    exact key_other value limit (hc.ne rfl (by decide)) (hc.ne rfl (by decide))
      (hc.ne rfl (by decide)) hc.isNameStart
  | float x =>
    obtain ⟨c, tail, heq, hc⟩ := numberLead_float literalLayout rfl h.1
    rw [chars, heq]
    exact key_other value limit (hc.ne rfl (by decide)) (hc.ne rfl (by decide))
      (hc.ne rfl (by decide)) hc.isNameStart
  | str s => exact key_quote value limit s hlen hr
  | arr items => exact key_other value limit rfl rfl rfl rfl
  | obj fields => exact key_other value limit rfl rfl rfl rfl

/-! ## The values of tables -/

theorem tableValue_items (items : List Json) :
    tableValue ((normalItems items).reverse, []) = normal (.arr items) := by
  cases items with
  | nil => rfl
  | cons v rest => simp [tableValue, normalItems, normal]

theorem tableValue_ordered {fields : List (String × Json)} (h : KeyTable.Ordered fields) :
    tableValue ([], fields.reverse) = .obj fields := by
  cases hfields : fields.reverse with
  | nil =>
    have hnil : fields = [] := List.reverse_eq_nil_iff.mp hfields
    simp [tableValue, hnil]
  | cons field rest =>
    have hlist : (field :: rest).reverse = fields := by rw [← hfields, List.reverse_reverse]
    unfold tableValue
    dsimp only
    rw [hlist]
    simp [KeyTable.ofList_of_ordered h]

theorem tableValue_fields {fields : List (String × Json)} (h : KeyTable.Ordered fields) :
    tableValue ([], (normalFields fields).reverse) = normal (.obj fields) := by
  rw [tableValue_ordered (ordered_normalFields h), normal]

/-! ## Whole values -/

theorem itemChars_eq (items : List Json) : itemChars items = enclosed '}' (items.map chars) := by
  induction items with
  | nil => rfl
  | cons v rest ih =>
    cases rest with
    | nil => rfl
    | cons w rest => simp only [itemChars, ih, List.map_cons, enclosed]

/-- A field as it is written. -/
def fieldText (field : String × Json) : List Char := keyChars field.1 ++ '=' :: chars field.2

theorem fieldChars_eq (fields : List (String × Json)) :
    fieldChars fields = enclosed '}' (fields.map fieldText) := by
  induction fields with
  | nil => rfl
  | cons field rest ih =>
    cases rest with
    | nil => simp [fieldChars, enclosed, fieldText]
    | cons other rest =>
      simp only [List.map_cons] at ih ⊢
      simp [fieldChars, ih, enclosed, fieldText]

theorem valueAt_zero_brace (limit : Nat) (cs : List Char) : valueAt limit 0 ('{' :: cs) = none := by
  simp [valueAt, valueWith, skip, skipFrom, isAsciiBlank]

theorem valueAt_succ_brace (limit depth : Nat) (cs : List Char) :
    valueAt limit (depth + 1) ('{' :: cs) =
      table (valueAt limit depth) limit limit ([], []) cs := by
  simp [valueAt, valueWith, skip, skipFrom, isAsciiBlank]

mutual
/-- Reading a written value in front of a comma, a closing brace or nothing. -/
theorem valueAt_chars (v : Json) (limit depth : Nat) {rest : List Char} (ho : v.Ordered)
    (hv : v.Numbers Json.FitsWord Carried) (hr : Ends rest)
    (hlen : (chars v ++ rest).length ≤ limit) :
    valueAt limit depth (chars v ++ rest) =
      if v.depth ≤ depth then some (normal v, rest) else none := by
  obtain ⟨ts, ls, hleaf⟩ := valueAt_eq limit depth
  cases v with
  | null =>
    rw [hleaf, chars, valueWith_null ts ls limit hr]
    simp [Json.depth, normal]
  | bool b =>
    rw [hleaf, valueWith_bool ts ls limit b hr]
    simp [Json.depth, normal]
  | int n =>
    rw [hleaf, valueWith_int ts ls limit hv hr]
    simp [Json.depth, normal]
  | float x =>
    rw [hleaf, chars, valueWith_float ts ls limit rfl hv.1 hv.2 hr]
    simp [Json.depth, normal]
  | str s =>
    rw [hleaf, chars, valueWith_quote ts ls limit s hlen]
    simp [Json.depth, normal]
  | arr items =>
    simp only [chars, List.cons_append, List.length_cons] at hlen ⊢
    cases depth with
    | zero => simp [valueAt_zero_brace, Json.depth]
    | succ depth =>
      rw [itemChars_eq] at hlen ⊢
      have hloop := (tableLoop _ limit).run_items (reads_items items limit depth ho hv) hlen
      rw [valueAt_succ_brace]
      refine hloop.trans ?_
      simp [tableLoop, Json.depth, ← tableValue_items, normalItems_eq_map]
  | obj fields =>
    simp only [chars, List.cons_append, List.length_cons] at hlen ⊢
    cases depth with
    | zero => simp [valueAt_zero_brace, Json.depth]
    | succ depth =>
      rw [fieldChars_eq] at hlen ⊢
      have hloop := (tableLoop _ limit).run_fields (reads_fields fields limit depth ho.2 hv) hlen
      rw [valueAt_succ_brace]
      refine hloop.trans ?_
      simp [tableLoop, Json.depth, ← tableValue_fields ho.1, normalFields_eq_map]

/-- The items of a list are read one by one. -/
theorem reads_items (items : List Json) (limit depth : Nat) (ho : Json.OrderedItems items)
    (hv : Json.NumbersItems Json.FitsWord Carried items) :
    ∀ e ∈ items.map (fun v => Entry.within depth normal (chars v) none v),
      e.Reads (valueAt limit depth) limit := by
  match items with
  | [] => simp
  | v :: rest =>
    refine List.forall_mem_cons.mpr ⟨fun after hends hlen => ?_,
      reads_items rest limit depth ho.2 hv.2⟩
    refine ⟨(opens_chars hv.1).append after, _, key_chars _ limit hv.1 hends hlen, ?_⟩
    rw [valueAt_chars v limit depth ho.1 hv.1 hends hlen, map_value_within]

/-- The fields of an object are read one by one. -/
theorem reads_fields (fields : List (String × Json)) (limit depth : Nat)
    (ho : Json.OrderedFields fields) (hv : Json.NumbersFields Json.FitsWord Carried fields) :
    ∀ e ∈ fields.map (fun field => Entry.within depth normal (fieldText field) (some field.1)
      field.2), e.Reads (valueAt limit depth) limit := by
  match fields with
  | [] => simp
  | (k, v) :: rest =>
    refine List.forall_mem_cons.mpr ⟨fun after hends hlen => ?_,
      reads_fields rest limit depth ho.2 hv.2⟩
    have htext : fieldText (k, v) ++ after = keyChars k ++ '=' :: (chars v ++ after) := by
      simp [fieldText]
    rw [map_value_within]
    simp only [Entry.within, htext] at hlen ⊢
    refine ⟨(opens_keyChars k).append _, _,
      key_keyChars limit depth k ((opens_chars hv.1).append after) hlen, ?_⟩
    simp only [List.length_append, List.length_cons] at hlen
    exact valueAt_chars v limit depth ho.1 hv.1 hends
      (by simp only [List.length_append]; omega)
end

theorem decodeChars_chars {v : Json} (ho : v.Ordered) (hv : v.Numbers Json.FitsWord Carried) :
    decodeChars (chars v) = if v.depth ≤ maxDepth then some (normal v) else none := by
  have h := valueAt_chars v ((chars v).length + 1) maxDepth ho hv .nothing (by simp)
  rw [List.append_nil] at h
  rw [decodeChars, h]
  by_cases hd : v.depth ≤ maxDepth
  · simp [hd, skip, skipFrom]
  · simp [hd]

/-- A literal is read back if and only if the value nests at most 128 tables, and then as the
value with an object for each list without items. -/
theorem decode_encode {v : Json} (hv : v.Held) (hread : v.Numbers (fun _ => True) ReadsBack) :
    decode (encode v) = if v.depth ≤ 128 then some (normal v) else none := by
  have hnumbers : v.Numbers Json.FitsWord Carried :=
    Json.Numbers.combine (fun _ h _ => h) (fun _ h h' => ⟨h, h'⟩) hv.numbers hread
  rw [decode, encode, String.toList_ofList, decodeChars_chars hv.ordered hnumbers]
  rfl

/-- A value with an empty key, a keyword as a key, control characters and floats. -/
theorem decode_encode_nested :
    let v : Json := .obj [("", .arr []), ("end", .arr [.float (-1.5e-7), .int (-3), .null]),
      ("x", .str "\x019\"é😀")]
    (v.Held ∧ v.Numbers (fun _ => True) ReadsBack) ∧
      decode (encode v) = some (.obj [("", .obj []),
        ("end", .arr [.float (-1.5e-7), .int (-3), .null]), ("x", .str "\x019\"é😀")]) := by
  intro v
  have hordered : v.Ordered := by
    refine ⟨by decide +kernel, ?_⟩
    simp [Json.OrderedFields, Json.OrderedItems, Json.Ordered]
  have hnumbers : v.Numbers Json.FitsWord (fun x => isFinite x = true) := by
    simp only [v, Json.Numbers, Json.NumbersFields, Json.NumbersItems, Json.FitsWord]
    decide +kernel
  have hread : v.Numbers (fun _ => True) ReadsBack := by
    simp only [v, Json.Numbers, Json.NumbersFields, Json.NumbersItems, ReadsBack]
    decide +kernel
  exact ⟨⟨⟨hordered, hnumbers⟩, hread⟩, decode_encode ⟨hordered, hnumbers⟩ hread⟩

end DiceHost.Literal
