import DiceHost.Proofs.Json.Compact
import DiceHost.Proofs.Literal.RoundTrip

/-! # JSON read as a literal

The reader of table constructors also takes JSON: a colon binds a quoted key as an equals sign
binds a name, brackets hold the items of a list and `null` is a value. Compact text is told
from a table constructor by the characters between its values. Only a bracket right after a
bracket opens a long string, so the text of a list that begins with a list is something else.
-/
namespace DiceHost.Literal
open DiceHost.Text DiceHost.Decimal

mutual
/-- No list inside the value begins with a list. -/
def NoListFirst : Json → Prop
  | .arr items => (∀ inner, items.head? ≠ some (.arr inner)) ∧ NoListFirstItems items
  | .obj fields => NoListFirstFields fields
  | _ => True

def NoListFirstItems : List Json → Prop
  | [] => True
  | v :: rest => NoListFirst v ∧ NoListFirstItems rest

def NoListFirstFields : List (String × Json) → Prop
  | [] => True
  | (_, v) :: rest => NoListFirst v ∧ NoListFirstFields rest
end

/-- The JSON text of a double reads as the same double. -/
def JsonReadsBack (x : Float) : Prop := float? (jsonLayout.write x).toList = some x

/-- A double that compact text can carry. -/
def JsonCarried (x : Float) : Prop := isFinite x = true ∧ JsonReadsBack x

/-! ## Where values and keys begin and end -/

theorem string_quoteChars (s : String) {limit : Nat} (rest : List Char)
    (h : (Json.quoteChars s ++ rest).length ≤ limit) :
    string limit '"' (s.toList.flatMap Json.escape ++ '"' :: rest) = some (s, rest) := by
  simp only [Json.quoteChars_append, List.length_cons, List.length_append] at h
  exact unescapes_jsonEscape.string s rest (by omega)

theorem opens_quoteChars (s : String) (rest : List Char) :
    Opens (Json.quoteChars s ++ rest) := by
  rw [Json.quoteChars_append]
  exact .intro rfl (by decide) (by decide) (by decide) (by decide)

theorem key_quoteChars (value : Scan Json) {limit : Nat} (k : String) {cs : List Char}
    (hopens : Opens cs) (hlen : (Json.quoteChars k ++ ':' :: cs).length ≤ limit) :
    key value limit (Json.quoteChars k ++ ':' :: cs) = some (some k, cs) := by
  have hread := string_quoteChars k (':' :: cs) hlen
  rw [Json.quoteChars_append]
  exact key_colon value limit hread hopens

theorem opens_compact {v : Json} (h : v.Numbers Json.FitsWord JsonCarried) :
    Opens v.compactChars := by
  cases v with
  | null => exact .intro rfl (by decide) (by decide) (by decide) (by decide)
  | bool b => cases b <;> exact .intro rfl (by decide) (by decide) (by decide) (by decide)
  | int n =>
    rw [Json.compactChars, toList_toString]
    exact opens_intDigits n
  | float x =>
    rw [Json.compactChars, if_pos h.1]
    exact opens_float rfl h.1
  | str s => simpa [Json.compactChars] using opens_quoteChars s []
  | arr items => exact .intro rfl (by decide) (by decide) (by decide) (by decide)
  | obj fields => exact .intro rfl (by decide) (by decide) (by decide) (by decide)

/-- Only a list begins with a bracket, and no value begins with an equals sign. -/
theorem opensLong_compact {v : Json} (h : v.Numbers Json.FitsWord JsonCarried)
    (hlist : ∀ inner, v ≠ .arr inner) (rest : List Char) :
    opensLong (v.compactChars ++ rest) = false := by
  have hlead {c : Char} (tail : List Char) (hc : NumberLead c) :
      opensLong (c :: tail) = false := by
    simpa [opensLong] using And.intro (hc.ne (x := '[') rfl (by decide))
      (hc.ne (x := '=') rfl (by decide))
  cases v with
  | null => rfl
  | bool b => cases b <;> rfl
  | int n =>
    obtain ⟨c, tail, heq, hc⟩ := numberLead_intDigits n
    rw [Json.compactChars, toList_toString, heq]
    exact hlead _ hc
  | float x =>
    obtain ⟨c, tail, heq, hc⟩ := numberLead_float jsonLayout rfl h.1
    rw [Json.compactChars, if_pos h.1, heq]
    exact hlead _ hc
  | str s =>
    rw [Json.compactChars, Json.quoteChars_append]
    rfl
  | arr items => exact absurd rfl (hlist items)
  | obj fields => rfl

/-- The bracket of a list is not taken for that of a long string. -/
theorem opensLong_compactItems {items : List Json}
    (hnumbers : Json.NumbersItems Json.FitsWord JsonCarried items)
    (hfirst : ∀ inner, items.head? ≠ some (.arr inner)) (rest : List Char) :
    opensLong (Json.compactItems items ++ rest) = false := by
  have hne {v : Json} {others : List Json} (heq : items = v :: others) (inner : List Json) :
      v ≠ .arr inner := by
    rintro rfl
    exact hfirst inner (heq ▸ rfl)
  match items with
  | [] => rfl
  | [v] =>
    rw [Json.compactItems, List.append_assoc]
    exact opensLong_compact hnumbers.1 (hne rfl) _
  | v :: w :: items =>
    rw [Json.compactItems, List.append_assoc]
    · exact opensLong_compact hnumbers.1 (hne rfl) _
    · simp

theorem valueWith_nullWord (table list : Scan Json) (limit : Nat) {rest : List Char}
    (h : Ends rest) :
    valueWith table list limit (['n', 'u', 'l', 'l'] ++ rest) = some (.null, rest) := by
  have hword := word?_append ['n', 'u', 'l', 'l'] h
  have hnil : word? ['n', 'i', 'l'] (['n', 'u', 'l', 'l'] ++ rest) = none := by
    simp [word?, stripPrefixChars]
  have hopens : Opens ['n', 'u', 'l', 'l'] :=
    .intro rfl (by decide) (by decide) (by decide) (by decide)
  unfold valueWith
  rw [(hopens.append rest).skip]
  simp only [List.cons_append, List.nil_append] at hword hnil ⊢
  simp [wordValue, hnil, hword, isAsciiDigit]

/-! ## Whole values -/

theorem compactItems_eq (items : List Json) :
    Json.compactItems items = enclosed ']' (items.map Json.compactChars) := by
  induction items with
  | nil => rfl
  | cons v rest ih =>
    cases rest with
    | nil => rfl
    | cons w rest => simp only [Json.compactItems, ih, List.map_cons, enclosed]

/-- A field as compact text has it. -/
def compactField (field : String × Json) : List Char :=
  Json.quoteChars field.1 ++ ':' :: field.2.compactChars

theorem compactFields_eq (fields : List (String × Json)) :
    Json.compactFields fields = enclosed '}' (fields.map compactField) := by
  induction fields with
  | nil => rfl
  | cons field rest ih =>
    cases rest with
    | nil => simp [Json.compactFields, enclosed, compactField]
    | cons other rest =>
      simp only [List.map_cons] at ih ⊢
      simp [Json.compactFields, ih, enclosed, compactField]

theorem valueAt_zero_bracket (limit : Nat) {cs : List Char} (h : opensLong cs = false) :
    valueAt limit 0 ('[' :: cs) = none := by
  simp [valueAt, valueWith, skip, skipFrom, isAsciiBlank, h]

theorem valueAt_succ_bracket (limit depth : Nat) {cs : List Char} (h : opensLong cs = false) :
    valueAt limit (depth + 1) ('[' :: cs) = list (valueAt limit depth) limit [] cs := by
  simp [valueAt, valueWith, skip, skipFrom, isAsciiBlank, h]

mutual
/-- Reading compact text in front of a comma, a closing brace or bracket, or nothing. -/
theorem valueAt_compact (v : Json) (limit depth : Nat) {rest : List Char} (ho : v.Ordered)
    (hv : v.Numbers Json.FitsWord JsonCarried) (hfirst : NoListFirst v) (hr : Ends rest)
    (hlen : (v.compactChars ++ rest).length ≤ limit) :
    valueAt limit depth (v.compactChars ++ rest) =
      if v.depth ≤ depth then some (v, rest) else none := by
  obtain ⟨ts, ls, hleaf⟩ := valueAt_eq limit depth
  cases v with
  | null =>
    rw [hleaf, Json.compactChars, valueWith_nullWord ts ls limit hr]
    simp [Json.depth]
  | bool b =>
    have hsame : (Json.bool b).compactChars = chars (.bool b) := by cases b <;> rfl
    rw [hleaf, hsame, valueWith_bool ts ls limit b hr]
    simp [Json.depth]
  | int n =>
    have hread := valueWith_int ts ls limit hv hr
    rw [chars] at hread
    rw [hleaf, Json.compactChars, hread]
    simp [Json.depth]
  | float x =>
    rw [hleaf, Json.compactChars, if_pos hv.1, valueWith_float ts ls limit rfl hv.1 hv.2 hr]
    simp [Json.depth]
  | str s =>
    rw [Json.compactChars] at hlen ⊢
    have hread := string_quoteChars s rest hlen
    rw [hleaf, Json.quoteChars_append, valueWith_string ts ls limit hread]
    simp [Json.depth]
  | arr items =>
    have hlong := opensLong_compactItems hv hfirst.1 rest
    simp only [Json.compactChars, List.cons_append, List.length_cons] at hlen ⊢
    cases depth with
    | zero => simp [valueAt_zero_bracket _ hlong, Json.depth]
    | succ depth =>
      rw [compactItems_eq] at hlen ⊢
      have hloop := (listLoop _ limit).run_items
        (reads_compactItems items limit depth ho hv hfirst.2) hlen
      rw [valueAt_succ_bracket _ _ (compactItems_eq items ▸ hlong)]
      refine hloop.trans ?_
      simp [listLoop, Json.depth]
  | obj fields =>
    simp only [Json.compactChars, List.cons_append, List.length_cons] at hlen ⊢
    cases depth with
    | zero => simp [valueAt_zero_brace, Json.depth]
    | succ depth =>
      rw [compactFields_eq] at hlen ⊢
      have hloop := (tableLoop _ limit).run_fields
        (reads_compactFields fields limit depth ho.2 hv hfirst) hlen
      rw [valueAt_succ_brace]
      refine hloop.trans ?_
      simp [tableLoop, Json.depth, tableValue_ordered ho.1]

/-- The items of a list are read one by one. -/
theorem reads_compactItems (items : List Json) (limit depth : Nat) (ho : Json.OrderedItems items)
    (hv : Json.NumbersItems Json.FitsWord JsonCarried items) (hfirst : NoListFirstItems items) :
    ∀ e ∈ items.map (fun v => Entry.within depth id v.compactChars none v),
      e.ReadsAlone (valueAt limit depth) limit := by
  match items with
  | [] => simp
  | v :: rest =>
    refine List.forall_mem_cons.mpr ⟨⟨rfl, fun after hends hlen => ?_⟩,
      reads_compactItems rest limit depth ho.2 hv.2 hfirst.2⟩
    refine ⟨(opens_compact hv.1).append after, ?_⟩
    rw [map_value_within]
    exact valueAt_compact v limit depth ho.1 hv.1 hfirst.1 hends hlen

/-- The fields of an object are read one by one. -/
theorem reads_compactFields (fields : List (String × Json)) (limit depth : Nat)
    (ho : Json.OrderedFields fields) (hv : Json.NumbersFields Json.FitsWord JsonCarried fields)
    (hfirst : NoListFirstFields fields) :
    ∀ e ∈ fields.map (fun field => Entry.within depth id (compactField field) (some field.1)
      field.2), e.Reads (valueAt limit depth) limit := by
  match fields with
  | [] => simp
  | (k, v) :: rest =>
    refine List.forall_mem_cons.mpr ⟨fun after hends hlen => ?_,
      reads_compactFields rest limit depth ho.2 hv.2 hfirst.2⟩
    have htext : compactField (k, v) ++ after =
        Json.quoteChars k ++ ':' :: (v.compactChars ++ after) := by
      simp [compactField]
    rw [map_value_within]
    simp only [Entry.within, htext] at hlen ⊢
    refine ⟨opens_quoteChars k _, _,
      key_quoteChars _ k ((opens_compact hv.1).append after) hlen, ?_⟩
    simp only [List.length_append, List.length_cons] at hlen
    exact valueAt_compact v limit depth ho.1 hv.1 hfirst.1 hends
      (by simp only [List.length_append]; omega)
end

/-- Compact text is read as the value it was written from, lists without items included, if and
only if the value nests at most 128 lists and objects. -/
theorem decode_compact {v : Json} (hv : v.Held) (hfirst : NoListFirst v)
    (hread : v.Numbers (fun _ => True) JsonReadsBack) :
    decode v.compact = if v.depth ≤ 128 then some v else none := by
  have hnumbers : v.Numbers Json.FitsWord JsonCarried :=
    Json.Numbers.combine (fun _ h _ => h) (fun _ h h' => ⟨h, h'⟩) hv.numbers hread
  have h := valueAt_compact v (v.compactChars.length + 1) maxDepth hv.ordered hnumbers hfirst
    .nothing (by simp)
  rw [List.append_nil] at h
  rw [decode, Json.toList_compact, decodeChars, h]
  by_cases hd : v.depth ≤ maxDepth
  · have hdepth : v.depth ≤ 128 := hd
    simp [hdepth, hd, skip, skipFrom]
  · have hdepth : ¬v.depth ≤ 128 := hd
    simp [hdepth, hd]

/-- A value with an empty key, a key and a text that need escapes, empty lists and objects, a list
behind another item, and doubles with exponents of either sign. -/
theorem decode_compact_nested :
    let v : Json := .obj [("", .arr []), ("a\"=", .arr [.obj [], .arr [.null, .arr []]]),
      ("b", .arr [.float 2.5e300, .float (-1.5e-7), .int (-3), .str "\x01\n9é😀"])]
    (v.Held ∧ NoListFirst v ∧ v.Numbers (fun _ => True) JsonReadsBack) ∧
      decode v.compact = some v := by
  intro v
  have hordered : v.Ordered := by
    refine ⟨by decide +kernel, ?_⟩
    simp [Json.OrderedFields, Json.OrderedItems, Json.Ordered, KeyTable.Ordered]
  have hnumbers : v.Numbers Json.FitsWord (fun x => isFinite x = true) := by
    simp only [v, Json.Numbers, Json.NumbersFields, Json.NumbersItems, Json.FitsWord]
    decide +kernel
  have hfirst : NoListFirst v := by
    simp [v, NoListFirst, NoListFirstFields, NoListFirstItems]
  have hread : v.Numbers (fun _ => True) JsonReadsBack := by
    simp only [v, Json.Numbers, Json.NumbersFields, Json.NumbersItems, JsonReadsBack]
    decide +kernel
  exact ⟨⟨⟨hordered, hnumbers⟩, hfirst, hread⟩,
    decode_compact ⟨hordered, hnumbers⟩ hfirst hread⟩

end DiceHost.Literal
