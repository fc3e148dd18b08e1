import DiceHost.Proofs.Json.Compact
import DiceHost.Proofs.Json.Held
import DiceHost.Proofs.Json.Numbers
import DiceHost.Proofs.Json.Quoted
import DiceHost.Proofs.KeyTable

/-! # Values in JSON

A value is read back from its compact text: behind an item or a field stands a comma or what
closes the list or the object, and neither belongs to a number. Whether a float comes back is a
question about its own text.
-/
namespace DiceHost.Json
open DiceHost.Text DiceHost.Decimal
open DiceHost.Literal (Ends NumberLead numberLead_intDigits numberLead_float)

/-- The text of a float is read as the same float. -/
def ReadsBack (x : Float) : Prop :=
  isFinite x = true ∧ number (jsonLayout.write x).toList = some (.float x, [])

theorem skipSpace_of_lead {c : Char} (h : isSpace c = false) (cs : List Char) :
    skipSpace (c :: cs) = c :: cs := by
  simp [skipSpace, h]

theorem isSpace_of_numberLead {c : Char} (hc : NumberLead c) : isSpace c = false := by
  have hne {x : Char} (hx : isAsciiDigit x = false) (hminus : x ≠ '-') : (c == x) = false :=
    hc.ne hx hminus
  rw [isSpace, hne (x := ' ') rfl (by decide), hne (x := '\n') rfl (by decide),
    hne (x := '\t') rfl (by decide), hne (x := '\r') rfl (by decide)]
  rfl

theorem valueWith_number (array object : Scan Json) (limit : Nat) {c : Char} (hc : NumberLead c)
    (cs : List Char) : valueWith array object limit (c :: cs) = number (c :: cs) := by
  have hne {x : Char} (hx : isAsciiDigit x = false) (hminus : x ≠ '-') : c ≠ x :=
    beq_eq_false_iff_ne.mp (hc.ne hx hminus)
  simp [valueWith, skipSpace_of_lead (isSpace_of_numberLead hc), hne (x := '[') rfl (by decide),
    hne (x := '\x7b') rfl (by decide), hne (x := '"') rfl (by decide),
    hne (x := 'n') rfl (by decide), hne (x := 't') rfl (by decide),
    hne (x := 'f') rfl (by decide)]

theorem valueAt_number (limit depth : Nat) {text rest : List Char} {v : Json}
    (hlead : ∃ c tail, text = c :: tail ∧ NumberLead c) (h : number text = some (v, []))
    (hrest : Ends rest) : valueAt limit depth (text ++ rest) = some (v, rest) := by
  have hread := number_append h hrest
  obtain ⟨c, tail, rfl, hc⟩ := hlead
  rw [List.cons_append] at hread ⊢
  cases depth with
  | zero => rw [valueAt, valueWith_number _ _ _ hc, hread]
  | succ depth => rw [valueAt, valueWith_number _ _ _ hc, hread]

theorem valueAt_word (limit depth : Nat) (rest : List Char) :
    valueAt limit depth ('n' :: 'u' :: 'l' :: 'l' :: rest) = some (.null, rest) ∧
    valueAt limit depth ('t' :: 'r' :: 'u' :: 'e' :: rest) = some (.bool true, rest) ∧
    valueAt limit depth ('f' :: 'a' :: 'l' :: 's' :: 'e' :: rest) = some (.bool false, rest) := by
  cases depth <;> simp [valueAt, valueWith, skipSpace, isSpace]

theorem stringBody_quoteChars {s : String} {limit : Nat} (h : s.toList.length < limit)
    (rest : List Char) :
    stringBody limit [] (s.toList.flatMap escape ++ '"' :: rest) = some (s, rest) := by
  rw [stringBody_escapes _ _ _ h, List.reverse_nil, List.nil_append, String.ofList_toList]

/-- What stands behind an item: the closing bracket, or a comma and the other items. -/
def afterItem : List Json → List Char
  | [] => [']']
  | v :: rest => ',' :: compactItems (v :: rest)

/-- What stands behind a field. -/
def afterField : List (String × Json) → List Char
  | [] => ['\x7d']
  | field :: rest => ',' :: compactFields (field :: rest)

theorem compactItems_cons (v : Json) (rest : List Json) :
    compactItems (v :: rest) = compactChars v ++ afterItem rest := by
  cases rest <;> simp [compactItems, afterItem]

theorem compactFields_cons (k : String) (v : Json) (rest : List (String × Json)) :
    compactFields ((k, v) :: rest) =
      quoteChars k ++ ':' :: (compactChars v ++ afterField rest) := by
  cases rest <;> simp [compactFields, afterField]

theorem ends_afterItem (items : List Json) (rest : List Char) : Ends (afterItem items ++ rest) := by
  cases items with
  | nil => exact .bracket rest
  | cons v items => exact .comma _

theorem ends_afterField (fields : List (String × Json)) (rest : List Char) :
    Ends (afterField fields ++ rest) := by
  cases fields with
  | nil => exact .brace rest
  | cons field fields => exact .comma _

/-- The text of a value begins with something that is no space and closes nothing. -/
theorem compactChars_lead {v : Json} (h : v.Numbers FitsWord ReadsBack) :
    ∃ c tail, compactChars v = c :: tail ∧ isSpace c = false ∧ c ≠ ']' := by
  have hnumber {text : List Char} (h : ∃ c tail, text = c :: tail ∧ NumberLead c) :
      ∃ c tail, text = c :: tail ∧ isSpace c = false ∧ c ≠ ']' := by
    obtain ⟨c, tail, rfl, hc⟩ := h
    exact ⟨c, tail, rfl, isSpace_of_numberLead hc, beq_eq_false_iff_ne.mp (hc.ne rfl (by decide))⟩
  cases v with
  | null => exact ⟨_, _, rfl, rfl, by decide⟩
  | bool b => cases b <;> exact ⟨_, _, rfl, rfl, by decide⟩
  | int n =>
    rw [compactChars, toList_toString]
    exact hnumber (numberLead_intDigits n)
  | float x =>
    rw [compactChars, if_pos h.1]
    exact hnumber (numberLead_float jsonLayout rfl h.1)
  | str s => exact ⟨_, _, rfl, rfl, by decide⟩
  | arr items => exact ⟨_, _, rfl, rfl, by decide⟩
  | obj fields => exact ⟨_, _, rfl, rfl, by decide⟩

theorem length_lt_afterItem (items : List Json) : items.length < (afterItem items).length := by
  induction items with
  | nil => simp [afterItem]
  | cons v items ih =>
    rw [afterItem, compactItems_cons]
    simp only [List.length_cons, List.length_append]
    omega

theorem length_lt_afterField (fields : List (String × Json)) :
    fields.length < (afterField fields).length := by
  induction fields with
  | nil => simp [afterField]
  | cons field fields ih =>
    rw [afterField, compactFields_cons]
    simp only [List.length_cons, List.length_append]
    omega

theorem valueAt_bracket (limit depth : Nat) (cs : List Char) :
    valueAt limit (depth + 1) ('[' :: cs) = arrayBody (valueAt limit depth) limit cs := by
  simp [valueAt, valueWith, skipSpace, isSpace]

theorem valueAt_brace (limit depth : Nat) (cs : List Char) :
    valueAt limit (depth + 1) ('{' :: cs) = objectBody (valueAt limit depth) limit cs := by
  simp [valueAt, valueWith, skipSpace, isSpace]

/-- A list that is not closed at once has a first item. -/
theorem arrayBody_of_lead (item : Scan Json) (limit : Nat) {cs : List Char} {v : Json}
    {rest : List Char} (hlead : ∃ c tail, cs = c :: tail ∧ isSpace c = false ∧ c ≠ ']')
    (h : item cs = some (v, rest)) :
    arrayBody item limit cs = arrayRest item limit [v] rest := by
  obtain ⟨c, tail, rfl, hspace, hclose⟩ := hlead
  rw [arrayBody, skipSpace_of_lead hspace]
  simp [hclose, h]

theorem length_key_lt {k : String} {cs : List Char} {limit : Nat}
    (h : (quoteChars k ++ cs).length < limit) : k.toList.length < limit := by
  have hlength := length_le_length_escapes k.toList
  rw [quoteChars_append] at h
  simp only [List.length_cons, List.length_append] at h
  omega

/-- A key and its value are read, and what stands behind the value is left. -/
theorem field_quoteChars {item : Scan Json} {limit : Nat} {k : String} {v : Json}
    {cs rest : List Char} (hlen : (quoteChars k ++ ':' :: cs).length < limit)
    (h : item cs = some (v, rest)) :
    field item limit (quoteChars k ++ ':' :: cs) = some ((k, v), rest) := by
  rw [quoteChars_append, field, skipSpace_of_lead rfl]
  simp [stringBody_quoteChars (length_key_lt hlen), skipSpace, isSpace, h]

/-- An object that is not closed at once has a first field. -/
theorem objectBody_quoteChars {item : Scan Json} {limit : Nat} {k : String} {v : Json}
    {cs rest : List Char} (h : field item limit (quoteChars k ++ cs) = some ((k, v), rest)) :
    objectBody item limit (quoteChars k ++ cs) = objectRest item limit limit [(k, v)] rest := by
  rw [quoteChars_append] at h ⊢
  rw [objectBody, skipSpace_of_lead rfl]
  simp [h]

/-- The lengths of an item and of what stands behind it, out of a limit for both. -/
theorem length_lt_of_append {item after rest : List Char} {limit : Nat}
    (h : (item ++ after ++ rest).length < limit) :
    (item ++ (after ++ rest)).length < limit ∧ (after ++ rest).length < limit := by
  simp only [List.length_append] at h ⊢
  omega

theorem length_lt_of_field {key value after : List Char} {limit : Nat}
    (h : (key ++ ':' :: (value ++ after)).length < limit) :
    (value ++ after).length < limit ∧ after.length < limit := by
  simp only [List.length_append, List.length_cons] at h ⊢
  omega

mutual
/-- A value that does not nest too deep is read back, and what stands behind it is left. -/
theorem valueAt_compactChars {v : Json} {limit depth : Nat} {rest : List Char}
    (h : v.Numbers FitsWord ReadsBack) (hdepth : v.depth ≤ depth)
    (hlen : (compactChars v ++ rest).length < limit) (hrest : Ends rest) :
    valueAt limit depth (compactChars v ++ rest) = some (v, rest) := by
  cases v with
  | null => exact (valueAt_word limit depth rest).1
  | bool b =>
    cases b with
    | true => exact (valueAt_word limit depth rest).2.1
    | false => exact (valueAt_word limit depth rest).2.2
  | int n =>
    rw [compactChars, toList_toString]
    exact valueAt_number limit depth (numberLead_intDigits n) (number_intDigits h) hrest
  | float x =>
    rw [compactChars, if_pos h.1]
    exact valueAt_number limit depth (numberLead_float jsonLayout rfl h.1) h.2 hrest
  | str s =>
    rw [compactChars] at hlen ⊢
    rw [quoteChars_append, valueAt_quote, stringBody_quoteChars (length_key_lt hlen)]
    rfl
  | arr items =>
    obtain ⟨depth, rfl⟩ := Nat.exists_eq_succ_of_ne_zero (Nat.ne_of_gt (Nat.zero_lt_of_lt hdepth))
    rw [compactChars, List.cons_append] at hlen ⊢
    rw [valueAt_bracket]
    exact arrayBody_compactItems h (Nat.le_of_succ_le_succ hdepth) (Nat.lt_of_succ_lt hlen)
  | obj fields =>
    obtain ⟨depth, rfl⟩ := Nat.exists_eq_succ_of_ne_zero (Nat.ne_of_gt (Nat.zero_lt_of_lt hdepth))
    rw [compactChars, List.cons_append] at hlen ⊢
    rw [valueAt_brace]
    exact objectBody_compactFields h (Nat.le_of_succ_le_succ hdepth) (Nat.lt_of_succ_lt hlen)

theorem arrayBody_compactItems {items : List Json} {limit depth : Nat} {rest : List Char}
    (h : NumbersItems FitsWord ReadsBack items) (hdepth : depthItems items ≤ depth)
    (hlen : (compactItems items ++ rest).length < limit) :
    arrayBody (valueAt limit depth) limit (compactItems items ++ rest) =
      some (.arr items, rest) := by
  cases items with
  | nil => simp [compactItems, arrayBody, skipSpace, isSpace]
  | cons v items =>
    obtain ⟨hv, hitems⟩ := h
    obtain ⟨hdepthv, hdepth⟩ := Nat.max_le.mp hdepth
    rw [compactItems_cons] at hlen ⊢
    obtain ⟨hlen, hafter⟩ := length_lt_of_append hlen
    have hcount := length_lt_afterItem items
    have hread := valueAt_compactChars hv hdepthv hlen (ends_afterItem items rest)
    obtain ⟨c, tail, heq, hspace, hclose⟩ := compactChars_lead hv
    rw [List.append_assoc, arrayBody_of_lead _ _ ⟨c, _, by rw [heq]; rfl, hspace, hclose⟩ hread]
    have hfuel : items.length < limit := by
      rw [List.length_append] at hafter
      omega
    exact arrayRest_afterItem hitems hdepth hafter hfuel [v]

/-- The items behind the first ones are read up to the closing bracket. -/
theorem arrayRest_afterItem {items : List Json} {limit depth fuel : Nat} {rest : List Char}
    (h : NumbersItems FitsWord ReadsBack items) (hdepth : depthItems items ≤ depth)
    (hlen : (afterItem items ++ rest).length < limit) (hfuel : items.length < fuel)
    (read : List Json) :
    arrayRest (valueAt limit depth) fuel read (afterItem items ++ rest) =
      some (.arr (read.reverse ++ items), rest) := by
  obtain ⟨fuel, rfl⟩ := Nat.exists_eq_succ_of_ne_zero (Nat.ne_of_gt (Nat.zero_lt_of_lt hfuel))
  cases items with
  | nil => simp [afterItem, arrayRest, skipSpace, isSpace]
  | cons v items =>
    obtain ⟨hv, hitems⟩ := h
    obtain ⟨hdepthv, hdepth⟩ := Nat.max_le.mp hdepth
    rw [afterItem, compactItems_cons, List.cons_append] at hlen ⊢
    obtain ⟨hlen, hafter⟩ := length_lt_of_append (Nat.lt_of_succ_lt hlen)
    have hread := valueAt_compactChars hv hdepthv hlen (ends_afterItem items rest)
    have hrest := arrayRest_afterItem hitems hdepth hafter (Nat.lt_of_succ_lt_succ hfuel)
      (v :: read)
    rw [List.append_assoc, arrayRest, skipSpace_of_lead rfl]
    simp only [hread, hrest, List.reverse_cons, List.append_assoc, List.singleton_append]

theorem objectBody_compactFields {fields : List (String × Json)} {limit depth : Nat}
    {rest : List Char} (h : NumbersFields FitsWord ReadsBack fields)
    (hdepth : depthFields fields ≤ depth) (hlen : (compactFields fields ++ rest).length < limit) :
    objectBody (valueAt limit depth) limit (compactFields fields ++ rest) =
      some (.obj fields, rest) := by
  match fields with
  | [] => simp [compactFields, objectBody, skipSpace, isSpace]
  | (k, v) :: fields =>
    obtain ⟨hdepthv, hdepth⟩ := Nat.max_le.mp hdepth
    rw [compactFields_cons, List.append_assoc, List.cons_append, List.append_assoc] at hlen ⊢
    obtain ⟨hvalue, hafter⟩ := length_lt_of_field hlen
    have hcount := length_lt_afterField fields
    have hread := valueAt_compactChars h.1 hdepthv hvalue (ends_afterField fields rest)
    have hfuel : fields.length < limit := by
      rw [List.length_append] at hafter
      omega
    rw [objectBody_quoteChars (field_quoteChars hlen hread)]
    exact objectRest_afterField h.2 hdepth hafter hfuel [(k, v)]

/-- The fields behind the first ones are read up to the closing brace. -/
theorem objectRest_afterField {fields : List (String × Json)} {limit depth fuel : Nat}
    {rest : List Char} (h : NumbersFields FitsWord ReadsBack fields)
    (hdepth : depthFields fields ≤ depth) (hlen : (afterField fields ++ rest).length < limit)
    (hfuel : fields.length < fuel) (read : List (String × Json)) :
    objectRest (valueAt limit depth) limit fuel read (afterField fields ++ rest) =
      some (.obj (read.reverse ++ fields), rest) := by
  obtain ⟨fuel, rfl⟩ := Nat.exists_eq_succ_of_ne_zero (Nat.ne_of_gt (Nat.zero_lt_of_lt hfuel))
  match fields with
  | [] => simp [afterField, objectRest, skipSpace, isSpace]
  | (k, v) :: fields =>
    obtain ⟨hdepthv, hdepth⟩ := Nat.max_le.mp hdepth
    rw [afterField, compactFields_cons, List.cons_append, List.append_assoc, List.cons_append,
      List.append_assoc] at hlen ⊢
    have hlen := Nat.lt_of_succ_lt hlen
    obtain ⟨hvalue, hafter⟩ := length_lt_of_field hlen
    have hread := valueAt_compactChars h.1 hdepthv hvalue (ends_afterField fields rest)
    have hrest := objectRest_afterField h.2 hdepth hafter (Nat.lt_of_succ_lt_succ hfuel)
      ((k, v) :: read)
    rw [objectRest, skipSpace_of_lead rfl]
    simp only [field_quoteChars hlen hread, hrest, List.reverse_cons, List.append_assoc,
      List.singleton_append]
end

mutual
/-- A value whose objects have increasing keys is in order already. -/
theorem order_of_ordered {v : Json} (h : v.Ordered) : order v = v := by
  cases v with
  | null | bool | int | float | str => rfl
  | arr items => rw [order, orderItems_of_ordered h]
  | obj fields => rw [order, orderFields_of_ordered h.2, KeyTable.ofList_of_ordered h.1]

theorem orderItems_of_ordered {items : List Json} (h : OrderedItems items) :
    orderItems items = items := by
  cases items with
  | nil => rfl
  | cons v items => rw [orderItems, order_of_ordered h.1, orderItems_of_ordered h.2]

theorem orderFields_of_ordered {fields : List (String × Json)} (h : OrderedFields fields) :
    orderFields fields = fields := by
  match fields with
  | [] => rfl
  | (k, v) :: fields => rw [orderFields, order_of_ordered h.1, orderFields_of_ordered h.2]
end

/-- A value is read back from its compact text when it nests no deeper than the reader goes. -/
theorem read_compact {v : Json} (hordered : v.Ordered) (hnumbers : v.Numbers FitsWord ReadsBack)
    (hdepth : v.depth ≤ maxDepth) : read (compact v) = some v := by
  have hlen : (compactChars v ++ []).length < (compactChars v).length + 1 := by simp
  have hvalue := valueAt_compactChars hnumbers hdepth hlen .nothing
  rw [List.append_nil] at hvalue
  rw [read, readRaw, toList_compact]
  simp [hvalue, skipSpace, order_of_ordered hordered]

/-- A list of texts is read back from its compact text, whatever the texts are. -/
theorem read_compact_texts (items : List String) :
    read (compact (.arr (items.map .str))) = some (.arr (items.map .str)) := by
  refine read_compact ?_ ?_ ?_
  · exact orderedItems_iff.mpr (by simp [Ordered])
  · exact numbersItems_iff.mpr (by simp [Numbers])
  · exact Nat.succ_le_succ (depthItems_le.mpr (by simp [depth]))

end DiceHost.Json
