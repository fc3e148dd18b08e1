import DiceHost.Proofs.Literal.Item

/-! # Entries of tables and lists

An entry is written in front of a comma or of the closing character. Where each entry is read by
itself, whatever follows it, a loop over them reads all of them: it stops at the first one whose
value nests too deep, and otherwise goes on behind the closing character. Tables and lists are
two such loops.
-/
namespace DiceHost.Literal

/-- Texts with a comma between two of them, and a closing character behind the last one. -/
def enclosed (close : Char) : List (List Char) → List Char
  | [] => [close]
  | [text] => text ++ [close]
  | text :: rest => text ++ ',' :: enclosed close rest

theorem length_le_length_enclosed (close : Char) (texts : List (List Char)) :
    texts.length ≤ (enclosed close texts).length := by
  induction texts with
  | nil => simp
  | cons text rest ih =>
    cases rest with
    | nil => simp [enclosed]
    | cons other rest =>
      simp only [enclosed, List.length_append, List.length_cons] at ih ⊢
      omega

/-- Fuel for every character of the entries is fuel for every entry. -/
theorem length_lt_of_enclosed {close : Char} {texts : List (List Char)} {after : List Char}
    {limit : Nat} (h : (enclosed close texts ++ after).length < limit) : texts.length < limit := by
  have hcount := length_le_length_enclosed close texts
  rw [List.length_append] at h
  omega

/-- An entry as it is written and as it is read; no value is read of one that nests too deep. -/
structure Entry where
  text : List Char
  key : Option String
  value : Option Json

/-- The items after one more. -/
def addItem (items : Items) (k : Option String) (v : Json) : Items :=
  match k with
  | none => (v :: items.1, items.2)
  | some k => (items.1, (k, v) :: items.2)

/-- The items after an entry. -/
def Entry.add (items : Items) (e : Entry) : Option Items := e.value.map (addItem items e.key)

/-- The entry is read in a table, whatever may follow a value. -/
def Entry.Reads (value : Scan Json) (limit : Nat) (e : Entry) : Prop :=
  ∀ after, Ends after → (e.text ++ after).length ≤ limit → Opens (e.text ++ after) ∧
    ∃ tail, Literal.key value limit (e.text ++ after) = some (e.key, tail) ∧
      value tail = e.value.map (·, after)

/-- The entry is read in a list, which has no keys. -/
def Entry.ReadsAlone (value : Scan Json) (limit : Nat) (e : Entry) : Prop :=
  e.key = none ∧ ∀ after, Ends after → (e.text ++ after).length ≤ limit →
    Opens (e.text ++ after) ∧ value (e.text ++ after) = e.value.map (·, after)

/-- The entry of a value that is read as `f` has it, unless it nests too deep. -/
def Entry.within (depth : Nat) (f : Json → Json) (text : List Char) (k : Option String)
    (v : Json) : Entry :=
  ⟨text, k, if v.depth ≤ depth then some (f v) else none⟩

/-! ## A loop over entries -/

/-- A loop over entries up to a closing character, where no text is longer than `limit`. -/
structure EntryLoop (limit : Nat) where
  close : Char
  Reads : Entry → Prop
  run : Nat → Items → Scan Json
  finish : Items → Json
  at_close (fuel : Nat) (items : Items) (after : List Char) :
    run (fuel + 1) items (close :: after) = some (finish items, after)
  at_comma {e : Entry} {after : List Char} (fuel : Nat) (items : Items) (h : Reads e)
    (hlen : (e.text ++ ',' :: after).length ≤ limit) :
    run (fuel + 1) items (e.text ++ ',' :: after) =
      (e.add items).bind (fun items => run fuel items after)
  at_last {e : Entry} {after : List Char} (fuel : Nat) (items : Items) (h : Reads e)
    (hlen : (e.text ++ close :: after).length ≤ limit) :
    run (fuel + 1) items (e.text ++ close :: after) =
      (e.add items).map (fun items => (finish items, after))

section Loop
variable {limit : Nat} (loop : EntryLoop limit) {after : List Char}

/-- The entries are read one by one. -/
theorem EntryLoop.run_enclosed {entries : List Entry} (fuel : Nat) (items : Items)
    (h : ∀ e ∈ entries, loop.Reads e)
    (hlen : (enclosed loop.close (entries.map Entry.text) ++ after).length ≤ limit)
    (hfuel : entries.length < fuel) :
    loop.run fuel items (enclosed loop.close (entries.map Entry.text) ++ after) =
      (entries.foldlM Entry.add items).map (fun items => (loop.finish items, after)) := by
  induction entries generalizing fuel items with
  | nil =>
    obtain ⟨fuel, rfl⟩ := Nat.exists_eq_succ_of_ne_zero (Nat.ne_of_gt hfuel)
    exact loop.at_close fuel items after
  | cons e rest ih =>
    obtain ⟨fuel, rfl⟩ := Nat.exists_eq_succ_of_ne_zero (Nat.ne_of_gt (Nat.zero_lt_of_lt hfuel))
    obtain ⟨hfirst, hrest⟩ := List.forall_mem_cons.mp h
    cases rest with
    | nil =>
      simp only [List.map_cons, List.map_nil, enclosed, List.append_assoc,
        List.singleton_append] at hlen ⊢
      rw [loop.at_last fuel items hfirst hlen, List.foldlM_cons]
      cases e.add items <;> rfl
    | cons other rest =>
      simp only [List.map_cons, enclosed, List.append_assoc, List.cons_append] at hlen ⊢
      rw [loop.at_comma fuel items hfirst hlen, List.foldlM_cons]
      cases e.add items with
      | none => rfl
      | some items =>
        simp only [List.length_append, List.length_cons] at hlen hfuel
        exact ih fuel items hrest (by simp only [List.length_append, List.map_cons]; omega)
          (by simp only [List.length_cons]; omega)

section Within
variable (depth : Nat) (f : Json → Json)

theorem add_within (items : Items) (text : List Char) (k : Option String) (v : Json) :
    (Entry.within depth f text k v).add items =
      if v.depth ≤ depth then some (addItem items k (f v)) else none := by
  unfold Entry.add Entry.within
  split <;> rfl

theorem map_value_within (text : List Char) (k : Option String) (v : Json) (after : List Char) :
    (Entry.within depth f text k v).value.map (·, after) =
      if v.depth ≤ depth then some (f v, after) else none := by
  unfold Entry.within
  dsimp only
  split <;> rfl

theorem foldlM_items (positional : List Json) (named : List (String × Json))
    (text : Json → List Char) (items : List Json) :
    (items.map (fun v => Entry.within depth f (text v) none v)).foldlM Entry.add
        (positional, named) =
      if Json.depthItems items ≤ depth then some ((items.map f).reverse ++ positional, named)
      else none := by
  induction items generalizing positional with
  | nil => simp [Json.depthItems]
  | cons v rest ih =>
    by_cases hd : v.depth ≤ depth
    · have hdepth : Json.depthItems (v :: rest) ≤ depth ↔ Json.depthItems rest ≤ depth := by
        rw [Json.depthItems, Nat.max_le, and_iff_right hd]
      simp [add_within, addItem, ih, hdepth, hd]
    · have hdepth : ¬ Json.depthItems (v :: rest) ≤ depth := by
        rw [Json.depthItems, Nat.max_le]
        exact fun hle => hd hle.1
      simp [add_within, hdepth, hd]

theorem foldlM_fields (positional : List Json) (named : List (String × Json))
    (text : String × Json → List Char) (fields : List (String × Json)) :
    (fields.map (fun field => Entry.within depth f (text field) (some field.1) field.2)).foldlM
        Entry.add (positional, named) =
      if Json.depthFields fields ≤ depth then
        some (positional, (fields.map (fun field => (field.1, f field.2))).reverse ++ named)
      else none := by
  induction fields generalizing named with
  | nil => simp [Json.depthFields]
  | cons field rest ih =>
    by_cases hd : field.2.depth ≤ depth
    · have hdepth : Json.depthFields (field :: rest) ≤ depth ↔ Json.depthFields rest ≤ depth := by
        rw [Json.depthFields, Nat.max_le, and_iff_right hd]
      simp [add_within, addItem, ih, hdepth, hd]
    · have hdepth : ¬ Json.depthFields (field :: rest) ≤ depth := by
        rw [Json.depthFields, Nat.max_le]
        exact fun hle => hd hle.1
      simp [add_within, hdepth, hd]

variable {depth f}

/-- Items without keys are read if none of them nests too deep. -/
theorem EntryLoop.run_items {text : Json → List Char} {items : List Json}
    (h : ∀ e ∈ items.map (fun v => Entry.within depth f (text v) none v), loop.Reads e)
    (hlen : (enclosed loop.close (items.map text) ++ after).length < limit) :
    loop.run limit ([], []) (enclosed loop.close (items.map text) ++ after) =
      if Json.depthItems items ≤ depth then some (loop.finish ((items.map f).reverse, []), after)
      else none := by
  have htexts : (items.map (fun v => Entry.within depth f (text v) none v)).map Entry.text =
      items.map text := by simp [Entry.within]
  rw [← htexts] at hlen ⊢
  have hfuel := length_lt_of_enclosed hlen
  rw [List.length_map] at hfuel
  rw [loop.run_enclosed limit _ h (Nat.le_of_lt hlen) hfuel, foldlM_items]
  split <;> simp

/-- Fields are read if the value of none of them nests too deep. -/
theorem EntryLoop.run_fields {text : String × Json → List Char} {fields : List (String × Json)}
    (h : ∀ e ∈ fields.map (fun field => Entry.within depth f (text field) (some field.1) field.2),
      loop.Reads e)
    (hlen : (enclosed loop.close (fields.map text) ++ after).length < limit) :
    loop.run limit ([], []) (enclosed loop.close (fields.map text) ++ after) =
      if Json.depthFields fields ≤ depth then
        some (loop.finish ([], (fields.map (fun field => (field.1, f field.2))).reverse), after)
      else none := by
  have htexts : (fields.map (fun field => Entry.within depth f (text field) (some field.1)
      field.2)).map Entry.text = fields.map text := by simp [Entry.within]
  rw [← htexts] at hlen ⊢
  have hfuel := length_lt_of_enclosed hlen
  rw [List.length_map] at hfuel
  rw [loop.run_enclosed limit _ h (Nat.le_of_lt hlen) hfuel, foldlM_fields]
  split <;> simp

end Within
end Loop

/-! ## Tables and lists -/

def tableLoop (value : Scan Json) (limit : Nat) : EntryLoop limit where
  close := '}'
  Reads := Entry.Reads value limit
  run := table value limit
  finish := tableValue
  at_close fuel items after := by simp [table, skip, skipFrom, Text.isAsciiBlank]
  at_comma {e after} fuel items h hlen := by
    obtain ⟨hopens, tail, hkey, hvalue⟩ := h _ (.comma after) hlen
    have hskip : skip (',' :: after) = ',' :: after := (Ends.comma after).skip
    rw [table, hopens.skip]
    split
    · next rest heq => exact absurd heq (hopens.ne_brace rest)
    · simp only [hkey, hvalue, Entry.add]
      cases e.value with
      | none => rfl
      | some v =>
        simp only [Option.map_some, hskip]
        cases e.key <;> rfl
  at_last {e after} fuel items h hlen := by
    obtain ⟨hopens, tail, hkey, hvalue⟩ := h _ (.brace after) hlen
    have hskip : skip ('}' :: after) = '}' :: after := (Ends.brace after).skip
    rw [table, hopens.skip]
    split
    · next rest heq => exact absurd heq (hopens.ne_brace rest)
    · simp only [hkey, hvalue, Entry.add]
      cases e.value with
      | none => rfl
      | some v =>
        simp only [Option.map_some, hskip]
        cases e.key <;> rfl

/-- The loop over a list leaves the keyed items alone, for there are none. -/
def listLoop (value : Scan Json) (limit : Nat) : EntryLoop limit where
  close := ']'
  Reads := Entry.ReadsAlone value limit
  run fuel items := list value fuel items.1
  finish items := .arr items.1.reverse
  at_close fuel items after := by simp [list, skip, skipFrom, Text.isAsciiBlank]
  at_comma {e after} fuel items h hlen := by
    obtain ⟨hkey, h⟩ := h
    obtain ⟨hopens, hvalue⟩ := h _ (.comma after) hlen
    have hskip : skip (',' :: after) = ',' :: after := (Ends.comma after).skip
    rw [list, hopens.skip]
    split
    · next rest heq => exact absurd heq (hopens.ne_bracket rest)
    · simp only [hkey, hvalue, Entry.add]
      cases e.value with
      | none => rfl
      | some v => simp only [Option.map_some, hskip, addItem, Option.bind_some]
  at_last {e after} fuel items h hlen := by
    obtain ⟨hkey, h⟩ := h
    obtain ⟨hopens, hvalue⟩ := h _ (.bracket after) hlen
    have hskip : skip (']' :: after) = ']' :: after := (Ends.bracket after).skip
    rw [list, hopens.skip]
    split
    · next rest heq => exact absurd heq (hopens.ne_bracket rest)
    · simp only [hkey, hvalue, Entry.add]
      cases e.value with
      | none => rfl
      | some v => simp only [Option.map_some, hskip, addItem]

end DiceHost.Literal
