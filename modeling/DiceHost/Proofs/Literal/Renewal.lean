import DiceHost.Proofs.Literal.RoundTrip

/-! # Literals written again

Whatever the text, a value that is read is one the host can hold, and it nests no deeper than
the reader follows. So it can be written and read again; then only a list without items has
become an object, and from there on neither the value nor its text changes.
-/
namespace DiceHost.Literal
open DiceHost.Decimal

/-! ## Values with a bound on their nesting -/

/-- A value of the host that nests at most so deep. -/
def Within (depth : Nat) (v : Json) : Prop := v.Held ∧ v.depth ≤ depth

section Within
variable {depth : Nat}

theorem within_null : Within depth .null := ⟨⟨trivial, trivial⟩, Nat.zero_le _⟩

theorem within_bool (b : Bool) : Within depth (.bool b) := ⟨⟨trivial, trivial⟩, Nat.zero_le _⟩

theorem within_str (s : String) : Within depth (.str s) := ⟨⟨trivial, trivial⟩, Nat.zero_le _⟩

theorem within_int {n : Int} (h : Json.FitsWord n) : Within depth (.int n) :=
  ⟨⟨trivial, h⟩, Nat.zero_le _⟩

theorem within_float {x : Float} (h : isFinite x = true) : Within depth (.float x) :=
  ⟨⟨trivial, h⟩, Nat.zero_le _⟩

theorem within_arr {items : List Json} (h : ∀ v ∈ items, Within depth v) :
    Within (depth + 1) (.arr items) := by
  refine ⟨⟨?_, ?_⟩, ?_⟩
  · exact Json.orderedItems_iff.mpr (fun v hv => (h v hv).1.ordered)
  · exact Json.numbersItems_iff.mpr (fun v hv => (h v hv).1.numbers)
  · exact Nat.succ_le_succ (Json.depthItems_le.mpr (fun v hv => (h v hv).2))

theorem within_obj {fields : List (String × Json)} (hordered : KeyTable.Ordered fields)
    (h : ∀ field ∈ fields, Within depth field.2) : Within (depth + 1) (.obj fields) := by
  refine ⟨⟨⟨hordered, ?_⟩, ?_⟩, ?_⟩
  · exact Json.orderedFields_iff.mpr (fun field hfield => (h field hfield).1.ordered)
  · exact Json.numbersFields_iff.mpr (fun field hfield => (h field hfield).1.numbers)
  · exact Nat.succ_le_succ (Json.depthFields_le.mpr (fun field hfield => (h field hfield).2))

/-- Every value that is read nests at most so deep. -/
def Gives (depth : Nat) (value : Scan Json) : Prop :=
  ∀ cs v rest, value cs = some (v, rest) → Within depth v

/-! ## Leaves -/

theorem within_numeral? {cs : List Char} {v : Json} (h : numeral? cs = some v) :
    Within depth v := by
  have hfloat : ((float? cs).filter isFinite).map Json.float = some v → Within depth v := by
    intro h
    obtain ⟨x, hx, rfl⟩ := Option.map_eq_some_iff.mp h
    exact within_float (Option.filter_eq_some_iff.mp hx).2
  unfold numeral? at h
  dsimp only at h
  split at h
  · exact hfloat h
  · split at h
    · next n hn =>
      cases h
      have hfits : isInt64 n = true := (Option.filter_eq_some_iff.mp hn).2
      simp only [isInt64, Bool.and_eq_true, decide_eq_true_eq] at hfits
      refine within_int ⟨hfits.1, ?_⟩
      have hmax : maxInt ≤ maxNat := by decide
      exact Int.le_trans hfits.2 hmax
    · split at h
      · next n hn =>
        cases h
        unfold nat64? at hn
        split at hn
        · cases hn
        · have hfits : isNat64 n = true := (Option.filter_eq_some_iff.mp hn).2
          simp only [isNat64, Bool.and_eq_true, decide_eq_true_eq] at hfits
          have hmin : minInt ≤ 0 := by decide
          exact within_int ⟨Int.le_trans hmin hfits.1, hfits.2⟩
      · exact hfloat h

theorem gives_unsigned (negative : Bool) : Gives depth (unsigned negative) := by
  have hhex (n : Nat) (hn : ¬ 9223372036854775807 < n) :
      Json.FitsWord (if negative then -(n : Int) else n) := by
    unfold Json.FitsWord minInt maxNat
    split <;> omega
  have small {ds : List Char} {n : Nat}
      (hn : ¬ (ds.isEmpty || decide (9223372036854775807 < n)) = true) :
      ¬ 9223372036854775807 < n :=
    fun hlarge => hn (Bool.or_eq_true_iff.mpr (Or.inr (decide_eq_true hlarge)))
  intro cs v rest h
  unfold unsigned at h
  dsimp only at h
  split at h
  · split at h
    · cases h
    · next hn =>
      cases h
      exact within_int (hhex _ (small hn))
  · split at h
    · cases h
    · next hn =>
      cases h
      exact within_int (hhex _ (small hn))
  · obtain ⟨w, hw, heq⟩ := Option.map_eq_some_iff.mp h
    cases heq
    exact within_numeral? hw

theorem gives_number : Gives depth number := by
  intro cs v rest h
  unfold number at h
  split at h
  · exact gives_unsigned true _ _ _ h
  · exact gives_unsigned false _ _ _ h

theorem gives_wordValue : Gives depth wordValue := by
  intro cs v rest h
  unfold wordValue at h
  split at h
  · cases h
    exact within_null
  · split at h
    · cases h
      exact within_null
    · split at h
      · cases h
        exact within_bool true
      · obtain ⟨after, -, heq⟩ := Option.map_eq_some_iff.mp h
        cases heq
        exact within_bool false

/-! ## Tables and lists -/

structure ItemsWithin (depth : Nat) (items : Items) : Prop where
  positional : ∀ v ∈ items.1, Within depth v
  named : ∀ field ∈ items.2, Within depth field.2

theorem ItemsWithin.addItem {items : Items} (h : ItemsWithin depth items) (k : Option String)
    {v : Json} (hv : Within depth v) : ItemsWithin depth (addItem items k v) := by
  cases k with
  | none => exact ⟨List.forall_mem_cons.mpr ⟨hv, h.positional⟩, h.named⟩
  | some k => exact ⟨h.positional, List.forall_mem_cons.mpr ⟨hv, h.named⟩⟩

theorem ItemsWithin.tableValue {items : Items} (h : ItemsWithin depth items) :
    Within (depth + 1) (tableValue items) := by
  unfold Literal.tableValue
  split
  · split
    · exact within_obj List.Pairwise.nil (by simp)
    · exact within_arr (fun v hv => h.positional v (List.mem_reverse.mp hv))
  · refine within_obj (KeyTable.ordered_ofList _) (fun field hfield => ?_)
    rcases List.mem_append.mp (KeyTable.mem_of_mem_ofList hfield) with hmem | hmem
    · obtain ⟨i, hi, rfl⟩ := List.mem_mapIdx.mp hmem
      exact h.positional _ (List.mem_reverse.mp (List.getElem_mem hi))
    · exact h.named field (List.mem_reverse.mp hmem)

section Nested
variable {value : Scan Json} (hvalue : Gives depth value)
include hvalue

theorem within_table (limit : Nat) {fuel : Nat} {items : Items} (hitems : ItemsWithin depth items)
    {cs rest : List Char} {v : Json} (h : table value limit fuel items cs = some (v, rest)) :
    Within (depth + 1) v := by
  induction fuel generalizing items cs with
  | zero => cases h
  | succ fuel ih =>
    unfold table at h
    split at h
    · cases h
      exact hitems.tableValue
    · split at h
      · cases h
      · next k tail hkey =>
        split at h
        · cases h
        · next w after hread =>
          have hadded := hitems.addItem k (hvalue _ _ _ hread)
          dsimp only at h
          split at h
          · exact ih hadded h
          · exact ih hadded h
          · cases h
            exact hadded.tableValue
          · cases h

theorem within_list {fuel : Nat} {items : List Json} (hitems : ∀ v ∈ items, Within depth v)
    {cs rest : List Char} {v : Json} (h : list value fuel items cs = some (v, rest)) :
    Within (depth + 1) v := by
  induction fuel generalizing items cs with
  | zero => cases h
  | succ fuel ih =>
    unfold list at h
    split at h
    · cases h
      exact within_arr (fun v hv => hitems v (List.mem_reverse.mp hv))
    · split at h
      · cases h
      · next w after hread =>
        have hadded : ∀ v ∈ w :: items, Within depth v :=
          List.forall_mem_cons.mpr ⟨hvalue _ _ _ hread, hitems⟩
        split at h
        · exact ih hadded h
        · cases h
          exact within_arr (fun v hv => hadded v (List.mem_reverse.mp hv))
        · cases h

end Nested

theorem gives_valueWith {table list : Scan Json} (htable : Gives depth table)
    (hlist : Gives depth list) (limit : Nat) : Gives depth (valueWith table list limit) := by
  intro cs v rest h
  unfold valueWith at h
  split at h
  · cases h
  · split at h
    · exact htable _ _ _ h
    · split at h
      · split at h
        · obtain ⟨⟨s, after⟩, -, heq⟩ := Option.map_eq_some_iff.mp h
          cases heq
          exact within_str s
        · exact hlist _ _ _ h
      · split at h
        · obtain ⟨⟨s, after⟩, -, heq⟩ := Option.map_eq_some_iff.mp h
          cases heq
          exact within_str s
        · split at h
          · exact gives_number _ _ _ h
          · exact gives_wordValue _ _ _ h

/-- A value nests no deeper than its reader was allowed to follow. -/
theorem gives_valueAt (limit depth : Nat) : Gives depth (valueAt limit depth) := by
  induction depth with
  | zero =>
    have hnone : Gives 0 (fun _ => none) := fun _ _ _ h => nomatch h
    exact gives_valueWith hnone hnone limit
  | succ depth ih =>
    refine gives_valueWith (fun cs v rest h => ?_) (fun cs v rest h => ?_) limit
    · exact within_table ih limit ⟨by simp, by simp⟩ h
    · exact within_list ih (by simp) h

end Within

theorem within_of_decode {text : String} {v : Json} (h : decode text = some v) :
    Within maxDepth v := by
  unfold decode decodeChars at h
  split at h
  · next hread =>
    split at h
    · cases h
      exact gives_valueAt _ _ _ _ _ hread
    · cases h
  · cases h

/-! ## Written again -/

mutual
/-- A list without items is written like an object without fields. -/
theorem chars_normal (v : Json) : chars (normal v) = chars v := by
  match v with
  | .null | .bool _ | .int _ | .float _ | .str _ | .arr [] => rfl
  | .arr (w :: rest) =>
    have hitems := itemChars_normalItems (w :: rest)
    exact congrArg (List.cons '{') hitems
  | .obj fields => exact congrArg (List.cons '{') (fieldChars_normalFields fields)

theorem itemChars_normalItems (items : List Json) :
    itemChars (normalItems items) = itemChars items := by
  match items with
  | [] => rfl
  | [v] => simp only [normalItems, itemChars, chars_normal v]
  | v :: w :: rest =>
    have hrest := itemChars_normalItems (w :: rest)
    simp only [normalItems] at hrest
    simp only [normalItems, itemChars, chars_normal v, hrest]

theorem fieldChars_normalFields (fields : List (String × Json)) :
    fieldChars (normalFields fields) = fieldChars fields := by
  match fields with
  | [] => rfl
  | [(k, v)] => simp only [normalFields, fieldChars, chars_normal v]
  | (k, v) :: (l, w) :: rest =>
    have hrest := fieldChars_normalFields ((l, w) :: rest)
    simp only [normalFields] at hrest
    simp only [normalFields, fieldChars, chars_normal v, hrest]
end

/-- The text after so many passes of a reader and a writer. -/
def renewed (text : String) : Nat → Option String
  | 0 => some text
  | passes + 1 => (renewed text passes).bind (fun t => (decode t).map encode)

/-- Any text that is read stands for a value of at most 128 nested tables. Written and read
again the value only has an object for each list without items, and every pass after the first
finds the text as it is. -/
theorem decode_renewed {text : String} {v : Json} (h : decode text = some v) :
    v.depth ≤ 128 ∧ (v.Numbers (fun _ => True) ReadsBack →
      decode (encode v) = some (normal v) ∧
        ∀ passes, renewed text (passes + 1) = some (encode v)) := by
  obtain ⟨hheld, hdepth⟩ := within_of_decode h
  refine ⟨hdepth, fun hread => ?_⟩
  have hnumbers : v.Numbers Json.FitsWord Carried :=
    Json.Numbers.combine (fun _ h _ => h) (fun _ h h' => ⟨h, h'⟩) hheld.numbers hread
  have hagain : decode (encode v) = some (normal v) := by
    rw [decode, encode, String.toList_ofList, decodeChars_chars hheld.ordered hnumbers,
      if_pos hdepth]
  refine ⟨hagain, fun passes => ?_⟩
  induction passes with
  | zero => simp [renewed, h]
  | succ passes ih =>
    have hsame : encode (normal v) = encode v := congrArg String.ofList (chars_normal v)
    rw [renewed, ih, Option.bind_some, hagain, Option.map_some, hsame]

/-- Items without keys beside keys, a key written twice, a comment, a long text and a list
without items. -/
theorem decode_renewed_mixed :
    let text :=
      "\x7b7, x=0xF, ['no go']=\x7b1.5, 'a'; 'b'\x7d -- c\n, y=[], [=[long]=], x=-2\x7d"
    let v : Json := .obj [("1", .int 7), ("2", .str "long"),
      ("no go", .arr [.float 1.5, .str "a", .str "b"]), ("x", .int (-2)), ("y", .arr [])]
    (decode text = some v ∧ v.Numbers (fun _ => True) ReadsBack) ∧
      v.depth ≤ 128 ∧ decode (encode v) = some (normal v) ∧
        ∀ passes, renewed text (passes + 1) = some (encode v) := by
  intro text v
  have h : decode text = some v := by decide +kernel
  have hread : v.Numbers (fun _ => True) ReadsBack := by
    simp only [v, Json.Numbers, Json.NumbersFields, Json.NumbersItems, ReadsBack]
    decide +kernel
  obtain ⟨hdepth, hagain⟩ := decode_renewed h
  exact ⟨⟨h, hread⟩, hdepth, hagain hread⟩

end DiceHost.Literal
