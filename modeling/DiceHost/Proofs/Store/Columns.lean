import DiceHost.Proofs.Json.Relaxed
import DiceHost.Proofs.KeyTable
import DiceHost.Store.Column

/-! # What columns hold

Lists of texts are always read as they were written, by the host and by queries. Other values are
so if they satisfy a condition that depends on the form of the column.
-/
namespace DiceHost

/-! ## Tables of values -/

/-- An ordered table whose values satisfy a condition. -/
structure KeyTable.Suits {α : Type} (p : α → Prop) (table : KeyTable α) : Prop where
  ordered : KeyTable.Ordered table
  values : ∀ entry ∈ table, p entry.2

namespace KeyTable.Suits
variable {α : Type} {p : α → Prop} {table : KeyTable α}

theorem nil : Suits p ([] : KeyTable α) :=
  ⟨List.Pairwise.nil, fun _ hentry => absurd hentry List.not_mem_nil⟩

theorem insert (h : Suits p table) (key : String) {value : α} (hvalue : p value) :
    Suits p (KeyTable.insert key value table) := by
  refine ⟨h.ordered.insert key value, fun entry hentry => ?_⟩
  rcases mem_insert hentry with rfl | hentry
  · exact hvalue
  · exact h.values entry hentry

theorem insertAll (h : Suits p table) {entries : List (String × α)}
    (hentries : ∀ entry ∈ entries, p entry.2) : Suits p (KeyTable.insertAll table entries) :=
  ⟨ordered_insertAll h.ordered entries, fun entry hentry =>
    (mem_of_mem_insertAll hentry).elim (hentries entry) (h.values entry)⟩

end KeyTable.Suits

namespace Column

/-! ## Lists of texts -/

/-- Lists of texts are read as they were written. -/
class ReadsTexts (γ : Type) [Column γ] : Prop where
  texts (items : List String) : decodeWith texts? (ofStrings items : γ) = .ok items
  holds (items : List String) (text : String) :
    holds? (ofStrings items : γ) text = some (items.contains text)

theorem texts?_arr (items : List String) : texts? (.arr (items.map .str)) = some items := by
  rw [texts?]
  induction items with
  | nil => rfl
  | cons item rest ih =>
    rw [List.map_cons, List.mapM_cons, ih]
    rfl

theorem decodeWith_texts {γ : Type} [Column γ] {items : List String}
    (h : decode (encode (.arr (items.map .str)) : γ) = some (.arr (items.map .str))) :
    decodeWith texts? (ofStrings items : γ) = .ok items := by
  rw [decodeWith, ofStrings, h, Option.bind_some, texts?_arr]

instance : ReadsTexts JsonText where
  texts items := decodeWith_texts (Json.read_compact_texts items)
  holds items text := Json.Relaxed.holds?_compact_texts items text

instance : ReadsTexts Verbatim where
  texts _ := decodeWith_texts rfl
  holds items text := by
    refine congrArg some ?_
    show (items.map Json.str).any (fun v => v.asText? = some text) = items.contains text
    rw [List.any_map, List.contains_eq_any_beq]
    refine List.any_congr rfl (fun item => ?_)
    simp [Json.asText?, eq_comm, beq_eq_decide]

/-! ## Values -/

/-- Columns hold what was written into them, if it is a list of texts, a value that satisfies a
condition, as every text does, or a table of such values. -/
structure Faithful (γ : Type) [Column γ] (p : Json → Prop) : Prop extends ReadsTexts γ where
  text (s : String) : p (.str s)
  value {v : Json} (h : p v) : decode (encode v : γ) = some v
  fields {fields : Fields} (h : KeyTable.Suits p fields) :
    decodeWith fields? (ofFields fields : γ) = .ok fields

/-- A value that comes back from JSON text, alone and in a table. -/
structure Textual (v : Json) : Prop where
  ordered : v.Ordered
  numbers : v.Numbers Json.FitsWord Json.ReadsBack
  depth : v.depth < Json.maxDepth

theorem faithful_jsonText : Faithful JsonText Textual where
  text s := ⟨trivial, trivial, by simp [Json.depth, Json.maxDepth]⟩
  value h := Json.read_compact h.ordered h.numbers (Nat.le_of_lt h.depth)
  fields {fields} h := by
    have hordered : (Json.obj fields).Ordered :=
      ⟨h.ordered, Json.orderedFields_iff.mpr fun entry hentry => (h.values entry hentry).ordered⟩
    have hnumbers : (Json.obj fields).Numbers Json.FitsWord Json.ReadsBack :=
      Json.numbersFields_iff.mpr fun entry hentry => (h.values entry hentry).numbers
    have hdepth : (Json.obj fields).depth ≤ Json.maxDepth :=
      Nat.succ_le_succ (Json.depthFields_le.mpr fun entry hentry =>
        Nat.le_of_lt_succ (h.values entry hentry).depth)
    have hread : decode (ofFields fields : JsonText) = some (.obj fields) :=
      Json.read_compact hordered hnumbers hdepth
    rw [decodeWith, hread]
    rfl

end Column
end DiceHost
