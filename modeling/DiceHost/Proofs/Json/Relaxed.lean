import DiceHost.Json.Relaxed
import DiceHost.Proofs.Json.RoundTrip
import Mathlib.Data.List.TakeWhile

/-! # Lists of texts in queries

A query finds a text in the compact form of a list of texts exactly when it is one of them. What
the writer puts for a character is a piece that says this character, so the pieces of a text say
the text.
-/
namespace DiceHost.Json.Relaxed
open DiceHost.Text

/-! ## Pieces -/

/-- A piece is read as a character. -/
def Piece.Says (c : Char) : Piece → Prop
  | plain d => d = c
  | escape _ n => n = c.toNat
  | join => False

theorem not_surrogate (c : Char) :
    isHighSurrogate c.toNat = false ∧ isLowSurrogate c.toNat = false := by
  have hvalid := c.valid
  have hval : c.toNat = c.val.toNat := rfl
  unfold UInt32.isValidChar Nat.isValidChar at hvalid
  simp only [isHighSurrogate, isLowSurrogate, Bool.and_eq_false_iff, decide_eq_false_iff_not]
  omega

/-- The letters of the writer are letters of queries. -/
theorem escaped_letter (rest : List Char) : ∀ pair ∈ escapeLetters, escaped (pair.2 :: rest) =
    some (.escape (letterWritten pair.2 pair.1) pair.1.toNat, rest) := by
  simp [escapeLetters, escaped, isLineEnd, letter?]

theorem escaped_control {n : Nat} (h : n < 256) (rest : List Char) :
    escaped ('u' :: '0' :: '0' :: hexDigit (n / 16) :: hexDigit (n % 16) :: rest) =
      some (.escape ['\\', 'u', '0', '0', hexDigit (n / 16), hexDigit (n % 16)] n, rest) := by
  rw [escaped, hexQuad_digits h]
  rfl

/-- What is written of one character is one piece. -/
theorem exists_piece (c : Char) : ∃ piece : Piece, piece.Says c ∧ ∀ fuel acc rest,
    stringBody '"' (fuel + 1) acc (Json.escape c ++ rest) =
      stringBody '"' fuel (piece :: acc) rest := by
  obtain ⟨letter, hletter, hescape⟩ | ⟨hcontrol, hescape⟩ | ⟨hquote, hbackslash, -, hescape⟩ :=
    escape_cases c
  · refine ⟨.escape (letterWritten letter c) c.toNat, rfl, fun fuel acc rest => ?_⟩
    have hread := escaped_letter rest _ hletter
    rw [hescape]
    simp [stringBody, hread]
  · have hread (rest : List Char) := escaped_control (n := c.toNat) (by omega) rest
    refine ⟨.escape (Json.escape c) c.toNat, rfl, fun fuel acc rest => ?_⟩
    rw [hescape]
    simp [stringBody, hread]
  · refine ⟨.plain c, rfl, fun fuel acc rest => ?_⟩
    rw [hescape]
    simp [stringBody, hquote, hbackslash]

theorem stringBody_escapes (cs : List Char) {fuel : Nat} (h : cs.length < fuel)
    (rest : List Char) (acc : List Piece) :
    ∃ pieces, List.Forall₂ Piece.Says cs pieces ∧
      stringBody '"' fuel acc (cs.flatMap Json.escape ++ '"' :: rest) =
        some (acc.reverse ++ pieces, rest) := by
  induction cs generalizing fuel acc with
  | nil =>
    obtain ⟨fuel, rfl⟩ := Nat.exists_eq_succ_of_ne_zero (Nat.ne_of_gt h)
    exact ⟨[], List.Forall₂.nil, by simp [stringBody]⟩
  | cons c cs ih =>
    obtain ⟨fuel, rfl⟩ := Nat.exists_eq_succ_of_ne_zero (Nat.ne_of_gt (Nat.zero_lt_of_lt h))
    obtain ⟨piece, hpiece, hread⟩ := exists_piece c
    obtain ⟨pieces, hpieces, hrest⟩ := ih (Nat.lt_of_succ_lt_succ h) (piece :: acc)
    refine ⟨piece :: pieces, List.Forall₂.cons hpiece hpieces, ?_⟩
    rw [List.flatMap_cons, List.append_assoc, hread, hrest, List.reverse_cons, List.append_assoc]
    rfl

namespace Piece

theorem codes_of_says {cs : List Char} {pieces : List Piece}
    (h : List.Forall₂ Says cs pieces) : codes pieces = cs.map Char.toNat := by
  induction h with
  | nil => rfl
  | @cons c piece cs pieces hpiece hpieces ih =>
    rw [List.map_cons, ← ih]
    cases piece with
    | plain d =>
      cases hpiece
      rw [codes]
    | join => cases hpiece
    | escape written n =>
      cases hpiece
      -- a character is no surrogate, so it makes no pair with the next one
      cases pieces with
      | nil => rfl
      | cons next pieces =>
        cases next with
        | escape written' m => rw [codes, (not_surrogate c).1]; rfl
        | plain d => rfl
        | join => rfl

theorem text?_of_says {s : String} {pieces : List Piece}
    (h : List.Forall₂ Says s.toList pieces) : text? pieces = some s := by
  have hchars (cs : List Char) : (cs.map Char.toNat).mapM char? = some cs := by
    induction cs with
    | nil => rfl
    | cons c cs ih =>
      have hc : char? c.toNat = some c := by
        rw [char?, (not_surrogate c).1, (not_surrogate c).2]
        simp
      rw [List.map_cons, List.mapM_cons, hc, ih]
      rfl
  rw [text?, codes_of_says h, hchars, Option.map_some, String.ofList_toList]

end Piece

/-! ## Lists -/

theorem skipBlank_of_not_blank {c : Char} (h : isBlank c = false) (hslash : c ≠ '/')
    (cs : List Char) : skipBlank (c :: cs) = c :: cs := by
  cases cs <;> simp [skipBlank, h, hslash]

theorem valueAt_quote (limit depth : Nat) (cs : List Char) :
    valueAt limit depth ('"' :: cs) = string '"' limit cs := by
  have hskip := skipBlank_of_not_blank (c := '"') rfl (by decide) cs
  cases depth <;> simp [valueAt, valueWith, hskip]

/-- A text is seen as itself. -/
theorem valueAt_compact_str {s : String} {limit : Nat} (h : s.toList.length < limit) (depth : Nat)
    (rest : List Char) : ∃ written,
      valueAt limit depth (compactChars (.str s) ++ rest) =
        some (.single written (.text s), rest) := by
  obtain ⟨pieces, hpieces, hbody⟩ := stringBody_escapes s.toList h rest []
  refine ⟨quoted (pieces.flatMap Piece.written), ?_⟩
  rw [compactChars, quoteChars, List.cons_append, valueAt_quote, List.append_assoc,
    List.singleton_append, string, hbody, List.reverse_nil, List.nil_append, Option.map_some]
  dsimp only
  rw [Piece.text?_of_says hpieces]
  rfl

/-- The items of a list of texts are read up to the closing bracket. -/
theorem membersUpTo_texts {items : List String} {limit fuel : Nat}
    (hlimit : ∀ item ∈ items, item.toList.length < limit) (hfuel : items.length < fuel)
    (depth : Nat) (acc : List Seen) :
    ∃ seen, seen.map Seen.value = items.map Value.text ∧
      membersUpTo ']' (valueAt limit depth) fuel acc (compactItems (items.map .str)) =
        some (acc.reverse ++ seen, []) := by
  have hquote (cs : List Char) := skipBlank_of_not_blank (c := '"') rfl (by decide) cs
  have hclose (cs : List Char) := skipBlank_of_not_blank (c := ']') rfl (by decide) cs
  have hcomma (cs : List Char) := skipBlank_of_not_blank (c := ',') rfl (by decide) cs
  induction items generalizing fuel acc with
  | nil =>
    obtain ⟨fuel, rfl⟩ := Nat.exists_eq_succ_of_ne_zero (Nat.ne_of_gt hfuel)
    exact ⟨[], rfl, by simp [compactItems, membersUpTo, hclose]⟩
  | cons item rest ih =>
    obtain ⟨fuel, rfl⟩ := Nat.exists_eq_succ_of_ne_zero (Nat.ne_of_gt (Nat.zero_lt_of_lt hfuel))
    obtain ⟨written, hitem⟩ := valueAt_compact_str (hlimit item List.mem_cons_self) depth
      (afterItem (rest.map .str))
    obtain ⟨seen, hseen, hrest⟩ := ih
      (fun other hother => hlimit other (List.mem_cons_of_mem _ hother))
      (Nat.lt_of_succ_lt_succ hfuel) (.single written (.text item) :: acc)
    refine ⟨.single written (.text item) :: seen, by rw [List.map_cons, hseen]; rfl, ?_⟩
    have hstart : compactChars (.str item) ++ afterItem (rest.map .str) =
        '"' :: (item.toList.flatMap Json.escape ++ '"' :: afterItem (rest.map .str)) := by
      simp [compactChars, quoteChars]
    rw [hstart] at hitem
    rw [List.map_cons, compactItems_cons, hstart, membersUpTo, hquote]
    simp only [hitem]
    cases rest with
    | nil =>
      obtain rfl : seen = [] := List.map_eq_nil_iff.mp hseen
      simp [afterItem, hclose]
    | cons next rest =>
      simp only [afterItem, List.map_cons, hcomma] at hrest ⊢
      simpa using hrest

theorem valueAt_bracket (limit depth : Nat) (cs : List Char) :
    valueAt limit (depth + 1) ('[' :: cs) =
      (membersUpTo ']' (valueAt limit depth) limit [] cs).map
        (fun (items, rest) => (.list items, rest)) := by
  have hskip := skipBlank_of_not_blank (c := '[') rfl (by decide) cs
  simp [valueAt, valueWith, hskip]

/-- No text is written with a NUL character, so nothing of it is cut off. -/
theorem ne_nul_of_mem_escape {c d : Char} (h : d ∈ Json.escape c) : d ≠ '\x00' := by
  have hdigit : ∀ n < 32, hexDigit n ≠ '\x00' := by decide
  obtain ⟨letter, hletter, hescape⟩ | ⟨hcontrol, hescape⟩ | ⟨-, -, hplain, hescape⟩ :=
    escape_cases c
  · have hnul : ∀ pair ∈ escapeLetters, pair.2 ≠ '\x00' := by decide
    rw [hescape] at h
    simp only [List.mem_cons, List.not_mem_nil, or_false] at h
    rcases h with rfl | rfl
    · decide
    · exact hnul _ hletter
  · have hhigh := hdigit (c.toNat / 16) (by omega)
    have hlow := hdigit (c.toNat % 16) (by omega)
    rw [hescape] at h
    simp only [List.mem_cons, List.not_mem_nil, or_false] at h
    rcases h with rfl | rfl | rfl | rfl | rfl | rfl
    all_goals first | decide | assumption
  · rw [hescape, List.mem_singleton] at h
    rintro rfl
    subst h
    exact hplain (by decide)

theorem ne_nul_of_mem_items (items : List String) :
    ∀ c ∈ compactItems (items.map .str), c ≠ '\x00' := by
  induction items with
  | nil => simp [compactItems]
  | cons item rest ih =>
    intro c hc
    rw [List.map_cons, compactItems_cons, compactChars, quoteChars] at hc
    simp only [List.mem_append, List.mem_cons, List.mem_flatMap, List.not_mem_nil, or_false] at hc
    rcases hc with (rfl | ⟨d, -, hc⟩ | rfl) | hc
    · decide
    · exact ne_nul_of_mem_escape hc
    · decide
    · cases rest with
      | nil =>
        rw [List.map_nil, afterItem, List.mem_singleton] at hc
        subst hc
        decide
      | cons next rest =>
        rw [List.map_cons, afterItem, ← List.map_cons (f := Json.str), List.mem_cons] at hc
        rcases hc with rfl | hc
        · decide
        · exact ih c hc

/-- The texts of a list are shorter than the list is written, and so is their number. -/
theorem lengths_compactItems (items : List String) :
    items.length < (compactItems (items.map .str)).length + 1 ∧
      ∀ item ∈ items, item.toList.length < (compactItems (items.map .str)).length + 1 := by
  induction items with
  | nil => simp
  | cons item rest ih =>
    obtain ⟨hcount, hlengths⟩ := ih
    have hitem := length_le_length_escapes item.toList
    have hlength : (compactItems ((item :: rest).map .str)).length =
        (item.toList.flatMap escape).length + 2 + (afterItem (rest.map .str)).length := by
      rw [List.map_cons, compactItems_cons, List.length_append, compactChars, quoteChars]
      simp
    have hafter : (compactItems (rest.map .str)).length ≤
        (afterItem (rest.map .str)).length := by
      cases rest <;> simp [compactItems, afterItem]
    refine ⟨?_, fun other hother => ?_⟩
    · rw [List.length_cons]
      omega
    · rcases List.mem_cons.mp hother with rfl | hother
      · omega
      · have hother := hlengths other hother
        omega

theorem anyEquals_texts (text : String) (items : List String) :
    anyEquals text (items.map Value.text) = some (items.contains text) := by
  induction items with
  | nil => rfl
  | cons item rest ih =>
    rw [List.map_cons, anyEquals, ih, List.contains_cons]
    by_cases h : item = text
    · simp [h]
    · simp [h, Ne.symm h]

/-- A query finds a text in a list of texts exactly when it is one of them. -/
theorem holds?_compact_texts (items : List String) (text : String) :
    holds? (compact (.arr (items.map .str))) text = some (items.contains text) := by
  obtain ⟨hcount, hlengths⟩ := lengths_compactItems items
  have hlimit : ∀ item ∈ items, item.toList.length < (compactItems (items.map .str)).length + 2 :=
    fun item hitem => Nat.lt_succ_of_lt (hlengths item hitem)
  obtain ⟨seen, hseen, hitems⟩ := membersUpTo_texts hlimit (Nat.lt_succ_of_lt hcount) 999 []
  have hcut : (compact (.arr (items.map .str))).toList.takeWhile (· != '\x00') =
      '[' :: compactItems (items.map .str) := by
    rw [toList_compact, compactChars, List.takeWhile_eq_self_iff]
    intro c hc
    rcases List.mem_cons.mp hc with rfl | hc
    · rfl
    · simpa using ne_nul_of_mem_items items c hc
  have hvalue : value? (compact (.arr (items.map .str))) = some (.list seen) := by
    rw [value?, hcut, List.length_cons, maxDepth, valueAt_bracket, hitems]
    simp [skipBlank]
  rw [holds?, hvalue, Option.bind_some]
  exact (congrArg (anyEquals text) hseen).trans (anyEquals_texts text items)

end DiceHost.Json.Relaxed
