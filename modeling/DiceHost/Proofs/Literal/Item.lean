import DiceHost.Proofs.Json.Held
import DiceHost.Proofs.Literal.Numeral
import DiceHost.Proofs.Literal.Quoted
import Mathlib.Data.List.TakeDrop

/-! # Where items and keys begin and end

The first one or two characters of a written value tell the reader what it is; the
character after it, a comma or a closing one, tells that it is neither a key nor part
of a longer word. The lemmas here read one leaf, or one key, in front of any such rest.
-/
namespace DiceHost.Literal
open DiceHost.Text DiceHost.Decimal

/-- The text begins with a value: there is nothing to skip, no table or list ends here, and
no equals sign stands here. -/
inductive Opens : List Char → Prop where
  | intro {c : Char} {tail : List Char} (hblank : isAsciiBlank c = false) (hminus : c ≠ '-')
      (hbrace : c ≠ '}') (hbracket : c ≠ ']') (hequals : c ≠ '=') : Opens (c :: tail)
  | negative {c : Char} {tail : List Char} (hdigit : isAsciiDigit c = true) :
      Opens ('-' :: c :: tail)

theorem Opens.append {cs : List Char} (h : Opens cs) (rest : List Char) : Opens (cs ++ rest) := by
  cases h with
  | intro hblank hminus hbrace hbracket hequals =>
    exact .intro hblank hminus hbrace hbracket hequals
  | negative hdigit => exact .negative hdigit

theorem Opens.skip {cs : List Char} (h : Opens cs) : skip cs = cs := by
  cases h with
  | intro hblank hminus => simp [Literal.skip, skipFrom, hblank, hminus]
  | negative hdigit =>
    have hne := beq_eq_false_iff_ne.mp (isAsciiDigit_ne hdigit (x := '-') rfl)
    simp [Literal.skip, skipFrom, isAsciiBlank, hne]

theorem Opens.ne_brace {cs : List Char} (h : Opens cs) (rest : List Char) : cs ≠ '}' :: rest := by
  cases h with
  | intro hblank hminus hbrace => simp [hbrace]
  | negative => simp

theorem Opens.ne_bracket {cs : List Char} (h : Opens cs) (rest : List Char) : cs ≠ ']' :: rest := by
  cases h with
  | intro hblank hminus hbrace hbracket => simp [hbracket]
  | negative => simp

theorem Opens.equals? {cs : List Char} (h : Opens cs) : equals? ('=' :: cs) = some cs := by
  cases h with
  | intro hblank hminus hbrace hbracket hequals => simp [Literal.equals?, hequals]
  | negative => simp [Literal.equals?]

theorem opens_digit {c : Char} (h : isAsciiDigit c = true) (tail : List Char) :
    Opens (c :: tail) := by
  rw [isAsciiDigit_iff] at h
  have hne {x : Char} (hx : x.toNat < 48 ∨ 57 < x.toNat) : c ≠ x := by
    rintro rfl
    omega
  refine .intro ?_ (hne (by decide)) (hne (by decide)) (hne (by decide)) (hne (by decide))
  have hfeed : c.toNat ≠ 12 := by omega
  simp [isAsciiBlank, hne (x := ' ') (by decide), hne (x := '\t') (by decide),
    hne (x := '\n') (by decide), hne (x := '\r') (by decide), hfeed]

theorem Unsigned.opens {body : List Char} (h : Unsigned body) : Opens body := by
  obtain ⟨c, tail, rfl, hc⟩ := h.lead
  exact opens_digit hc tail

theorem Unsigned.opens_neg {body : List Char} (h : Unsigned body) : Opens ('-' :: body) := by
  obtain ⟨c, tail, rfl, hc⟩ := h.lead
  exact .negative hc

theorem opens_intDigits (n : Int) : Opens (intDigits n false) := by
  have hu := unsigned_natDigits n.natAbs
  by_cases h : n < 0
  · simpa [intDigits, h] using hu.opens_neg
  · simpa [intDigits, h] using hu.opens

theorem opens_float {layout : Layout} (hpointed : layout.pointed = true) {x : Float}
    (h : isFinite x = true) : Opens (layout.write x).toList := by
  obtain ⟨body, hb, htext⟩ := floatBody_write hpointed h
  have hu := unsigned_floatBody hb
  rcases htext with htext | htext
  · exact htext ▸ hu.opens
  · exact htext ▸ hu.opens_neg

/-! ## Leaves -/

section Leaf
variable (table list : Scan Json) (limit : Nat)

theorem Ends.skip {rest : List Char} (h : Ends rest) : skip rest = rest := by
  cases h <;> simp [Literal.skip, skipFrom, isAsciiBlank]

theorem Ends.equals? {rest : List Char} (h : Ends rest) : equals? rest = none := by
  cases h <;> rfl

/-- A literal word is read when its rest does not continue it. -/
theorem word?_append (word : List Char) {rest : List Char} (h : Ends rest) :
    word? word (word ++ rest) = some rest := by
  have hstrip : stripPrefixChars word (word ++ rest) = some rest := by
    induction word with
    | nil => rfl
    | cons c word ih => simpa [stripPrefixChars] using ih
  unfold word?
  rw [hstrip]
  cases h <;> rfl

theorem word?_of_ne {c d : Char} (h : c ≠ d) (word rest : List Char) :
    word? (c :: word) (d :: rest) = none := by
  simp [word?, stripPrefixChars, h]

theorem valueWith_null {rest : List Char} (h : Ends rest) :
    valueWith table list limit (['n', 'i', 'l'] ++ rest) = some (.null, rest) := by
  have hword := word?_append ['n', 'i', 'l'] h
  have hopens : Opens ['n', 'i', 'l'] := .intro rfl (by decide) (by decide) (by decide) (by decide)
  unfold valueWith
  rw [(hopens.append rest).skip]
  simp only [List.cons_append, List.nil_append] at hword ⊢
  simp [wordValue, hword, isAsciiDigit]

theorem valueWith_bool (b : Bool) {rest : List Char} (h : Ends rest) :
    valueWith table list limit (chars (.bool b) ++ rest) = some (.bool b, rest) := by
  cases b with
  | true =>
    have hword := word?_append ['t', 'r', 'u', 'e'] h
    have hopens : Opens ['t', 'r', 'u', 'e'] := .intro rfl (by decide) (by decide) (by decide) (by decide)
    unfold valueWith chars
    rw [(hopens.append rest).skip]
    simp only [List.cons_append, List.nil_append] at hword ⊢
    simp [wordValue, word?_of_ne, hword, isAsciiDigit]
  | false =>
    have hword := word?_append ['f', 'a', 'l', 's', 'e'] h
    have hopens : Opens ['f', 'a', 'l', 's', 'e'] := .intro rfl (by decide) (by decide) (by decide) (by decide)
    unfold valueWith chars
    rw [(hopens.append rest).skip]
    simp only [List.cons_append, List.nil_append] at hword ⊢
    simp [wordValue, word?_of_ne, hword, isAsciiDigit]

theorem valueWith_string {s : String} {cs rest : List Char}
    (hread : string limit '"' cs = some (s, rest)) :
    valueWith table list limit ('"' :: cs) = some (.str s, rest) := by
  have hopens : Opens ('"' :: cs) := .intro rfl (by decide) (by decide) (by decide) (by decide)
  unfold valueWith
  rw [hopens.skip]
  simp [hread]

theorem valueWith_quote (s : String) {rest : List Char} (h : (quote s ++ rest).length ≤ limit) :
    valueWith table list limit (quote s ++ rest) = some (.str s, rest) := by
  rw [quote_append]
  exact valueWith_string table list limit (string_quote s rest h)

/-- The first character of a written number. -/
def NumberLead (c : Char) : Prop := c = '-' ∨ isAsciiDigit c = true

theorem NumberLead.ne {c x : Char} (h : NumberLead c) (hx : isAsciiDigit x = false)
    (hminus : x ≠ '-') : (c == x) = false := by
  rcases h with rfl | h
  · exact beq_eq_false_iff_ne.mpr hminus.symm
  · exact isAsciiDigit_ne h hx

theorem NumberLead.isNameStart {c : Char} (h : NumberLead c) : isNameStart c = false := by
  rcases h with rfl | h
  · rfl
  · have hunder : c ≠ '_' := by rintro rfl; cases h
    rw [isAsciiDigit_iff] at h
    simp [Literal.isNameStart, isAsciiLetter, isAsciiLower, isAsciiUpper, Char.le_def,
      UInt32.le_iff_toNat_le, hunder]
    omega

theorem valueWith_number {c : Char} {tail : List Char} (hc : NumberLead c)
    (hopens : Opens (c :: tail)) :
    valueWith table list limit (c :: tail) = number (c :: tail) := by
  have hlead : (c == '-' || isAsciiDigit c || c == '.') = true := by
    rcases hc with rfl | hc
    · rfl
    · simp [hc]
  unfold valueWith
  rw [hopens.skip]
  simp only [hc.ne (x := '{') rfl (by decide), hc.ne (x := '[') rfl (by decide),
    hc.ne (x := '"') rfl (by decide), hc.ne (x := '\'') rfl (by decide), hlead]
  simp

theorem numberLead_intDigits (n : Int) :
    ∃ c tail, intDigits n false = c :: tail ∧ NumberLead c := by
  by_cases h : n < 0
  · exact ⟨'-', natDigits n.natAbs, by simp [intDigits, h], Or.inl rfl⟩
  · obtain ⟨c, tail, heq, hc⟩ := (unsigned_natDigits n.natAbs).lead
    exact ⟨c, tail, by simp [intDigits, h, heq], Or.inr hc⟩

theorem numberLead_float (layout : Layout) (hpointed : layout.pointed = true) {x : Float}
    (h : isFinite x = true) : ∃ c tail, (layout.write x).toList = c :: tail ∧ NumberLead c := by
  obtain ⟨body, hb, htext⟩ := floatBody_write hpointed h
  rcases htext with htext | htext
  · obtain ⟨c, tail, rfl, hc⟩ := (unsigned_floatBody hb).lead
    exact ⟨c, tail, htext, Or.inr hc⟩
  · exact ⟨'-', body, htext, Or.inl rfl⟩

theorem valueWith_int {n : Int} (h : Json.FitsWord n) {rest : List Char} (hr : Ends rest) :
    valueWith table list limit (chars (.int n) ++ rest) = some (.int n, rest) := by
  have hopens := (opens_intDigits n).append rest
  have hread := number_intDigits h.1 h.2 hr
  obtain ⟨c, tail, heq, hc⟩ := numberLead_intDigits n
  rw [chars, toList_toString]
  rw [heq, List.cons_append] at hopens hread ⊢
  rw [valueWith_number table list limit hc hopens, hread]

theorem valueWith_float {layout : Layout} (hpointed : layout.pointed = true) {x : Float}
    (hfinite : isFinite x = true) (hread : float? (layout.write x).toList = some x)
    {rest : List Char} (hr : Ends rest) :
    valueWith table list limit ((layout.write x).toList ++ rest) = some (.float x, rest) := by
  have hopens := (opens_float hpointed hfinite).append rest
  have hnumber := number_float hpointed hfinite hread hr
  obtain ⟨c, tail, heq, hc⟩ := numberLead_float layout hpointed hfinite
  rw [heq, List.cons_append] at hopens hnumber ⊢
  rw [valueWith_number table list limit hc hopens, hnumber]

end Leaf

/-! ## Keys -/

section Key
variable (value : Scan Json) (limit : Nat)

theorem span_append {p : Char → Bool} {word rest : List Char} (hword : ∀ c ∈ word, p c = true)
    (hrest : ∀ c, rest.head? = some c → p c = false) : (word ++ rest).span p = (word, rest) := by
  have htake : (word ++ rest).takeWhile p = word := by
    rw [List.takeWhile_append_of_pos hword]
    cases rest with
    | nil => simp
    | cons c rest => simp [hrest c rfl]
  have hdrop : (word ++ rest).dropWhile p = rest := by
    rw [List.dropWhile_append_of_pos hword]
    cases rest with
    | nil => simp
    | cons c rest => simp [hrest c rfl]
  rw [List.span_eq_takeWhile_dropWhile, htake, hdrop]

theorem Ends.head_isNameChar {rest : List Char} (h : Ends rest) (c : Char)
    (hc : rest.head? = some c) : isNameChar c = false := by
  cases h <;> cases hc <;> rfl

/-- A word without an equals sign is an item. -/
theorem key_word {c : Char} (word : List Char) {rest : List Char} (hc : isNameStart c = true)
    (hword : ∀ d ∈ c :: word, isNameChar d = true) (hr : Ends rest) :
    key value limit (c :: word ++ rest) = some (none, c :: word ++ rest) := by
  have hspan := span_append hword hr.head_isNameChar
  have hne {x : Char} (hx : isNameStart x = false) : (c == x) = false := by
    refine beq_eq_false_iff_ne.mpr ?_
    rintro rfl
    rw [hc] at hx
    cases hx
  rw [List.cons_append] at hspan ⊢
  simp only [key, hne (x := '[') rfl, hne (x := '"') rfl, hne (x := '\'') rfl, hc, hspan, hr.skip,
    hr.equals?]
  simp

/-- A string without a colon or an equals sign is an item. -/
theorem key_string {s : String} {cs rest : List Char}
    (hread : string limit '"' cs = some (s, rest)) (hr : Ends rest) :
    key value limit ('"' :: cs) = some (none, '"' :: cs) := by
  simp only [key, hread, hr.skip]
  cases hr <;> simp [Literal.equals?]

theorem key_quote (s : String) {rest : List Char} (h : (quote s ++ rest).length ≤ limit)
    (hr : Ends rest) : key value limit (quote s ++ rest) = some (none, quote s ++ rest) := by
  rw [quote_append]
  exact key_string value limit (string_quote s rest h) hr

/-- A string in front of a colon is a key, whatever value begins after it. -/
theorem key_colon {k : String} {cs after : List Char}
    (hread : string limit '"' cs = some (k, ':' :: after)) (hopens : Opens after) :
    key value limit ('"' :: cs) = some (some k, after) := by
  have hskip : skip (':' :: after) = ':' :: after := by simp [skip, skipFrom, isAsciiBlank]
  cases hopens with
  | intro hblank hminus hbrace hbracket hequals => simp [key, hread, hskip, hequals]
  | negative => simp [key, hread, hskip]

/-- Anything else that begins a value is an item. -/
theorem key_other {c : Char} {tail : List Char} (hbracket : (c == '[') = false)
    (hdouble : (c == '"') = false) (hsingle : (c == '\'') = false)
    (hname : isNameStart c = false) : key value limit (c :: tail) = some (none, c :: tail) := by
  simp [key, hbracket, hdouble, hsingle, hname]

theorem isBareKey_spec {k : String} (h : isBareKey k = true) :
    ∃ c word, k.toList = c :: word ∧ isNameStart c = true ∧
      ∀ d ∈ c :: word, isNameChar d = true := by
  unfold isBareKey at h
  split at h
  · cases h
  · next c word heq =>
    simp only [Bool.and_eq_true, List.all_eq_true] at h
    obtain ⟨⟨hstart, hword⟩, -⟩ := h
    refine ⟨c, word, heq, hstart, ?_⟩
    intro d hd
    rcases List.mem_cons.mp hd with rfl | hd
    · unfold isNameStart at hstart
      unfold isNameChar isAsciiAlphanumeric
      rcases Bool.or_eq_true_iff.mp hstart with hstart | hstart
      · simp [hstart]
      · simp [hstart]
    · exact hword d hd

theorem opens_keyChars (k : String) : Opens (keyChars k) := by
  unfold keyChars
  split
  · next h =>
    obtain ⟨c, word, heq, hc, -⟩ := isBareKey_spec h
    have hne {x : Char} (hx : isNameStart x = false) : c ≠ x := by
      rintro rfl
      rw [hc] at hx
      cases hx
    have hfeed : c.toNat ≠ 12 := by
      intro h12
      have hchar : c = Char.ofNat 12 := by rw [← h12, Char.ofNat_toNat]
      exact hne (x := Char.ofNat 12) rfl hchar
    rw [heq]
    refine .intro ?_ (hne rfl) (hne rfl) (hne rfl) (hne rfl)
    simp [isAsciiBlank, hne (x := ' ') rfl, hne (x := '\t') rfl, hne (x := '\n') rfl,
      hne (x := '\r') rfl, hfeed]
  · exact .intro rfl (by decide) (by decide) (by decide) (by decide)

/-- A bare key ends at its equals sign. -/
theorem key_bare {k : String} (h : isBareKey k = true) {cs : List Char} (hopens : Opens cs) :
    key value limit (k.toList ++ '=' :: cs) = some (some k, cs) := by
  obtain ⟨c, word, heq, hc, hword⟩ := isBareKey_spec h
  have hspan : (c :: word ++ '=' :: cs).span isNameChar = (c :: word, '=' :: cs) :=
    span_append hword (by simp [isNameChar, isAsciiAlphanumeric, isAsciiLetter, isAsciiLower,
      isAsciiUpper, isAsciiDigit])
  have hne {x : Char} (hx : isNameStart x = false) : (c == x) = false := by
    refine beq_eq_false_iff_ne.mpr ?_
    rintro rfl
    rw [hc] at hx
    cases hx
  have hskip : skip ('=' :: cs) = '=' :: cs := by simp [skip, skipFrom, isAsciiBlank]
  have hk : String.ofList (c :: word) = k := by rw [← heq, String.ofList_toList]
  rw [heq, List.cons_append] at *
  simp only [key, hne (x := '[') rfl, hne (x := '"') rfl, hne (x := '\'') rfl, hc, hspan, hskip,
    hopens.equals?, hk]
  simp

/-- A bracketed key is a quoted text. -/
theorem key_bracket (k : String) (cs : List Char)
    (hvalue : value (quote k ++ ']' :: '=' :: cs) = some (.str k, ']' :: '=' :: cs)) :
    key value limit ('[' :: (quote k ++ ']' :: '=' :: cs)) = some (some k, cs) := by
  have hlong : opensLong (quote k ++ ']' :: '=' :: cs) = false := by
    rw [quote_append]
    rfl
  have hskip : skip (']' :: '=' :: cs) = ']' :: '=' :: cs := by simp [skip, skipFrom, isAsciiBlank]
  have hskip' : skip ('=' :: cs) = '=' :: cs := by simp [skip, skipFrom, isAsciiBlank]
  simp [key, hlong, hvalue, hskip, hskip', keyText]

end Key

/-- Whatever nesting is allowed, leaves are read in the same way. -/
theorem valueAt_eq (limit depth : Nat) :
    ∃ table list, valueAt limit depth = valueWith table list limit := by
  cases depth with
  | zero => exact ⟨_, _, rfl⟩
  | succ depth => exact ⟨_, _, rfl⟩

theorem key_keyChars (limit depth : Nat) (k : String) {cs : List Char} (hopens : Opens cs)
    (hlen : (keyChars k ++ '=' :: cs).length ≤ limit) :
    key (valueAt limit depth) limit (keyChars k ++ '=' :: cs) = some (some k, cs) := by
  unfold keyChars at hlen ⊢
  by_cases h : isBareKey k = true
  · rw [if_pos h]
    exact key_bare _ limit h hopens
  · obtain ⟨table, list, heq⟩ := valueAt_eq limit depth
    simp only [if_neg h, List.cons_append, List.append_assoc, List.nil_append, List.length_cons,
      List.length_append] at hlen ⊢
    refine key_bracket _ limit k cs ?_
    rw [heq]
    refine valueWith_quote table list limit k ?_
    simp only [List.length_cons, List.length_append]
    omega

end DiceHost.Literal
