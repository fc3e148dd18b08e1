import DiceHost.Literal.Decode
import DiceHost.Proofs.Decimal.Integer
import DiceHost.Proofs.Json.Quoted
import DiceHost.Proofs.Text.Utf8

/-! # Quoted texts read back

A writer puts every character of a text between double quotes as one escape or as itself;
the reader of strings takes these apart one at a time, the escapes of literals and those of
JSON alike. In a literal, control characters are written with three digits, so a digit that
follows is never read as part of the escape; in JSON they are four hexadecimal digits.
-/
namespace DiceHost.Literal
open DiceHost.Text DiceHost.Decimal

/-- The reader of strings takes one character at a time of what a writer escapes. -/
def Unescapes (written : Char → List Char) : Prop :=
  ∀ c fuel acc rest, stringBody '"' (fuel + 1) acc (written c ++ rest) =
    stringBody '"' fuel ((encodeChar c).reverse ++ acc) rest

section Unescapes
variable {written : Char → List Char}

theorem Unescapes.stringBody (h : Unescapes written) (cs : List Char) {fuel : Nat}
    (acc : List UInt8) (rest : List Char) (hfuel : cs.length < fuel) :
    stringBody '"' fuel acc (cs.flatMap written ++ '"' :: rest) =
      some (acc.reverse ++ encodeChars cs, rest) := by
  induction cs generalizing fuel acc with
  | nil =>
    obtain ⟨fuel, rfl⟩ := Nat.exists_eq_succ_of_ne_zero (Nat.ne_of_gt hfuel)
    simp [Literal.stringBody, encodeChars]
  | cons c cs ih =>
    simp only [List.length_cons] at hfuel
    obtain ⟨fuel, rfl⟩ := Nat.exists_eq_succ_of_ne_zero (Nat.ne_of_gt (Nat.zero_lt_of_lt hfuel))
    rw [List.flatMap_cons, List.append_assoc, h, ih _ (by omega)]
    simp [encodeChars]

/-- No character is written as nothing: the reader would take nothing for it. -/
theorem Unescapes.length_pos (h : Unescapes written) (c : Char) : 0 < (written c).length := by
  refine List.length_pos_of_ne_nil (fun hnil => ?_)
  have htaken := h c 0 [] ['"']
  rw [hnil] at htaken
  simp [Literal.stringBody] at htaken

theorem Unescapes.length_le (h : Unescapes written) (cs : List Char) :
    cs.length ≤ (cs.flatMap written).length := by
  induction cs with
  | nil => simp
  | cons c cs ih =>
    have hc := h.length_pos c
    simp only [List.flatMap_cons, List.length_append, List.length_cons]
    omega

/-- What stands between the quotes is read as the text. -/
theorem Unescapes.string (h : Unescapes written) (s : String) {limit : Nat} (rest : List Char)
    (hlen : (s.toList.flatMap written).length < limit) :
    string limit '"' (s.toList.flatMap written ++ '"' :: rest) = some (s, rest) := by
  have hle := h.length_le s.toList
  unfold Literal.string
  rw [h.stringBody _ _ _ (by omega)]
  simp [ofBytes?_encodeChars]

end Unescapes

/-! ## The escapes of literals -/

/-- Three digits after a backslash are one byte, whatever follows them. -/
theorem escaped_digits {a b c : Char} (ha : isAsciiDigit a = true) (hb : isAsciiDigit b = true)
    (hc : isAsciiDigit c = true) (h : natOf [a, b, c] < 256) (rest : List Char) :
    escaped (a :: b :: c :: rest) = some ([UInt8.ofNat (natOf [a, b, c])], rest) := by
  have hn {x : Char} (hx : isAsciiDigit x = false) : (a == x) = false := isAsciiDigit_ne ha hx
  have hmore : [b, c].takeWhile isAsciiDigit = [b, c] := by simp [hb, hc]
  simp [escaped, hn (x := 'n') rfl, hn (x := 't') rfl, hn (x := 'r') rfl, hn (x := 'a') rfl,
    hn (x := 'b') rfl, hn (x := 'f') rfl, hn (x := 'v') rfl, hn (x := '\\') rfl,
    hn (x := '"') rfl, hn (x := '\'') rfl, hn (x := '/') rfl, hn (x := '\n') rfl,
    hn (x := 'z') rfl, hn (x := 'x') rfl, ha, hmore, h]

theorem threeDigits_spec : ∀ n < 128, (threeDigits n).all isAsciiDigit = true ∧
    natOf (threeDigits n) = n := by decide +kernel

theorem escaped_threeDigits {n : Nat} (h : n < 128) (rest : List Char) :
    escaped (threeDigits n ++ rest) = some ([UInt8.ofNat n], rest) := by
  obtain ⟨hd, hv⟩ := threeDigits_spec n h
  unfold threeDigits at hd hv ⊢
  simp only [List.all_cons, List.all_nil, Bool.and_true, Bool.and_eq_true] at hd
  obtain ⟨ha, hb, hc⟩ := hd
  have he := escaped_digits ha hb hc (by omega) rest
  rw [hv] at he
  exact he

theorem encodeChar_ascii {c : Char} (h : c.toNat < 0x80) :
    encodeChar c = [UInt8.ofNat c.toNat] := by
  simp [encodeChar, h]

theorem unescapes_escape : Unescapes escape := by
  intro c fuel acc rest
  by_cases hb : c = '\\'
  · subst hb; rfl
  by_cases hq : c = '"'
  · subst hq; rfl
  by_cases hn : c = '\n'
  · subst hn; rfl
  by_cases hr : c = '\r'
  · subst hr; rfl
  by_cases ht : c = '\t'
  · subst ht; rfl
  by_cases hctl : c.toNat < 0x20 ∨ c.toNat = 0x7F
  · have hescape : escape c = '\\' :: threeDigits c.toNat := by
      simp [escape, hb, hq, hn, hr, ht, hctl]
    have hread := escaped_threeDigits (n := c.toNat) (by omega) rest
    rw [hescape, encodeChar_ascii (by omega), List.cons_append]
    simp [stringBody, hread]
  · have hescape : escape c = [c] := by simp [escape, hb, hq, hn, hr, ht, hctl]
    rw [hescape]
    simp [stringBody, hb, hq, hn]

/-- The reader of strings inverts `quote`, once the opening quote is taken. -/
theorem string_quote (s : String) {limit : Nat} (rest : List Char)
    (h : (quote s ++ rest).length ≤ limit) :
    string limit '"' (s.toList.flatMap escape ++ '"' :: rest) = some (s, rest) := by
  simp only [quote, List.cons_append, List.append_assoc, List.length_cons, List.length_append] at h
  exact unescapes_escape.string s rest (by omega)

theorem quote_append (s : String) (rest : List Char) :
    quote s ++ rest = '"' :: (s.toList.flatMap escape ++ '"' :: rest) := by
  simp [quote]

/-! ## The escapes of JSON -/

theorem hexRun_digits : ∀ n < 32,
    hexRun ['0', '0', Json.hexDigit (n / 16), Json.hexDigit (n % 16)] = some n := by decide +kernel

/-- Four digits of a control character after `\u` are that character. -/
theorem escaped_control {c : Char} (h : c.toNat < 0x20) (rest : List Char) :
    escaped ('u' :: '0' :: '0' :: Json.hexDigit (c.toNat / 16) :: Json.hexDigit (c.toNat % 16) ::
      rest) = some (encodeChar c, rest) := by
  have hrun := hexRun_digits c.toNat h
  have hfixed : hexFixed 4 ('0' :: '0' :: Json.hexDigit (c.toNat / 16) ::
      Json.hexDigit (c.toNat % 16) :: rest) = some (c.toNat, rest) := by
    simp [hexFixed, hrun]
  have hscalar : scalar? c.toNat = some c := by
    simp only [scalar?, Char.ofNat_toNat]
    rw [if_pos (by simp; omega)]
  have hhigh : (0xD800 ≤ c.toNat && c.toNat < 0xDC00) = false := by simp; omega
  have hunicode : unicodeEscape ('0' :: '0' :: Json.hexDigit (c.toNat / 16) ::
      Json.hexDigit (c.toNat % 16) :: rest) = some (c, rest) := by
    unfold unicodeEscape
    split
    · next heq => cases heq
    · rw [hfixed]
      dsimp only
      rw [hhigh, hscalar]
      rfl
  simp [escaped, hunicode, isAsciiDigit]

theorem escaped_letter (rest : List Char) :
    ∀ pair ∈ Json.escapeLetters, escaped (pair.2 :: rest) = some (encodeChar pair.1, rest) := by
  simp [Json.escapeLetters, escaped, encodeChar]

theorem unescapes_jsonEscape : Unescapes Json.escape := by
  intro c fuel acc rest
  obtain ⟨letter, hletter, hescape⟩ | ⟨hcontrol, hescape⟩ | ⟨hq, hb, hplain, hescape⟩ :=
    Json.escape_cases c
  · have hread := escaped_letter rest _ hletter
    rw [hescape]
    simp [stringBody, hread]
  · have hread := escaped_control hcontrol rest
    rw [hescape]
    simp [stringBody, hread]
  · have hbreak : c ≠ '\n' := by
      rintro rfl
      exact hplain (by decide)
    rw [hescape]
    simp [stringBody, hq, hb, hbreak]

end DiceHost.Literal
