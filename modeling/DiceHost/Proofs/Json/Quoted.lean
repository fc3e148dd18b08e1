import DiceHost.Json.Read
import DiceHost.Json.Write
import Mathlib.Data.List.Basic

/-! # Quoted texts in JSON

The writer puts every character of a text between the quotes as one escape or as itself; the
reader takes these apart one at a time. So a text is read back from its compact form, whatever
characters it is made of.
-/
namespace DiceHost.Json
open DiceHost.Text

theorem hexValue?_hexDigit : ∀ n < 16, hexValue? (hexDigit n) = some n := by decide

/-- The two digits that are written of a control character are read as its number. -/
theorem hexQuad_digits {n : Nat} (h : n < 256) (rest : List Char) :
    hexQuad ('0' :: '0' :: hexDigit (n / 16) :: hexDigit (n % 16) :: rest) = some (n, rest) := by
  have hzero : hexValue? '0' = some 0 := by decide
  have hhigh : hexValue? (hexDigit (n / 16)) = some (n / 16) :=
    hexValue?_hexDigit _ (Nat.div_lt_of_lt_mul h)
  have hlow : hexValue? (hexDigit (n % 16)) = some (n % 16) :=
    hexValue?_hexDigit _ (Nat.mod_lt n (by decide))
  have hvalue : 0 * 4096 + 0 * 256 + n / 16 * 16 + n % 16 = n := by omega
  rw [hexQuad]
  simp only [hzero, hhigh, hlow, hvalue]

theorem escaped_control {c : Char} (h : c.toNat < 0x20) (rest : List Char) :
    escaped ('u' :: '0' :: '0' :: hexDigit (c.toNat / 16) :: hexDigit (c.toNat % 16) :: rest) =
      some (c, rest) := by
  have hquad := hexQuad_digits (n := c.toNat) (by omega) rest
  have hhigh : isHighSurrogate c.toNat = false := by
    simp only [isHighSurrogate, Bool.and_eq_false_iff, decide_eq_false_iff_not]
    omega
  have hlow : isLowSurrogate c.toNat = false := by
    simp only [isLowSurrogate, Bool.and_eq_false_iff, decide_eq_false_iff_not]
    omega
  simp [escaped, unicodeEscape, hquad, hhigh, hlow]

/-- The characters that are written as a backslash and a letter. -/
def escapeLetters : List (Char × Char) :=
  [('"', '"'), ('\\', '\\'), ('\n', 'n'), ('\r', 'r'), ('\t', 't'), (Char.ofNat 8, 'b'),
    (Char.ofNat 12, 'f')]

theorem escape_letter : ∀ pair ∈ escapeLetters, escape pair.1 = ['\\', pair.2] := by decide

/-- What is written of one character: a letter or four digits after a backslash, or itself. -/
theorem escape_cases (c : Char) :
    (∃ letter, (c, letter) ∈ escapeLetters ∧ escape c = ['\\', letter]) ∨
    (c.toNat < 0x20 ∧ escape c =
      ['\\', 'u', '0', '0', hexDigit (c.toNat / 16), hexDigit (c.toNat % 16)]) ∨
    (c ≠ '"' ∧ c ≠ '\\' ∧ ¬c.toNat < 0x20 ∧ escape c = [c]) := by
  by_cases hletter : ∃ letter, (c, letter) ∈ escapeLetters
  · obtain ⟨letter, hletter⟩ := hletter
    exact Or.inl ⟨letter, hletter, escape_letter _ hletter⟩
  · have hne {x letter : Char} (hx : (x, letter) ∈ escapeLetters) : c ≠ x := by
      rintro rfl
      exact hletter ⟨letter, hx⟩
    have h8 : c.toNat ≠ 8 := fun h => @hne (Char.ofNat 8) 'b' (by decide)
      (by rw [← h, Char.ofNat_toNat])
    have h12 : c.toNat ≠ 12 := fun h => @hne (Char.ofNat 12) 'f' (by decide)
      (by rw [← h, Char.ofNat_toNat])
    have hq : c ≠ '"' := @hne '"' '"' (by decide)
    have hb : c ≠ '\\' := @hne '\\' '\\' (by decide)
    have hn : c ≠ '\n' := @hne '\n' 'n' (by decide)
    have hr : c ≠ '\r' := @hne '\r' 'r' (by decide)
    have ht : c ≠ '\t' := @hne '\t' 't' (by decide)
    by_cases hctl : c.toNat < 0x20
    · exact Or.inr (Or.inl ⟨hctl, by simp [escape, hq, hb, hn, hr, ht, h8, h12, hctl]⟩)
    · exact Or.inr (Or.inr ⟨hq, hb, hctl, by simp [escape, hq, hb, hn, hr, ht, h8, h12, hctl]⟩)

theorem escaped_letter (rest : List Char) :
    ∀ pair ∈ escapeLetters, escaped (pair.2 :: rest) = some (pair.1, rest) := by
  simp [escapeLetters, escaped]

/-- The reader takes one written character at a time. -/
theorem stringBody_escape (c : Char) (fuel : Nat) (acc rest : List Char) :
    stringBody (fuel + 1) acc (escape c ++ rest) = stringBody fuel (c :: acc) rest := by
  obtain ⟨letter, hletter, hescape⟩ | ⟨hcontrol, hescape⟩ | ⟨hq, hb, hplain, hescape⟩ :=
    escape_cases c
  · have hread := escaped_letter rest _ hletter
    rw [hescape]
    simp [stringBody, hread]
  · have hread := escaped_control hcontrol rest
    rw [hescape]
    simp [stringBody, hread]
  · rw [hescape]
    simp [stringBody, hq, hb, hplain]

theorem stringBody_escapes (cs : List Char) {fuel : Nat} (acc rest : List Char)
    (h : cs.length < fuel) :
    stringBody fuel acc (cs.flatMap escape ++ '"' :: rest) =
      some (String.ofList (acc.reverse ++ cs), rest) := by
  induction cs generalizing fuel acc with
  | nil =>
    obtain ⟨fuel, rfl⟩ := Nat.exists_eq_succ_of_ne_zero (Nat.ne_of_gt h)
    simp [stringBody]
  | cons c cs ih =>
    simp only [List.length_cons] at h
    obtain ⟨fuel, rfl⟩ := Nat.exists_eq_succ_of_ne_zero (Nat.ne_of_gt (Nat.zero_lt_of_lt h))
    rw [List.flatMap_cons, List.append_assoc, stringBody_escape, ih _ (by omega)]
    simp

theorem length_le_length_escapes (cs : List Char) : cs.length ≤ (cs.flatMap escape).length := by
  induction cs with
  | nil => simp
  | cons c cs ih =>
    have hc : 0 < (escape c).length := by
      unfold escape
      repeat' split
      all_goals simp
    simp only [List.flatMap_cons, List.length_append, List.length_cons]
    omega

theorem valueAt_quote (limit depth : Nat) (cs : List Char) :
    valueAt limit depth ('"' :: cs) =
      (stringBody limit [] cs).map (fun (s, rest) => (str s, rest)) := by
  cases depth <;> simp [valueAt, valueWith, skipSpace, isSpace]

/-- A text is read back from its compact form. -/
theorem read_compact_str (s : String) : read (compact (.str s)) = some (.str s) := by
  have hcompact : compact (.str s) = quote s := by simp [compact, pushValue, String.join]
  have hbody (limit : Nat) (hlimit : s.toList.length < limit) :
      stringBody limit [] (s.toList.flatMap escape ++ ['"']) = some (s, []) := by
    rw [stringBody_escapes _ _ _ hlimit, List.reverse_nil, List.nil_append, String.ofList_toList]
  have hlimit : s.toList.length <
      ('"' :: (s.toList.flatMap escape ++ ['"'])).length + 1 := by
    have hlen := length_le_length_escapes s.toList
    simp only [List.length_cons, List.length_append]
    omega
  have hraw : readRaw (quote s) = some (.str s) := by
    rw [readRaw, quote, String.toList_ofList, valueAt_quote, hbody _ hlimit]
    rfl
  rw [read, hcompact, hraw]
  rfl

end DiceHost.Json
