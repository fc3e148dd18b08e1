import DiceHost.Text.Utf8

/-! # Encoded characters read back

One lemma for each length of an encoded character says when `next` reads it, and one that it was
encoded like that. Together they make the strict decoder the inverse of the encoder.
-/
namespace DiceHost.Text

/-- The bytes after the first one of a character. -/
def Continues (b : UInt8) : Prop := 0x80 ≤ b.toNat ∧ b.toNat ≤ 0xBF

theorem isContinuation_iff {b : UInt8} : isContinuation b = true ↔ Continues b := by
  simp [isContinuation, Continues, UInt8.le_iff_toNat_le]

theorem next_one {b : UInt8} (h : b.toNat < 0x80) (rest : List UInt8) :
    next (b :: rest) = some (.char (Char.ofNat b.toNat), rest) := by
  have hb : b < 0x80 := UInt8.lt_iff_toNat_lt.mpr h
  simp [next, hb]

theorem lead_two {a : UInt8} (ha : 0xC2 ≤ a.toNat ∧ a.toNat ≤ 0xDF) :
    ¬a < 0x80 ∧ 0xC2 ≤ a ∧ a ≤ 0xDF := by
  simp [UInt8.lt_iff_toNat_lt, UInt8.le_iff_toNat_le]
  omega

theorem lead_three {a : UInt8} (ha : 0xE0 ≤ a.toNat ∧ a.toNat ≤ 0xEF) :
    ¬a < 0x80 ∧ ¬(0xC2 ≤ a ∧ a ≤ 0xDF) ∧ 0xE0 ≤ a ∧ a ≤ 0xEF := by
  simp [UInt8.lt_iff_toNat_lt, UInt8.le_iff_toNat_le]
  omega

theorem lead_four {a : UInt8} (ha : 0xF0 ≤ a.toNat ∧ a.toNat ≤ 0xF4) :
    ¬a < 0x80 ∧ ¬(0xC2 ≤ a ∧ a ≤ 0xDF) ∧ ¬(0xE0 ≤ a ∧ a ≤ 0xEF) ∧ 0xF0 ≤ a ∧ a ≤ 0xF4 := by
  simp [UInt8.lt_iff_toNat_lt, UInt8.le_iff_toNat_le]
  omega

theorem next_two {a b : UInt8} (ha : 0xC2 ≤ a.toNat ∧ a.toNat ≤ 0xDF) (hb : Continues b)
    (rest : List UInt8) :
    next (a :: b :: rest) = some (.char (Char.ofNat ((a.toNat - 0xC0) * 64 + low b)), rest) := by
  simp [next, lead_two ha, isContinuation_iff.mpr hb]

theorem byte_beq_iff {a b : UInt8} : (a == b) = true ↔ a.toNat = b.toNat := by
  rw [beq_iff_eq, UInt8.toNat_inj]

theorem secondOfThree_iff {a b : UInt8} : secondOfThree a b = true ↔
    Continues b ∧ (a.toNat = 0xE0 → 0xA0 ≤ b.toNat) ∧ (a.toNat = 0xED → b.toNat ≤ 0x9F) := by
  unfold secondOfThree
  split
  · next ha =>
    have ha : a.toNat = 0xE0 := byte_beq_iff.mp ha
    simp [UInt8.le_iff_toNat_le, Continues]
    omega
  · next hne =>
    have hne : ¬ a.toNat = 0xE0 := fun h => hne (byte_beq_iff.mpr h)
    split
    · next ha =>
      have ha : a.toNat = 0xED := byte_beq_iff.mp ha
      simp [UInt8.le_iff_toNat_le, Continues]
      omega
    · next hne' =>
      have hne' : ¬ a.toNat = 0xED := fun h => hne' (byte_beq_iff.mpr h)
      simp [isContinuation_iff, hne, hne']

theorem secondOfFour_iff {a b : UInt8} : secondOfFour a b = true ↔
    Continues b ∧ (a.toNat = 0xF0 → 0x90 ≤ b.toNat) ∧ (a.toNat = 0xF4 → b.toNat ≤ 0x8F) := by
  unfold secondOfFour
  split
  · next ha =>
    have ha : a.toNat = 0xF0 := byte_beq_iff.mp ha
    simp [UInt8.le_iff_toNat_le, Continues]
    omega
  · next hne =>
    have hne : ¬ a.toNat = 0xF0 := fun h => hne (byte_beq_iff.mpr h)
    split
    · next ha =>
      have ha : a.toNat = 0xF4 := byte_beq_iff.mp ha
      simp [UInt8.le_iff_toNat_le, Continues]
      omega
    · next hne' =>
      have hne' : ¬ a.toNat = 0xF4 := fun h => hne' (byte_beq_iff.mpr h)
      simp [isContinuation_iff, hne, hne']

theorem next_three {a b c : UInt8} (ha : 0xE0 ≤ a.toNat ∧ a.toNat ≤ 0xEF) (hb : Continues b)
    (hlow : a.toNat = 0xE0 → 0xA0 ≤ b.toNat) (hhigh : a.toNat = 0xED → b.toNat ≤ 0x9F)
    (hc : Continues c) (rest : List UInt8) :
    next (a :: b :: c :: rest) =
      some (.char (Char.ofNat ((a.toNat - 0xE0) * 4096 + low b * 64 + low c)), rest) := by
  have hsecond : secondOfThree a b = true := secondOfThree_iff.mpr ⟨hb, hlow, hhigh⟩
  simp [next, lead_three ha, hsecond, isContinuation_iff.mpr hc]

theorem next_four {a b c d : UInt8} (ha : 0xF0 ≤ a.toNat ∧ a.toNat ≤ 0xF4) (hb : Continues b)
    (hlow : a.toNat = 0xF0 → 0x90 ≤ b.toNat) (hhigh : a.toNat = 0xF4 → b.toNat ≤ 0x8F)
    (hc : Continues c) (hd : Continues d) (rest : List UInt8) :
    next (a :: b :: c :: d :: rest) =
      some (.char (Char.ofNat ((a.toNat - 0xF0) * 262144 + low b * 4096 + low c * 64 + low d)),
        rest) := by
  have hsecond : secondOfFour a b = true := secondOfFour_iff.mpr ⟨hb, hlow, hhigh⟩
  simp [next, lead_four ha, hsecond, isContinuation_iff.mpr hc, isContinuation_iff.mpr hd]

theorem toNat_byte {n : Nat} (h : n < 256) : (UInt8.ofNat n).toNat = n :=
  UInt8.toNat_ofNat_of_lt' h

/-- A continuation byte carries six bits. -/
theorem continues_byte {n : Nat} (h : n < 64) : Continues (UInt8.ofNat (0x80 + n)) := by
  rw [Continues, toNat_byte (by omega)]
  omega

theorem low_byte {n : Nat} (h : n < 64) : low (UInt8.ofNat (0x80 + n)) = n := by
  have hn := toNat_byte (n := 0x80 + n) (by omega)
  unfold low
  omega

theorem toNat_scalar (c : Char) :
    c.toNat < 0xD800 ∨ 0xDFFF < c.toNat ∧ c.toNat < 0x110000 := by
  have h : c.toNat.isValidChar := c.valid
  unfold Nat.isValidChar at h
  exact h

/-- An encoded character is read back, whatever follows it. -/
theorem next_encodeChar (c : Char) (rest : List UInt8) :
    next (encodeChar c ++ rest) = some (.char c, rest) := by
  have hscalar := toNat_scalar c
  have hc := Char.ofNat_toNat c
  unfold encodeChar
  generalize c.toNat = n at hscalar hc
  dsimp only
  split
  · have hn := toNat_byte (n := n) (by omega)
    rw [List.singleton_append, next_one (by omega), hn, hc]
  · split
    · have ha := toNat_byte (n := 0xC0 + n / 64) (by omega)
      have hv : (0xC0 + n / 64 - 0xC0) * 64 + n % 64 = n := by omega
      rw [List.cons_append, List.singleton_append,
        next_two (by omega) (continues_byte (by omega)), ha, low_byte (by omega), hv, hc]
    · split
      · have ha := toNat_byte (n := 0xE0 + n / 4096) (by omega)
        have hb := toNat_byte (n := 0x80 + n / 64 % 64) (by omega)
        have hv : (0xE0 + n / 4096 - 0xE0) * 4096 + n / 64 % 64 * 64 + n % 64 = n := by omega
        rw [List.cons_append, List.cons_append, List.singleton_append,
          next_three (by omega) (continues_byte (by omega)) (by omega) (by omega)
            (continues_byte (by omega)), ha, low_byte (by omega), low_byte (by omega), hv, hc]
      · have ha := toNat_byte (n := 0xF0 + n / 262144) (by omega)
        have hb := toNat_byte (n := 0x80 + n / 4096 % 64) (by omega)
        have hv : (0xF0 + n / 262144 - 0xF0) * 262144 + n / 4096 % 64 * 4096 +
            n / 64 % 64 * 64 + n % 64 = n := by omega
        rw [List.cons_append, List.cons_append, List.cons_append, List.singleton_append,
          next_four (by omega) (continues_byte (by omega)) (by omega) (by omega)
            (continues_byte (by omega)) (continues_byte (by omega)), ha, low_byte (by omega),
          low_byte (by omega), low_byte (by omega), hv, hc]

theorem encodeChar_ne_nil (c : Char) : encodeChar c ≠ [] := by
  intro h
  have hn := next_encodeChar c []
  rw [h] at hn
  simp [next] at hn

theorem length_le_length_encodeChars (cs : List Char) : cs.length ≤ (encodeChars cs).length := by
  induction cs with
  | nil => simp
  | cons c cs ih =>
    have hc := List.length_pos_iff.mpr (encodeChar_ne_nil c)
    simp only [encodeChars, List.flatMap_cons, List.length_append, List.length_cons] at ih ⊢
    omega

theorem decodeOnto_encodeChars (cs acc : List Char) {steps : Nat} (h : cs.length ≤ steps) :
    decodeOnto steps acc (encodeChars cs) = some (acc.reverse ++ cs) := by
  induction cs generalizing steps acc with
  | nil => cases steps <;> simp [decodeOnto, encodeChars, next]
  | cons c cs ih =>
    cases steps with
    | zero => simp at h
    | succ steps =>
      have hstep : encodeChars (c :: cs) = encodeChar c ++ encodeChars cs := List.flatMap_cons
      rw [decodeOnto, hstep, next_encodeChar]
      dsimp only
      rw [ih (c :: acc) (by simpa using h)]
      simp

/-- The strict decoder inverts the encoder. -/
theorem decode?_encodeChars (cs : List Char) : decode? (encodeChars cs) = some cs :=
  decodeOnto_encodeChars cs [] (length_le_length_encodeChars cs)

theorem ofBytes?_encodeChars (cs : List Char) :
    ofBytes? (encodeChars cs) = some (String.ofList cs) := by
  rw [ofBytes?, decode?_encodeChars, Option.map_some]

/-! ## Bytes that can be read -/

theorem toNat_ofNat {n : Nat} (h : n.isValidChar) : (Char.ofNat n).toNat = n := by
  rw [Char.ofNat, dif_pos h]
  rfl

theorem ofNat_eq {b : UInt8} {n : Nat} (h : n = b.toNat) : UInt8.ofNat n = b := by
  rw [h, UInt8.ofNat_toNat]

theorem encodeChar_one {a : UInt8} (ha : a.toNat < 0x80) :
    encodeChar (Char.ofNat a.toNat) = [a] := by
  unfold encodeChar
  rw [toNat_ofNat (Or.inl (by omega)), if_pos ha, UInt8.ofNat_toNat]

theorem encodeChar_two {a b : UInt8} (ha : 0xC2 ≤ a.toNat ∧ a.toNat ≤ 0xDF) (hb : Continues b) :
    encodeChar (Char.ofNat ((a.toNat - 0xC0) * 64 + low b)) = [a, b] := by
  have hlow : low b = b.toNat - 0x80 := rfl
  obtain ⟨hb, hb'⟩ := hb
  have hn : (Char.ofNat ((a.toNat - 0xC0) * 64 + low b)).toNat =
      (a.toNat - 0xC0) * 64 + low b := toNat_ofNat (Or.inl (by omega))
  unfold encodeChar
  rw [hn, if_neg (by omega), if_pos (by omega), ofNat_eq (b := a) (by omega),
    ofNat_eq (b := b) (by omega)]

theorem encodeChar_three {a b c : UInt8} (ha : 0xE0 ≤ a.toNat ∧ a.toNat ≤ 0xEF)
    (hb : Continues b) (hfirst : a.toNat = 0xE0 → 0xA0 ≤ b.toNat)
    (hlast : a.toNat = 0xED → b.toNat ≤ 0x9F) (hc : Continues c) :
    encodeChar (Char.ofNat ((a.toNat - 0xE0) * 4096 + low b * 64 + low c)) = [a, b, c] := by
  have hlowb : low b = b.toNat - 0x80 := rfl
  have hlowc : low c = c.toNat - 0x80 := rfl
  obtain ⟨hb, hb'⟩ := hb
  obtain ⟨hc, hc'⟩ := hc
  have hvalid : ((a.toNat - 0xE0) * 4096 + low b * 64 + low c).isValidChar := by
    unfold Nat.isValidChar
    omega
  unfold encodeChar
  rw [toNat_ofNat hvalid, if_neg (by omega), if_neg (by omega), if_pos (by omega),
    ofNat_eq (b := a) (by omega), ofNat_eq (b := b) (by omega), ofNat_eq (b := c) (by omega)]

theorem encodeChar_four {a b c d : UInt8} (ha : 0xF0 ≤ a.toNat ∧ a.toNat ≤ 0xF4)
    (hb : Continues b) (hfirst : a.toNat = 0xF0 → 0x90 ≤ b.toNat)
    (hlast : a.toNat = 0xF4 → b.toNat ≤ 0x8F) (hc : Continues c) (hd : Continues d) :
    encodeChar (Char.ofNat ((a.toNat - 0xF0) * 262144 + low b * 4096 + low c * 64 + low d)) =
      [a, b, c, d] := by
  have hlowb : low b = b.toNat - 0x80 := rfl
  have hlowc : low c = c.toNat - 0x80 := rfl
  have hlowd : low d = d.toNat - 0x80 := rfl
  obtain ⟨hb, hb'⟩ := hb
  obtain ⟨hc, hc'⟩ := hc
  obtain ⟨hd, hd'⟩ := hd
  have hvalid :
      ((a.toNat - 0xF0) * 262144 + low b * 4096 + low c * 64 + low d).isValidChar := by
    unfold Nat.isValidChar
    omega
  unfold encodeChar
  rw [toNat_ofNat hvalid, if_neg (by omega), if_neg (by omega), if_neg (by omega),
    ofNat_eq (b := a) (by omega), ofNat_eq (b := b) (by omega), ofNat_eq (b := c) (by omega),
    ofNat_eq (b := d) (by omega)]

theorem next_ne_none (b : UInt8) (bytes : List UInt8) : next (b :: bytes) ≠ none := by
  unfold next
  dsimp only
  repeat' split
  all_goals simp

section Inversion
variable {a : UInt8} {bytes rest : List UInt8} {char : Char}
  (h : next (a :: bytes) = some (.char char, rest))
include h

theorem exists_of_next_two (ha : 0xC2 ≤ a.toNat ∧ a.toNat ≤ 0xDF) :
    ∃ b, Continues b ∧ bytes = b :: rest ∧
      char = Char.ofNat ((a.toNat - 0xC0) * 64 + low b) := by
  cases bytes with
  | nil => simp [next, lead_two ha] at h
  | cons b bytes =>
    cases hb : isContinuation b with
    | false => simp [next, lead_two ha, hb] at h
    | true =>
      simp [next, lead_two ha, hb] at h
      exact ⟨b, isContinuation_iff.mp hb, by rw [h.2], h.1.symm⟩

theorem exists_of_next_three (ha : 0xE0 ≤ a.toNat ∧ a.toNat ≤ 0xEF) :
    ∃ b c, secondOfThree a b = true ∧ Continues c ∧ bytes = b :: c :: rest ∧
      char = Char.ofNat ((a.toNat - 0xE0) * 4096 + low b * 64 + low c) := by
  match bytes with
  | [] => simp [next, lead_three ha] at h
  | [b] => cases hb : secondOfThree a b <;> simp [next, lead_three ha, hb] at h
  | b :: c :: bytes =>
    cases hb : secondOfThree a b with
    | false => simp [next, lead_three ha, hb] at h
    | true =>
      cases hc : isContinuation c with
      | false => simp [next, lead_three ha, hb, hc] at h
      | true =>
        simp [next, lead_three ha, hb, hc] at h
        exact ⟨b, c, hb, isContinuation_iff.mp hc, by rw [h.2], h.1.symm⟩

theorem exists_of_next_four (ha : 0xF0 ≤ a.toNat ∧ a.toNat ≤ 0xF4) :
    ∃ b c d, secondOfFour a b = true ∧ Continues c ∧ Continues d ∧
      bytes = b :: c :: d :: rest ∧
      char = Char.ofNat ((a.toNat - 0xF0) * 262144 + low b * 4096 + low c * 64 + low d) := by
  match bytes with
  | [] => simp [next, lead_four ha] at h
  | [b] => cases hb : secondOfFour a b <;> simp [next, lead_four ha, hb] at h
  | [b, c] =>
    cases hb : secondOfFour a b <;> cases hc : isContinuation c <;>
      simp [next, lead_four ha, hb, hc] at h
  | b :: c :: d :: bytes =>
    cases hb : secondOfFour a b with
    | false => simp [next, lead_four ha, hb] at h
    | true =>
      cases hc : isContinuation c with
      | false => simp [next, lead_four ha, hb, hc] at h
      | true =>
        cases hd : isContinuation d with
        | false => simp [next, lead_four ha, hb, hc, hd] at h
        | true =>
          simp [next, lead_four ha, hb, hc, hd] at h
          exact ⟨b, c, d, hb, isContinuation_iff.mp hc, isContinuation_iff.mp hd, by rw [h.2],
            h.1.symm⟩

/-- Every other first byte is malformed. -/
theorem lead_of_next : a.toNat < 0x80 ∨ (0xC2 ≤ a.toNat ∧ a.toNat ≤ 0xDF) ∨
    (0xE0 ≤ a.toNat ∧ a.toNat ≤ 0xEF) ∨ (0xF0 ≤ a.toNat ∧ a.toNat ≤ 0xF4) := by
  refine Decidable.byContradiction fun hnone => ?_
  have h1 : ¬a < 0x80 := by simp [UInt8.lt_iff_toNat_lt]; omega
  have h2 : ¬(0xC2 ≤ a ∧ a ≤ 0xDF) := by simp [UInt8.le_iff_toNat_le]; omega
  have h3 : ¬(0xE0 ≤ a ∧ a ≤ 0xEF) := by simp [UInt8.le_iff_toNat_le]; omega
  have h4 : ¬(0xF0 ≤ a ∧ a ≤ 0xF4) := by simp [UInt8.le_iff_toNat_le]; omega
  simp [next, h1, h2, h3, h4] at h

end Inversion

/-- A character that is read was encoded in the bytes that are taken for it. -/
theorem encodeChar_of_next {bytes rest : List UInt8} {c : Char}
    (h : next bytes = some (.char c, rest)) : bytes = encodeChar c ++ rest := by
  cases bytes with
  | nil => cases h
  | cons a bytes =>
    rcases lead_of_next h with ha | ha | ha | ha
    · rw [next_one ha] at h
      cases h
      rw [encodeChar_one ha]
      rfl
    · obtain ⟨b, hb, rfl, hchar⟩ := exists_of_next_two h ha
      rw [hchar, encodeChar_two ha hb]
      rfl
    · obtain ⟨b, c, hb, hc, rfl, hchar⟩ := exists_of_next_three h ha
      obtain ⟨hb, hfirst, hlast⟩ := secondOfThree_iff.mp hb
      rw [hchar, encodeChar_three ha hb hfirst hlast hc]
      rfl
    · obtain ⟨b, c, d, hb, hc, hd, rfl, hchar⟩ := exists_of_next_four h ha
      obtain ⟨hb, hfirst, hlast⟩ := secondOfFour_iff.mp hb
      rw [hchar, encodeChar_four ha hb hfirst hlast hc hd]
      rfl

theorem encodeChars_of_decodeOnto {steps : Nat} {acc cs : List Char} {bytes : List UInt8}
    (hsteps : bytes.length ≤ steps) (h : decodeOnto steps acc bytes = some cs) :
    ∃ more, cs = acc.reverse ++ more ∧ bytes = encodeChars more := by
  induction steps generalizing acc bytes with
  | zero =>
    cases List.eq_nil_of_length_eq_zero (Nat.le_zero.mp hsteps)
    cases h
    exact ⟨[], by simp, rfl⟩
  | succ steps ih =>
    unfold decodeOnto at h
    split at h
    · next hnone =>
      cases h
      cases bytes with
      | nil => exact ⟨[], by simp, rfl⟩
      | cons b bytes => exact absurd hnone (next_ne_none b bytes)
    · cases h
    · next c rest hread =>
      have hlt := next_length hread
      obtain ⟨more, rfl, rfl⟩ := ih (by omega) h
      refine ⟨c :: more, by simp, ?_⟩
      rw [encodeChar_of_next hread]
      exact List.flatMap_cons.symm

/-- Bytes are read as a text exactly when they are the bytes of that text. -/
theorem ofBytes?_eq_some {bytes : List UInt8} {s : String} :
    ofBytes? bytes = some s ↔ bytes = encodeChars s.toList := by
  constructor
  · intro h
    obtain ⟨cs, hcs, rfl⟩ := Option.map_eq_some_iff.mp h
    obtain ⟨more, rfl, rfl⟩ := encodeChars_of_decodeOnto (Nat.le_refl _) hcs
    rw [String.toList_ofList]
  · rintro rfl
    rw [ofBytes?_encodeChars, String.ofList_toList]

/-! ## Texts as bytes -/

/-- The standard library encodes characters in the same way. -/
theorem utf8EncodeChar_eq (c : Char) : String.utf8EncodeChar c = encodeChar c := by
  have hscalar := toNat_scalar c
  unfold encodeChar String.utf8EncodeChar
  rw [show c.val.toNat = c.toNat from rfl]
  generalize c.toNat = n at hscalar
  dsimp only
  by_cases h1 : n < 0x80
  · rw [if_pos h1, if_pos (Nat.le_of_lt_succ h1)]
  · rw [if_neg h1, if_neg (fun h => h1 (Nat.lt_succ_of_le h))]
    by_cases h2 : n < 0x800
    · rw [if_pos h2, if_pos (Nat.le_of_lt_succ h2), Nat.mod_eq_of_lt (by omega : n / 64 < 32),
        Nat.add_comm, Nat.add_comm (n % 64)]
    · rw [if_neg h2, if_neg (fun h => h2 (Nat.lt_succ_of_le h))]
      by_cases h3 : n < 0x10000
      · rw [if_pos h3, if_pos (Nat.le_of_lt_succ h3),
          Nat.mod_eq_of_lt (by omega : n / 4096 < 16), Nat.add_comm, Nat.add_comm (n / 64 % 64),
          Nat.add_comm (n % 64)]
      · rw [if_neg h3, if_neg (fun h => h3 (Nat.lt_succ_of_le h)),
          Nat.mod_eq_of_lt (by omega : n / 262144 < 8), Nat.add_comm,
          Nat.add_comm (n / 4096 % 64), Nat.add_comm (n / 64 % 64), Nat.add_comm (n % 64)]

theorem toList_loop (b : ByteArray) (i : Nat) (acc : List UInt8) :
    ByteArray.toList.loop b i acc = acc.reverse ++ b.data.toList.drop i := by
  fun_induction ByteArray.toList.loop b i acc with
  | case1 i acc h ih =>
    have hsize : i < b.data.toList.length := h
    rw [ih, List.drop_eq_getElem_cons hsize, List.reverse_cons, List.append_assoc]
    have hget : b.get! i = b.data.toList[i] := by
      show b.data[i]! = _
      rw [getElem!_pos b.data i h]
      rfl
    rw [hget]
    rfl
  | case2 i acc h =>
    have hsize : b.data.toList.length ≤ i := Nat.not_lt.mp h
    rw [List.drop_eq_nil_of_le hsize, List.append_nil]

theorem toList_bytes (b : ByteArray) : b.toList = b.data.toList := by
  rw [ByteArray.toList, toList_loop, List.reverse_nil, List.nil_append, List.drop_zero]

theorem data_toUTF8 (s : String) : s.toUTF8.data.toList = encodeChars s.toList := by
  have hbytes : s.toUTF8 = s.toList.utf8Encode := (String.utf8Encode_toList).symm
  rw [hbytes, List.utf8Encode.eq_1, List.toList_data_toByteArray]
  exact congrArg (fun f => s.toList.flatMap f) (funext utf8EncodeChar_eq)

theorem ofBytes?_toUTF8 (s : String) : ofBytes? s.toUTF8.toList = some s := by
  rw [toList_bytes, data_toUTF8, ofBytes?_encodeChars, String.ofList_toList]

theorem eq_toUTF8 {b : ByteArray} {cs : List Char} (h : b.data.toList = encodeChars cs) :
    b = (String.ofList cs).toUTF8 := by
  apply ByteArray.ext
  apply Array.toList_inj.mp
  rw [h, data_toUTF8, String.toList_ofList]

/-- Where the strict decoder reads a text, the replacing one has nothing to replace. -/
theorem decodeReplacingOnto_of_decodeOnto {steps : Nat} {acc cs : List Char} {bytes : List UInt8}
    (h : decodeOnto steps acc bytes = some cs) : decodeReplacingOnto steps acc bytes = cs := by
  induction steps generalizing acc bytes with
  | zero => grind [decodeOnto, decodeReplacingOnto]
  | succ steps ih =>
    rw [decodeOnto] at h
    rw [decodeReplacingOnto]
    split at h
    · exact Option.some.inj h
    · cases h
    · exact ih h

theorem ofBytesReplacing_toUTF8 (s : String) : ofBytesReplacing s.toUTF8.toList = s := by
  have hread := decode?_encodeChars s.toList
  rw [toList_bytes, data_toUTF8, ofBytesReplacing, decodeReplacing,
    decodeReplacingOnto_of_decodeOnto hread, String.ofList_toList]

/-! ## Beginnings -/

theorem encodeChars_cons (c : Char) (cs : List Char) :
    encodeChars (c :: cs) = encodeChar c ++ encodeChars cs := List.flatMap_cons

theorem encodeChars_append (cs more : List Char) :
    encodeChars (cs ++ more) = encodeChars cs ++ encodeChars more := List.flatMap_append

theorem encodeChar_append_inj {c d : Char} {rest more : List UInt8}
    (h : encodeChar c ++ rest = encodeChar d ++ more) : c = d ∧ rest = more := by
  have hread := congrArg next h
  rw [next_encodeChar, next_encodeChar] at hread
  cases hread
  exact ⟨rfl, rfl⟩

/-- A text starts with another one where its bytes do. -/
theorem encodeChars_prefix {lead cs : List Char} :
    encodeChars lead <+: encodeChars cs ↔ lead <+: cs := by
  refine ⟨fun h => ?_, fun ⟨rest, hrest⟩ => ⟨encodeChars rest, ?_⟩⟩
  · induction lead generalizing cs with
    | nil => exact List.nil_prefix
    | cons a lead ih =>
      obtain ⟨rest, hrest⟩ := h
      rw [encodeChars_cons, List.append_assoc] at hrest
      cases cs with
      | nil => exact absurd (List.append_eq_nil_iff.mp hrest).1 (encodeChar_ne_nil a)
      | cons c cs =>
        rw [encodeChars_cons] at hrest
        obtain ⟨rfl, hmore⟩ := encodeChar_append_inj hrest
        exact List.cons_prefix_cons.mpr ⟨rfl, ih ⟨rest, hmore⟩⟩
  · rw [← hrest, encodeChars_append]

/-- The byte of a character of one byte stands for nothing else. -/
theorem eq_of_mem_encodeChar {c a : Char} (ha : a.toNat < 0x80)
    (h : UInt8.ofNat a.toNat ∈ encodeChar c) : c = a := by
  have hscalar := toNat_scalar c
  have hbyte := toNat_byte (n := a.toNat) (by omega)
  have hlow {n : Nat} (hn : n < 256) (heq : UInt8.ofNat a.toNat = UInt8.ofNat n) : a.toNat = n := by
    have hnat := congrArg UInt8.toNat heq
    rwa [hbyte, toNat_byte hn] at hnat
  unfold encodeChar at h
  dsimp only at h
  split at h
  · have hn := hlow (by omega) (List.mem_singleton.mp h)
    rw [← Char.ofNat_toNat c, ← hn, Char.ofNat_toNat]
  · exfalso
    split at h
    · simp only [List.mem_cons, List.not_mem_nil, or_false] at h
      rcases h with h | h <;> have hn := hlow (by omega) h <;> omega
    · split at h
      · simp only [List.mem_cons, List.not_mem_nil, or_false] at h
        rcases h with h | h | h <;> have hn := hlow (by omega) h <;> omega
      · simp only [List.mem_cons, List.not_mem_nil, or_false] at h
        rcases h with h | h | h | h <;> have hn := hlow (by omega) h <;> omega

end DiceHost.Text
