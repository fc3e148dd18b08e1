import DiceHost.Proofs.Literal.Item
import Mathlib.Data.List.TakeWhile

/-! # Escapes

What may stand after a backslash in a quoted text of Lua or JSON, and the bytes it denotes. The
reader of literals takes all of these escapes, and four forms besides: where it takes hexadecimal
digits it takes a plus sign in place of the first one, and it knows one blank character and one
line break less than Lua.
-/
namespace DiceHost.Literal
open DiceHost.Text DiceHost.Decimal

/-! ## The escapes of Lua and JSON -/

/-- The letters that stand for a control character. -/
def letterBytes : List (Char × UInt8) :=
  [('n', 10), ('t', 9), ('r', 13), ('a', 7), ('b', 8), ('f', 12), ('v', 11)]

/-- The blank characters of Lua: those of the reader, and the vertical tab. -/
def isLuaBlank (c : Char) : Bool := isAsciiBlank c || c == '\x0b'

/-- So many hexadecimal digits. -/
structure HexDigits (count : Nat) (ds : List Char) : Prop where
  length : ds.length = count
  digits : ∀ d ∈ ds, isHexDigit d = true

/-- What stands after a backslash, the bytes it denotes, and the text behind it. A character is a
Unicode scalar value, so `c.toNat` is never a surrogate. -/
inductive Escape : List Char → List UInt8 → List Char → Prop where
  | letter {c : Char} {b : UInt8} (h : (c, b) ∈ letterBytes) (rest : List Char) :
    Escape (c :: rest) [b] rest
  | itself {c : Char} (h : c ∈ ['\\', '"', '\'', '/']) (rest : List Char) :
    Escape (c :: rest) (encodeChar c) rest
  | newline {rest : List Char} (h : rest.head? ≠ some '\r') : Escape ('\n' :: rest) [10] rest
  | lineBreak (rest : List Char) : Escape ('\n' :: '\r' :: rest) [10] rest
  | blanks {blanks rest : List Char} (h : ∀ b ∈ blanks, isLuaBlank b = true)
    (hends : rest.head?.any isLuaBlank = false) : Escape ('z' :: (blanks ++ rest)) [] rest
  | byte {ds : List Char} (h : HexDigits 2 ds) (rest : List Char) :
    Escape ('x' :: (ds ++ rest)) [UInt8.ofNat (natOfBase 16 ds)] rest
  | decimal {ds rest : List Char} (hne : ds ≠ []) (h : ∀ d ∈ ds, isAsciiDigit d = true)
    (hends : ds.length = 3 ∨ ds.length < 3 ∧ rest.head?.any isAsciiDigit = false)
    (hbyte : natOf ds < 256) : Escape (ds ++ rest) [UInt8.ofNat (natOf ds)] rest
  | braces {ds : List Char} {c : Char} (hne : ds ≠ []) (h : ∀ d ∈ ds, isHexDigit d = true)
    (hc : c.toNat = natOfBase 16 ds) (rest : List Char) :
    Escape ('u' :: '{' :: (ds ++ '}' :: rest)) (encodeChar c) rest
  | unit {ds : List Char} {c : Char} (h : HexDigits 4 ds) (hc : c.toNat = natOfBase 16 ds)
    (rest : List Char) : Escape ('u' :: (ds ++ rest)) (encodeChar c) rest
  | pair {high low : List Char} {c : Char} (hhigh : HexDigits 4 high) (hlow : HexDigits 4 low)
    (hfirst : 0xD800 ≤ natOfBase 16 high ∧ natOfBase 16 high < 0xDC00)
    (hsecond : 0xDC00 ≤ natOfBase 16 low ∧ natOfBase 16 low < 0xE000)
    (hc : c.toNat =
      0x10000 + (natOfBase 16 high - 0xD800) * 0x400 + (natOfBase 16 low - 0xDC00))
    (rest : List Char) :
    Escape ('u' :: (high ++ '\\' :: 'u' :: (low ++ rest))) (encodeChar c) rest

/-- What the reader takes in its own way, and the bytes it takes it for. -/
inductive Slip : List Char → List UInt8 → List Char → Prop where
  /-- a sign and one digit in place of two digits -/
  | byte {ds : List Char} (h : HexDigits 1 ds) (rest : List Char) :
    Slip ('x' :: '+' :: (ds ++ rest)) [UInt8.ofNat (natOfBase 16 ds)] rest
  /-- a sign and three digits in place of four digits -/
  | unit {ds : List Char} {c : Char} (h : HexDigits 3 ds) (hc : c.toNat = natOfBase 16 ds)
    (rest : List Char) : Slip ('u' :: '+' :: (ds ++ rest)) (encodeChar c) rest
  /-- blank characters that are skipped up to a vertical tab only -/
  | blanks {blanks : List Char} (h : ∀ b ∈ blanks, isAsciiBlank b = true) (rest : List Char) :
    Slip ('z' :: (blanks ++ '\x0b' :: rest)) [] ('\x0b' :: rest)
  /-- a line break of two characters, of which the second one is left -/
  | newline (rest : List Char) : Slip ('\n' :: '\r' :: rest) [10] ('\r' :: rest)

/-- What the reader takes for an escape: a slip, or where there is none, an escape. -/
def Taken (cs : List Char) (bytes : List UInt8) (rest : List Char) : Prop :=
  Slip cs bytes rest ∨
    Escape cs bytes rest ∧ ∀ bytes' rest', ¬ Slip cs bytes' rest'

/-! ## Hexadecimal digits -/

section Hex
variable {ds cs rest : List Char} {n width : Nat}

theorem isHexDigit_plus : isHexDigit '+' = false := by decide

theorem all_isHexDigit : ds.all isHexDigit = true ↔ ∀ d ∈ ds, isHexDigit d = true :=
  List.all_eq_true

theorem hexRun_of_digits (hne : ds ≠ []) (h : ∀ d ∈ ds, isHexDigit d = true) :
    hexRun ds = some (natOfBase 16 ds) := by
  have hrun {body : List Char} (heq : body = ds) :
      (if body.isEmpty || !body.all isHexDigit then none else some (natOfBase 16 body)) =
        some (natOfBase 16 ds) := by
    rw [heq, all_isHexDigit.mpr h]
    simp [hne]
  unfold hexRun
  split
  · next rest =>
    have hplus := h '+' List.mem_cons_self
    rw [isHexDigit_plus] at hplus
    cases hplus
  · exact hrun rfl

theorem hexRun_of_signed (hne : ds ≠ []) (h : ∀ d ∈ ds, isHexDigit d = true) :
    hexRun ('+' :: ds) = some (natOfBase 16 ds) := by
  simp [hexRun, hne, all_isHexDigit.mpr h]

theorem digits_of_hexRun (h : hexRun cs = some n) :
    ∃ ds, (cs = ds ∨ cs = '+' :: ds) ∧ ds ≠ [] ∧ (∀ d ∈ ds, isHexDigit d = true) ∧
      n = natOfBase 16 ds := by
  have hrun {body : List Char}
      (h : (if body.isEmpty || !body.all isHexDigit then none else some (natOfBase 16 body)) =
        some n) : body ≠ [] ∧ (∀ d ∈ body, isHexDigit d = true) ∧ n = natOfBase 16 body := by
    split at h
    · cases h
    · next hbody =>
      cases h
      simpa [all_isHexDigit] using hbody
  unfold hexRun at h
  split at h
  · next body => exact ⟨body, Or.inr rfl, hrun h⟩
  · exact ⟨cs, Or.inl rfl, hrun h⟩

theorem hexValue_lt (d : Char) : (hexValue? d).getD 0 < 16 := by
  unfold hexValue?
  split
  · next hd =>
    rw [isAsciiDigit_iff] at hd
    simp
    omega
  · split
    · next hd =>
      simp [Char.le_def, UInt32.le_iff_toNat_le] at hd ⊢
      omega
    · split
      · next hd =>
        simp [Char.le_def, UInt32.le_iff_toNat_le] at hd ⊢
        omega
      · decide

theorem natOfBase_lt_of_three (h : ds.length = 3) : natOfBase 16 ds < 0x1000 := by
  obtain ⟨a, b, c, rfl⟩ := List.length_eq_three.mp h
  have ha := hexValue_lt a
  have hb := hexValue_lt b
  have hc := hexValue_lt c
  simp only [natOfBase, List.foldl_cons, List.foldl_nil]
  omega

theorem hexFixed_append (hlength : cs.length = width) (hrun : hexRun cs = some n)
    (rest : List Char) : hexFixed width (cs ++ rest) = some (n, rest) := by
  unfold hexFixed
  dsimp only
  rw [← hlength, List.take_left, List.drop_left, hrun, if_neg (Nat.lt_irrefl _)]
  rfl

theorem hexFixed_digits (h : HexDigits (width + 1) ds) (rest : List Char) :
    hexFixed (width + 1) (ds ++ rest) = some (natOfBase 16 ds, rest) :=
  hexFixed_append h.length (hexRun_of_digits (by rintro rfl; cases h.length) h.digits) rest

theorem hexFixed_signed (h : HexDigits (width + 1) ds) (rest : List Char) :
    hexFixed (width + 2) ('+' :: (ds ++ rest)) = some (natOfBase 16 ds, rest) :=
  @hexFixed_append ('+' :: ds) _ _ (congrArg Nat.succ h.length)
    (hexRun_of_signed (by rintro rfl; cases h.length) h.digits) rest

/-- Where digits are to be read there are as many digits, or a sign and one less. -/
theorem digits_of_hexFixed (h : hexFixed (width + 1) cs = some (n, rest)) :
    ∃ ds, n = natOfBase 16 ds ∧ ((HexDigits (width + 1) ds ∧ cs = ds ++ rest) ∨
      (HexDigits width ds ∧ cs = '+' :: (ds ++ rest))) := by
  unfold hexFixed at h
  dsimp only at h
  split at h
  · cases h
  · next hlength =>
    obtain ⟨m, hrun, heq⟩ := Option.map_eq_some_iff.mp h
    obtain ⟨rfl, rfl⟩ := Prod.mk.inj heq
    have hcs : cs = cs.take (width + 1) ++ cs.drop (width + 1) := (List.take_append_drop _ _).symm
    have htaken : (cs.take (width + 1)).length = width + 1 := by
      have := List.length_take_le (width + 1) cs
      omega
    obtain ⟨ds, htake | htake, -, hdigits, rfl⟩ := digits_of_hexRun hrun
    · rw [htake] at hcs htaken
      exact ⟨ds, rfl, Or.inl ⟨⟨htaken, hdigits⟩, hcs⟩⟩
    · rw [htake] at hcs htaken
      exact ⟨ds, rfl, Or.inr ⟨⟨Nat.succ.inj htaken, hdigits⟩, hcs⟩⟩

end Hex

/-! ## Characters by their number -/

theorem scalar?_eq_some {n : Nat} {c : Char} : scalar? n = some c ↔ c.toNat = n := by
  unfold scalar?
  constructor
  · intro h
    split at h
    · next hn =>
      cases h
      have hvalid : n.isValidChar := by
        unfold Nat.isValidChar
        simp only [Bool.or_eq_true, Bool.and_eq_true, decide_eq_true_eq] at hn
        omega
      exact toNat_ofNat hvalid
    · cases h
  · rintro rfl
    have hscalar := toNat_scalar c
    rw [if_pos (by simp; omega), Char.ofNat_toNat]

theorem joinSurrogates_eq {high low : Nat} {c : Char} (hhigh : 0xD800 ≤ high ∧ high < 0xDC00)
    (hlow : 0xDC00 ≤ low ∧ low < 0xE000) : Json.joinSurrogates high low = c ↔
      c.toNat = 0x10000 + (high - 0xD800) * 0x400 + (low - 0xDC00) := by
  have hvalid : (0x10000 + (high - 0xD800) * 0x400 + (low - 0xDC00)).isValidChar := by
    unfold Nat.isValidChar
    omega
  unfold Json.joinSurrogates
  constructor
  · rintro rfl
    exact toNat_ofNat hvalid
  · intro h
    rw [← h, Char.ofNat_toNat]

/-! ## One escape -/

section Escaped
variable {cs rest : List Char} {bytes : List UInt8} {c : Char} {n : Nat}

theorem head_ne_brace (h : hexFixed 4 cs = some (n, rest)) (tail : List Char) :
    cs ≠ '{' :: tail := by
  rintro rfl
  obtain ⟨ds, -, ⟨hds, heq⟩ | ⟨-, heq⟩⟩ := digits_of_hexFixed h
  · cases ds with
    | nil => cases hds.length
    | cons d ds =>
      have hbrace := hds.digits d List.mem_cons_self
      rw [← (List.cons.inj heq).1] at hbrace
      revert hbrace
      decide
  · cases heq

/-- A sign leaves three digits, which are too few for a surrogate. -/
theorem digits_of_surrogate (h : hexFixed 4 cs = some (n, rest)) (hn : 0xD800 ≤ n) :
    ∃ ds, HexDigits 4 ds ∧ cs = ds ++ rest ∧ n = natOfBase 16 ds := by
  obtain ⟨ds, rfl, ⟨hds, hcs⟩ | ⟨hds, -⟩⟩ := digits_of_hexFixed h
  · exact ⟨ds, hds, hcs, rfl⟩
  · have hlt := natOfBase_lt_of_three hds.length
    omega

theorem unicodeEscape_braces {ds : List Char} (hne : ds ≠ []) (h : ∀ d ∈ ds, isHexDigit d = true)
    (hc : c.toNat = natOfBase 16 ds) (rest : List Char) :
    unicodeEscape ('{' :: (ds ++ '}' :: rest)) = some (c, rest) := by
  have hends (d : Char) (hd : ('}' :: rest).head? = some d) : isHexDigit d = false := by
    cases hd
    decide
  have hspan := span_append h hends
  unfold unicodeEscape
  simp only [hspan]
  simp [hne, scalar?_eq_some.mpr hc]

theorem unicodeEscape_unit (h : hexFixed 4 cs = some (n, rest)) (hc : c.toNat = n) :
    unicodeEscape cs = some (c, rest) := by
  have hscalar := toNat_scalar c
  have hhigh : (0xD800 ≤ n && n < 0xDC00) = false := by
    simp
    omega
  unfold unicodeEscape
  split
  · next tail => exact absurd rfl (head_ne_brace h tail)
  · rw [h]
    dsimp only
    rw [hhigh, if_neg (by decide), scalar?_eq_some.mpr hc]
    rfl

theorem unicodeEscape_pair {high low : Nat} {tail : List Char}
    (hhigh : hexFixed 4 cs = some (high, '\\' :: 'u' :: tail))
    (hlow : hexFixed 4 tail = some (low, rest)) (hfirst : 0xD800 ≤ high ∧ high < 0xDC00)
    (hsecond : 0xDC00 ≤ low ∧ low < 0xE000)
    (hc : c.toNat = 0x10000 + (high - 0xD800) * 0x400 + (low - 0xDC00)) :
    unicodeEscape cs = some (c, rest) := by
  unfold unicodeEscape
  split
  · next tail => exact absurd rfl (head_ne_brace hhigh tail)
  · rw [hhigh]
    dsimp only
    rw [if_pos (by simpa using hfirst)]
    simp only [hlow]
    rw [if_pos (by simpa using hsecond), (joinSurrogates_eq hfirst hsecond).mpr hc]

theorem read_of_unicodeEscape (h : unicodeEscape cs = some (c, rest)) :
    Escape ('u' :: cs) (encodeChar c) rest ∨ Slip ('u' :: cs) (encodeChar c) rest := by
  unfold unicodeEscape at h
  split at h
  · next tail =>
    rw [List.span_eq_takeWhile_dropWhile] at h
    dsimp only at h
    split at h
    · next after hafter =>
      split at h
      · cases h
      · next hne =>
        obtain ⟨c', hscalar, heq⟩ := Option.map_eq_some_iff.mp h
        cases heq
        have htail : tail = tail.takeWhile isHexDigit ++ '}' :: rest := by
          rw [← hafter, List.takeWhile_append_dropWhile]
        rw [htail]
        exact Or.inl (.braces (by simpa using hne) (fun d hd => List.mem_takeWhile_imp hd)
          (scalar?_eq_some.mp hscalar) rest)
    · cases h
  · split at h
    · cases h
    · next high tail hhigh =>
      split at h
      · next hfirst =>
        have hfirst : 0xD800 ≤ high ∧ high < 0xDC00 := by simpa using hfirst
        split at h
        · next tail =>
          split at h
          · next low tail hlow =>
            split at h
            · next hsecond =>
              have hsecond : 0xDC00 ≤ low ∧ low < 0xE000 := by simpa using hsecond
              obtain ⟨hjoin, rfl⟩ := Prod.mk.inj (Option.some.inj h)
              have hc := (joinSurrogates_eq hfirst hsecond).mp hjoin
              obtain ⟨highs, hhighs, rfl, rfl⟩ := digits_of_surrogate hhigh hfirst.1
              obtain ⟨lows, hlows, rfl, rfl⟩ := digits_of_surrogate hlow (by omega)
              exact Or.inl (.pair hhighs hlows hfirst hsecond hc _)
            · cases h
          · cases h
        · cases h
      · obtain ⟨c', hscalar, heq⟩ := Option.map_eq_some_iff.mp h
        cases heq
        have hc := scalar?_eq_some.mp hscalar
        obtain ⟨ds, rfl, ⟨hds, rfl⟩ | ⟨hds, rfl⟩⟩ := digits_of_hexFixed hhigh
        · exact Or.inl (.unit hds hc rest)
        · exact Or.inr (.unit hds hc rest)

/-! ### Up to three digits -/

theorem takeWhile_take (p : Char → Bool) (cs : List Char) (n : Nat) :
    cs = (cs.take n).takeWhile p ++ cs.drop ((cs.take n).takeWhile p).length ∧
      (((cs.take n).takeWhile p).length = n ∨ ((cs.take n).takeWhile p).length < n ∧
        (cs.drop ((cs.take n).takeWhile p).length).head?.any p = false) := by
  induction n generalizing cs with
  | zero => simp
  | succ n ih =>
    cases cs with
    | nil => simp
    | cons c cs =>
      obtain ⟨happend, hends⟩ := ih cs
      rw [List.take_succ_cons, List.takeWhile_cons]
      cases hc : p c with
      | false => simp [hc]
      | true =>
        refine ⟨congrArg (List.cons c) happend, ?_⟩
        simpa using hends

theorem takeWhile_take_append (p : Char → Bool) {ds : List Char} (h : ∀ d ∈ ds, p d = true)
    {rest : List Char} {n : Nat}
    (hends : ds.length = n ∨ ds.length < n ∧ rest.head?.any p = false) :
    ((ds ++ rest).take n).takeWhile p = ds := by
  induction ds generalizing n with
  | nil =>
    cases n with
    | zero => simp
    | succ n =>
      cases rest with
      | nil => simp
      | cons c rest =>
        have hc : p c = false := by simpa using hends
        simp [hc]
  | cons d ds ih =>
    obtain ⟨hd, hds⟩ := List.forall_mem_cons.mp h
    cases n with
    | zero => simp at hends
    | succ n =>
      have hrest := ih hds (n := n) (by simpa using hends)
      simp [hd, hrest]

/-! ### All escapes -/

theorem blanks_of_luaBlanks {blanks : List Char} (h : ∀ b ∈ blanks, isLuaBlank b = true)
    (rest : List Char) : (∀ b ∈ blanks, isAsciiBlank b = true) ∨
      ∃ before after, (∀ b ∈ before, isAsciiBlank b = true) ∧
        blanks ++ rest = before ++ '\x0b' :: after := by
  induction blanks with
  | nil => exact Or.inl (by simp)
  | cons b blanks ih =>
    obtain ⟨hb, hblanks⟩ := List.forall_mem_cons.mp h
    rcases Bool.or_eq_true_iff.mp hb with hb | hb
    · rcases ih hblanks with hall | ⟨before, after, hbefore, heq⟩
      · exact Or.inl (List.forall_mem_cons.mpr ⟨hb, hall⟩)
      · exact Or.inr ⟨b :: before, after, List.forall_mem_cons.mpr ⟨hb, hbefore⟩,
          congrArg (List.cons b) heq⟩
    · exact Or.inr ⟨[], blanks ++ rest, by simp, by rw [beq_iff_eq.mp hb]; rfl⟩

theorem escaped_letterBytes {b : UInt8} (h : (c, b) ∈ letterBytes) (cs : List Char) :
    escaped (c :: cs) = some ([b], cs) := by
  simp only [letterBytes, List.mem_cons, Prod.mk.injEq, List.not_mem_nil, or_false] at h
  rcases h with ⟨rfl, rfl⟩ | ⟨rfl, rfl⟩ | ⟨rfl, rfl⟩ | ⟨rfl, rfl⟩ | ⟨rfl, rfl⟩ | ⟨rfl, rfl⟩ |
    ⟨rfl, rfl⟩ <;> rfl

theorem escaped_itself (h : c ∈ ['\\', '"', '\'', '/']) (cs : List Char) :
    escaped (c :: cs) = some (encodeChar c, cs) := by
  simp only [List.mem_cons, List.not_mem_nil, or_false] at h
  rcases h with rfl | rfl | rfl | rfl <;> rfl

theorem escaped_blanks (cs : List Char) :
    escaped ('z' :: cs) = some ([], cs.dropWhile isAsciiBlank) := rfl

theorem escaped_byte (cs : List Char) : escaped ('x' :: cs) =
    (hexFixed 2 cs).map (fun read => ([UInt8.ofNat read.1], read.2)) := rfl

theorem escaped_unicode (cs : List Char) : escaped ('u' :: cs) =
    (unicodeEscape cs).map (fun read => (encodeChar read.1, read.2)) := rfl

theorem escaped_digit (h : isAsciiDigit c = true) (cs : List Char) : escaped (c :: cs) =
    if natOf (c :: (cs.take 2).takeWhile isAsciiDigit) < 256 then
      some ([UInt8.ofNat (natOf (c :: (cs.take 2).takeWhile isAsciiDigit))],
        cs.drop ((cs.take 2).takeWhile isAsciiDigit).length)
    else none := by
  have hn {x : Char} (hx : isAsciiDigit x = false) : (c == x) = false := isAsciiDigit_ne h hx
  simp [escaped, hn (x := 'n') rfl, hn (x := 't') rfl, hn (x := 'r') rfl, hn (x := 'a') rfl,
    hn (x := 'b') rfl, hn (x := 'f') rfl, hn (x := 'v') rfl, hn (x := '\\') rfl,
    hn (x := '"') rfl, hn (x := '\'') rfl, hn (x := '/') rfl, hn (x := '\n') rfl,
    hn (x := 'z') rfl, hn (x := 'x') rfl, h]

theorem read_of_blanks (cs : List Char) : Escape ('z' :: cs) [] (cs.dropWhile isAsciiBlank) ∨
    Slip ('z' :: cs) [] (cs.dropWhile isAsciiBlank) := by
  have hall : ∀ b ∈ cs.takeWhile isAsciiBlank, isAsciiBlank b = true :=
    fun b hb => List.mem_takeWhile_imp hb
  have hcs : cs = cs.takeWhile isAsciiBlank ++ cs.dropWhile isAsciiBlank :=
    List.takeWhile_append_dropWhile.symm
  have hends := List.head?_dropWhile_not isAsciiBlank cs
  generalize cs.takeWhile isAsciiBlank = blanks at *
  generalize cs.dropWhile isAsciiBlank = after at *
  subst hcs
  have hlua : ∀ b ∈ blanks, isLuaBlank b = true := fun b hb => by simp [isLuaBlank, hall b hb]
  cases after with
  | nil => exact Or.inl (.blanks hlua rfl)
  | cons d after =>
    by_cases hd : d = '\x0b'
    · subst hd
      exact Or.inr (.blanks hall after)
    · exact Or.inl (.blanks hlua (by simpa [isLuaBlank, hd] using hends))

theorem dropWhile_of_ends (h : rest.head?.any isLuaBlank = false) :
    rest.dropWhile isAsciiBlank = rest := by
  cases rest with
  | nil => rfl
  | cons d rest =>
    have hd : isAsciiBlank d = false := (Bool.or_eq_false_iff.mp h).1
    simp [hd]

theorem decimal_of_digit (h : isAsciiDigit c = true) (cs : List Char)
    (hvalue : natOf (c :: (cs.take 2).takeWhile isAsciiDigit) < 256) :
    Escape (c :: cs) [UInt8.ofNat (natOf (c :: (cs.take 2).takeWhile isAsciiDigit))]
      (cs.drop ((cs.take 2).takeWhile isAsciiDigit).length) := by
  have hmore : ∀ d ∈ (cs.take 2).takeWhile isAsciiDigit, isAsciiDigit d = true :=
    fun d hd => List.mem_takeWhile_imp hd
  obtain ⟨hcs, hends⟩ := takeWhile_take isAsciiDigit cs 2
  generalize (cs.take 2).takeWhile isAsciiDigit = more at *
  generalize cs.drop more.length = after at *
  subst hcs
  refine @Escape.decimal (c :: more) after (List.cons_ne_nil c more)
    (List.forall_mem_cons.mpr ⟨h, hmore⟩)
    ?_ hvalue
  rcases hends with hlength | ⟨hlength, hends⟩
  · exact Or.inl (congrArg Nat.succ hlength)
  · exact Or.inr ⟨Nat.succ_lt_succ hlength, hends⟩

/-- The first character decides what kind of escape is read. -/
theorem read_of_escaped (h : escaped cs = some (bytes, rest)) :
    Escape cs bytes rest ∨ Slip cs bytes rest := by
  cases cs with
  | nil => cases h
  | cons c cs =>
    by_cases hletter : c ∈ letterBytes.map Prod.fst
    · obtain ⟨⟨_, b⟩, hb, rfl⟩ := List.mem_map.mp hletter
      rw [escaped_letterBytes hb] at h
      cases h
      exact Or.inl (.letter hb _)
    by_cases hself : c ∈ ['\\', '"', '\'', '/']
    · rw [escaped_itself hself] at h
      cases h
      exact Or.inl (.itself hself _)
    by_cases hbreak : c = '\n'
    · subst hbreak
      cases h
      cases rest with
      | nil => exact Or.inl (.newline (by simp))
      | cons d rest =>
        -- a carriage return behind it belongs to the same line break, but is left behind
        by_cases hd : d = '\r'
        · subst hd
          exact Or.inr (.newline rest)
        · exact Or.inl (.newline (by simpa using hd))
    by_cases hblanks : c = 'z'
    · subst hblanks
      obtain ⟨rfl, rfl⟩ := Prod.mk.inj (Option.some.inj ((escaped_blanks cs).symm.trans h))
      exact read_of_blanks cs
    by_cases hbyte : c = 'x'
    · subst hbyte
      obtain ⟨⟨n, after⟩, hread, heq⟩ := Option.map_eq_some_iff.mp ((escaped_byte cs).symm.trans h)
      cases heq
      obtain ⟨ds, rfl, ⟨hds, rfl⟩ | ⟨hds, rfl⟩⟩ := digits_of_hexFixed hread
      · exact Or.inl (.byte hds _)
      · exact Or.inr (.byte hds _)
    by_cases hunicode : c = 'u'
    · subst hunicode
      obtain ⟨⟨d, after⟩, hread, heq⟩ :=
        Option.map_eq_some_iff.mp ((escaped_unicode cs).symm.trans h)
      cases heq
      exact read_of_unicodeEscape hread
    by_cases hdigit : isAsciiDigit c = true
    · rw [escaped_digit hdigit] at h
      split at h
      · next hvalue =>
        obtain ⟨rfl, rfl⟩ := Prod.mk.inj (Option.some.inj h)
        exact Or.inl (decimal_of_digit hdigit cs hvalue)
      · cases h
    · simp only [letterBytes, List.map_cons, List.map_nil, List.mem_cons, List.not_mem_nil, or_false,
        not_or] at hletter hself
      simp [escaped, hletter, hself, hbreak, hblanks, hbyte, hunicode, hdigit] at h

theorem escaped_of_slip (h : Slip cs bytes rest) : escaped cs = some (bytes, rest) := by
  cases h with
  | byte h rest => rw [escaped_byte, hexFixed_signed h, Option.map_some]
  | unit h hc rest =>
    rw [escaped_unicode, unicodeEscape_unit (hexFixed_signed h rest) hc, Option.map_some]
  | blanks h rest =>
    rw [escaped_blanks, List.dropWhile_append_of_pos h]
    rfl
  | newline rest => rfl

theorem escaped_of_escape (h : Escape cs bytes rest)
    (hnone : ∀ bytes' rest', ¬ Slip cs bytes' rest') : escaped cs = some (bytes, rest) := by
  cases h with
  | letter h rest => exact escaped_letterBytes h rest
  | itself h rest => exact escaped_itself h rest
  | newline h => rfl
  | lineBreak rest => exact absurd (.newline rest) (hnone _ _)
  | @blanks blanks _ h hends =>
    rcases blanks_of_luaBlanks h rest with hall | ⟨before, after, hbefore, heq⟩
    · rw [escaped_blanks, List.dropWhile_append_of_pos hall, dropWhile_of_ends hends]
    · rw [heq] at hnone
      exact absurd (.blanks hbefore after) (hnone _ _)
  | byte h rest => rw [escaped_byte, hexFixed_digits h, Option.map_some]
  | @decimal ds _ hne h hends hbyte =>
    obtain ⟨d, more, rfl⟩ := List.exists_cons_of_ne_nil hne
    obtain ⟨hd, hmore⟩ := List.forall_mem_cons.mp h
    have hends : more.length = 2 ∨ more.length < 2 ∧ rest.head?.any isAsciiDigit = false :=
      hends.imp Nat.succ.inj (And.imp_left Nat.lt_of_succ_lt_succ)
    have htaken := takeWhile_take_append isAsciiDigit hmore hends
    rw [List.cons_append, escaped_digit hd, htaken, if_pos hbyte, List.drop_left]
  | braces hne h hc rest =>
    rw [escaped_unicode, unicodeEscape_braces hne h hc rest, Option.map_some]
  | unit h hc rest =>
    rw [escaped_unicode, unicodeEscape_unit (hexFixed_digits h rest) hc, Option.map_some]
  | @pair high low _ hhigh hlow hfirst hsecond hc rest =>
    rw [escaped_unicode, unicodeEscape_pair (hexFixed_digits hhigh ('\\' :: 'u' :: (low ++ rest)))
      (hexFixed_digits hlow rest) hfirst hsecond hc, Option.map_some]

/-- What follows a backslash is read exactly where it is an escape, or a slip, which goes first. -/
theorem escaped_eq_some : escaped cs = some (bytes, rest) ↔ Taken cs bytes rest := by
  constructor
  · intro h
    by_cases hslip : ∃ bytes' rest', Slip cs bytes' rest'
    · obtain ⟨bytes', rest', hslip⟩ := hslip
      obtain ⟨rfl, rfl⟩ := Prod.mk.inj (Option.some.inj ((escaped_of_slip hslip).symm.trans h))
      exact Or.inl hslip
    · have hnone (bytes' rest') : ¬ Slip cs bytes' rest' := fun h => hslip ⟨bytes', rest', h⟩
      exact Or.inr ⟨(read_of_escaped h).resolve_right (hnone _ _), hnone⟩
  · rintro (hslip | ⟨hescape, hnone⟩)
    · exact escaped_of_slip hslip
    · exact escaped_of_escape hescape hnone

end Escaped
end DiceHost.Literal
