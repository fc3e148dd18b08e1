import DiceHost.Literal.Decode
import DiceHost.Proofs.Decimal.Layout

/-! # Written numbers read back

A number inside a literal is followed by nothing, a comma or the end of a table or list,
so the reader stops exactly at its end. Integers come back by their digits. Whether a float
comes back is a question about the numeral alone, with no text around it.
-/
namespace DiceHost.Literal
open DiceHost.Text DiceHost.Decimal

/-- What may follow a value inside a literal. -/
inductive Ends : List Char → Prop where
  | nothing : Ends []
  | comma (rest : List Char) : Ends (',' :: rest)
  | brace (rest : List Char) : Ends ('}' :: rest)
  | bracket (rest : List Char) : Ends (']' :: rest)

theorem numeralBody_ends {rest : List Char} (h : Ends rest) (acc : List Char) :
    numeralBody acc rest = (acc.reverse, rest) := by
  cases h <;> simp [numeralBody, isAsciiDigit]

theorem numeralBody_cons {c : Char} (h : isAsciiDigit c = true ∨ c = '.' ∨ c = 'e')
    (acc rest : List Char) : numeralBody acc (c :: rest) = numeralBody (c :: acc) rest := by
  rcases h with h | rfl | rfl
  · simp [numeralBody, h]
  · simp [numeralBody]
  · simp [numeralBody]

theorem numeralBody_digits {cs : List Char} (h : AllDigits cs) (acc rest : List Char) :
    numeralBody acc (cs ++ rest) = numeralBody (cs.reverse ++ acc) rest := by
  induction cs generalizing acc with
  | nil => rfl
  | cons c cs ih =>
    have hc := h c List.mem_cons_self
    rw [List.cons_append, numeralBody_cons (Or.inl hc),
      ih (fun d hd => h d (List.mem_cons_of_mem _ hd))]
    simp

theorem intDigits_cases (e : Int) (signed : Bool) :
    intDigits e signed = natDigits e.natAbs ∨
      ∃ sign, (sign = '-' ∨ sign = '+') ∧ intDigits e signed = sign :: natDigits e.natAbs := by
  by_cases h : e < 0
  · exact Or.inr ⟨'-', Or.inl rfl, by simp [intDigits, h]⟩
  · cases signed with
    | false => exact Or.inl (by simp [intDigits, h])
    | true => exact Or.inr ⟨'+', Or.inr rfl, by simp [intDigits, h]⟩

/-- After the exponent letter a sign belongs to the numeral. -/
theorem numeralBody_exponent (e : Int) (signed : Bool) (acc rest : List Char) :
    numeralBody ('e' :: acc) (intDigits e signed ++ rest) =
      numeralBody ((intDigits e signed).reverse ++ 'e' :: acc) rest := by
  have hdigits := allDigits_natDigits e.natAbs
  obtain htext | ⟨sign, hsign, htext⟩ := intDigits_cases e signed
  · rw [htext, numeralBody_digits hdigits]
  · have hstep : numeralBody ('e' :: acc) (sign :: (natDigits e.natAbs ++ rest)) =
        numeralBody (sign :: 'e' :: acc) (natDigits e.natAbs ++ rest) := by
      rcases hsign with rfl | rfl <;> simp [numeralBody]
    rw [htext, List.cons_append, hstep, numeralBody_digits hdigits]
    simp

theorem numeralBody_floatBody {signed : Bool} {body rest : List Char}
    (hb : FloatBody signed body) (hr : Ends rest) :
    numeralBody [] (body ++ rest) = (body, rest) := by
  cases hb with
  | positional hwhole hne hfraction =>
    rw [List.append_assoc, numeralBody_digits hwhole, List.cons_append,
      numeralBody_cons (Or.inr (Or.inl rfl)), numeralBody_digits hfraction, numeralBody_ends hr]
    simp
  | @exponent lead digits hlead hdigits e =>
    rw [List.cons_append, numeralBody_cons (Or.inl hlead)]
    split
    · rw [List.nil_append, List.cons_append, numeralBody_cons (Or.inr (Or.inr rfl)),
        numeralBody_exponent, numeralBody_ends hr]
      simp
    · rw [List.append_assoc, List.cons_append, numeralBody_cons (Or.inr (Or.inl rfl)),
        numeralBody_digits hdigits, List.cons_append, numeralBody_cons (Or.inr (Or.inr rfl)),
        numeralBody_exponent, numeralBody_ends hr]
      simp

/-! ## Which reader a number goes to -/

/-- A numeral begins with a digit and holds no letter but the exponent letter. -/
structure Unsigned (body : List Char) : Prop where
  lead : ∃ c tail, body = c :: tail ∧ isAsciiDigit c = true
  chars : ∀ c ∈ body, isAsciiDigit c = true ∨ c = '.' ∨ c = 'e' ∨ c = '-' ∨ c = '+'

theorem unsigned_natDigits (n : Nat) : Unsigned (natDigits n) := by
  have h := allDigits_natDigits n
  refine ⟨?_, fun c hc => Or.inl (h c hc)⟩
  obtain ⟨c, tail, heq⟩ := List.exists_cons_of_ne_nil (natDigits_ne_nil n)
  exact ⟨c, tail, heq, h c (heq ▸ List.mem_cons_self)⟩

theorem intDigits_chars (e : Int) (signed : Bool) :
    ∀ c ∈ intDigits e signed,
      isAsciiDigit c = true ∨ c = '.' ∨ c = 'e' ∨ c = '-' ∨ c = '+' := by
  intro c hc
  have h := allDigits_natDigits e.natAbs
  obtain htext | ⟨sign, hsign, htext⟩ := intDigits_cases e signed
  · rw [htext] at hc
    exact Or.inl (h c hc)
  · rw [htext] at hc
    rcases List.mem_cons.mp hc with rfl | hc
    · exact Or.inr (Or.inr (Or.inr hsign))
    · exact Or.inl (h c hc)

theorem unsigned_floatBody {signed : Bool} {body : List Char} (h : FloatBody signed body) :
    Unsigned body := by
  cases h with
  | @positional whole fraction hwhole hne hfraction =>
    obtain ⟨c, tail, rfl⟩ := List.exists_cons_of_ne_nil hne
    refine ⟨⟨c, tail ++ '.' :: fraction, rfl, hwhole c List.mem_cons_self⟩, ?_⟩
    intro d hd
    rcases List.mem_append.mp hd with hd | hd
    · exact Or.inl (hwhole d hd)
    · rcases List.mem_cons.mp hd with hd | hd
      · exact Or.inr (Or.inl hd)
      · exact Or.inl (hfraction d hd)
  | @exponent lead digits hlead hdigits e =>
    refine ⟨⟨lead, _, rfl, hlead⟩, ?_⟩
    intro d hd
    rcases List.mem_cons.mp hd with rfl | hd
    · exact Or.inl hlead
    rcases List.mem_append.mp hd with hd | hd
    · split at hd
      · cases hd
      · rcases List.mem_cons.mp hd with hd | hd
        · exact Or.inr (Or.inl hd)
        · exact Or.inl (hdigits d hd)
    · rcases List.mem_cons.mp hd with hd | hd
      · exact Or.inr (Or.inr (Or.inl hd))
      · exact intDigits_chars e signed d hd

/-- No numeral is taken for a hexadecimal one. -/
theorem Unsigned.not_hex {body rest : List Char} (h : Unsigned body) (hr : Ends rest)
    {x : Char} (hx : x = 'x' ∨ x = 'X') (after : List Char) : body ++ rest ≠ '0' :: x :: after := by
  intro heq
  obtain ⟨c, tail, rfl, _⟩ := h.lead
  cases tail with
  | nil =>
    simp only [List.singleton_append, List.cons.injEq] at heq
    obtain ⟨-, rfl⟩ := heq
    rcases hx with rfl | rfl <;> cases hr
  | cons d tail =>
    simp only [List.cons_append, List.cons.injEq] at heq
    obtain ⟨-, rfl, -⟩ := heq
    have hd := h.chars d (by simp)
    rcases hx with rfl | rfl <;> simp [isAsciiDigit] at hd

theorem Unsigned.unsigned_eq {body rest : List Char} (h : Unsigned body) (hr : Ends rest)
    (hbody : numeralBody [] (body ++ rest) = (body, rest)) (negative : Bool) :
    unsigned negative (body ++ rest) =
      (numeral? (if negative then '-' :: body else body)).map (fun v => (v, rest)) := by
  unfold unsigned
  dsimp only
  split
  · next after heq => exact absurd heq (h.not_hex hr (Or.inl rfl) after)
  · next after heq => exact absurd heq (h.not_hex hr (Or.inr rfl) after)
  · rw [hbody]

theorem Unsigned.number_eq {body rest : List Char} (h : Unsigned body) (hr : Ends rest)
    (hbody : numeralBody [] (body ++ rest) = (body, rest)) :
    number (body ++ rest) = (numeral? body).map (fun v => (v, rest)) := by
  have hu := h.unsigned_eq hr hbody false
  obtain ⟨c, tail, rfl, hc⟩ := h.lead
  unfold number
  split
  · next heq =>
    cases heq
    simp [isAsciiDigit] at hc
  · exact hu

theorem Unsigned.number_neg {body rest : List Char} (h : Unsigned body) (hr : Ends rest)
    (hbody : numeralBody [] (body ++ rest) = (body, rest)) :
    number ('-' :: (body ++ rest)) = (numeral? ('-' :: body)).map (fun v => (v, rest)) :=
  h.unsigned_eq hr hbody true

/-! ## Integers and floats -/

theorem intDigits_unmarked (n : Int) :
    (intDigits n false).any (fun c => c == '.' || c == 'e' || c == 'E') = false := by
  refine List.any_eq_false.mpr (fun c hc => ?_)
  unfold intDigits at hc
  have hdigit : c = '-' ∨ isAsciiDigit c = true := by
    split at hc
    · rcases List.mem_cons.mp hc with hc | hc
      · exact Or.inl hc
      · exact Or.inr (allDigits_natDigits _ c hc)
    · exact Or.inr (allDigits_natDigits _ c hc)
  rcases hdigit with rfl | hdigit
  · decide
  · rw [isAsciiDigit_iff] at hdigit
    have hpoint : c ≠ '.' := by rintro rfl; simp at hdigit
    have hsmall : c ≠ 'e' := by rintro rfl; simp at hdigit
    have hlarge : c ≠ 'E' := by rintro rfl; simp at hdigit
    simp [hpoint, hsmall, hlarge]

/-- A numeral of an integer stands for it when it fits one of the 64-bit ranges. -/
theorem numeral?_intDigits {n : Int} (hlow : minInt ≤ n) (hhigh : n ≤ maxNat) :
    numeral? (intDigits n false) = some (.int n) := by
  have hread := integer?_intDigits n
  unfold numeral?
  rw [intDigits_unmarked]
  by_cases h : n ≤ maxInt
  · have hfits : isInt64 n = true := by simp [isInt64, hlow, h]
    simp [int64?, hread, Option.filter, hfits]
  · have hfits : isInt64 n = false := by simp [isInt64, h]
    have hpos : 0 ≤ n := by simp only [maxInt] at h; omega
    have hnat : isNat64 n = true := by simp [isNat64, hpos, hhigh]
    have hhead : ((intDigits n false).head? == some '-') = false := by
      have hneg : ¬n < 0 := by omega
      have hd := allDigits_natDigits n.natAbs
      simp only [intDigits, if_neg hneg, Bool.false_eq_true, if_false]
      cases hcs : natDigits n.natAbs with
      | nil => rfl
      | cons c cs => simpa using isAsciiDigit_ne (hd c (hcs ▸ List.mem_cons_self)) (x := '-') rfl
    simp [int64?, nat64?, hread, Option.filter, hfits, hnat, hhead]

theorem number_intDigits {n : Int} (hlow : minInt ≤ n) (hhigh : n ≤ maxNat) {rest : List Char}
    (hr : Ends rest) : number (intDigits n false ++ rest) = some (.int n, rest) := by
  have hvalue := numeral?_intDigits hlow hhigh
  have hu := unsigned_natDigits n.natAbs
  have hbody : numeralBody [] (natDigits n.natAbs ++ rest) = (natDigits n.natAbs, rest) := by
    rw [numeralBody_digits (allDigits_natDigits _), numeralBody_ends hr]
    simp
  by_cases h : n < 0
  · have htext : intDigits n false = '-' :: natDigits n.natAbs := by simp [intDigits, h]
    rw [htext] at hvalue ⊢
    rw [List.cons_append, hu.number_neg hr hbody, hvalue]
    rfl
  · have htext : intDigits n false = natDigits n.natAbs := by simp [intDigits, h]
    rw [htext] at hvalue ⊢
    rw [hu.number_eq hr hbody, hvalue]
    rfl

theorem floatBody_marked {signed : Bool} {body : List Char} (h : FloatBody signed body) :
    body.any (fun c => c == '.' || c == 'e' || c == 'E') = true := by
  cases h with
  | positional => simp
  | exponent => simp

theorem numeral?_float {text : List Char} {x : Float} (hfinite : isFinite x = true)
    (hmark : text.any (fun c => c == '.' || c == 'e' || c == 'E') = true)
    (hread : float? text = some x) : numeral? text = some (.float x) := by
  simp [numeral?, hmark, hread, Option.filter, hfinite]

/-- A finite double comes back if its text on its own reads as the same double. -/
theorem number_float {layout : Layout} (hpointed : layout.pointed = true) {x : Float}
    (hfinite : isFinite x = true) (hread : float? (layout.write x).toList = some x)
    {rest : List Char} (hr : Ends rest) :
    number ((layout.write x).toList ++ rest) = some (.float x, rest) := by
  obtain ⟨body, hb, htext⟩ := floatBody_write hpointed hfinite
  have hu := unsigned_floatBody hb
  have hbody := numeralBody_floatBody hb hr
  have hmark := floatBody_marked hb
  rcases htext with htext | htext
  · rw [htext] at hread ⊢
    rw [hu.number_eq hr hbody, numeral?_float hfinite hmark hread]
    rfl
  · rw [htext] at hread ⊢
    have hmark : ('-' :: body).any (fun c => c == '.' || c == 'e' || c == 'E') = true := by
      rw [List.any_cons, hmark, Bool.or_true]
    rw [List.cons_append, hu.number_neg hr hbody, numeral?_float hfinite hmark hread]
    rfl

end DiceHost.Literal
