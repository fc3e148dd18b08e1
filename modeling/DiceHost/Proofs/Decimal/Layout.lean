import DiceHost.Proofs.Decimal.Integer

/-! # The shape of a written double

The digits found for a double are decimal digits and there is at least one, so a layout
that ends whole numbers in `.0` writes a finite double as a digit string with a point or
with an exponent.
-/
namespace DiceHost.Decimal
open DiceHost.Text

/-- A digit string that can be laid out. -/
def Digits.Plain (d : Digits) : Prop := AllDigits d.digits ∧ d.digits ≠ []

theorem plain_ofNat (n width : Nat) (exponent : Int) : (Digits.ofNat n width exponent).Plain := by
  unfold Digits.Plain Digits.ofNat
  dsimp only
  split
  · exact ⟨by simp [AllDigits, isAsciiDigit], by simp⟩
  · next h =>
    refine ⟨?_, by simpa using h⟩
    intro c hc
    have hm := (List.dropWhile_sublist (· == '0')).subset (List.mem_reverse.mp hc)
    exact allDigits_natDigits n c (List.mem_reverse.mp hm)

theorem plain_shortestFrom (i : Interval) (magnitude : Int) (fuel width : Nat) :
    (shortestFrom i magnitude fuel width).Plain := by
  induction fuel generalizing width with
  | zero => exact plain_ofNat _ _ _
  | succ fuel ih =>
    unfold shortestFrom
    split
    · exact plain_ofNat _ _ _
    · exact ih (width + 1)

theorem plain_shortest (b : Binary) : (shortest b).Plain := plain_shortestFrom _ _ _ _

/-- The text of a finite double without its sign; `signed` tells how a positive exponent is
written. -/
inductive FloatBody (signed : Bool) : List Char → Prop where
  | positional {whole fraction : List Char} (hwhole : AllDigits whole) (hne : whole ≠ [])
      (hfraction : AllDigits fraction) : FloatBody signed (whole ++ '.' :: fraction)
  | exponent {lead : Char} {rest : List Char} (hlead : isAsciiDigit lead = true)
      (hrest : AllDigits rest) (e : Int) :
      FloatBody signed
        (lead :: ((if rest.isEmpty then [] else '.' :: rest) ++ 'e' :: intDigits e signed))

theorem AllDigits.append {as bs : List Char} (ha : AllDigits as) (hb : AllDigits bs) :
    AllDigits (as ++ bs) := by
  intro c hc
  rcases List.mem_append.mp hc with h | h
  · exact ha c h
  · exact hb c h

theorem allDigits_zeros (n : Nat) : AllDigits (List.replicate n '0') := by
  intro c hc
  rw [List.eq_of_mem_replicate hc]
  rfl

theorem Digits.Plain.parts {d : Digits} (h : d.Plain) :
    AllDigits d.parts.1 ∧ d.parts.1 ≠ [] ∧ AllDigits d.parts.2 := by
  obtain ⟨hd, hne⟩ := h
  unfold Digits.parts
  split
  · exact ⟨by simp [AllDigits, isAsciiDigit], by simp, (allDigits_zeros _).append hd⟩
  · refine ⟨?_, ?_, fun c hc => hd c (List.mem_of_mem_drop hc)⟩
    · exact AllDigits.append (fun c hc => hd c (List.mem_of_mem_take hc)) (allDigits_zeros _)
    · simp [hne]

section Signed
variable (signed : Bool)

theorem Digits.Plain.positional {d : Digits} (h : d.Plain) :
    FloatBody signed (d.positional true) := by
  obtain ⟨hwhole, hne, hfraction⟩ := h.parts
  unfold Digits.positional
  split
  · next whole heq =>
    rw [heq] at hwhole hne
    exact .positional hwhole hne (by simp [AllDigits, isAsciiDigit])
  · next whole fraction _ heq =>
    rw [heq] at hwhole hne hfraction
    exact .positional hwhole hne hfraction

theorem Digits.Plain.scientific {d : Digits} (h : d.Plain) :
    FloatBody signed (d.scientific signed) := by
  obtain ⟨hd, hne⟩ := h
  unfold Digits.scientific
  split
  · next heq => exact absurd heq hne
  · next lead heq =>
    rw [heq] at hd
    have hrest : AllDigits [] := by simp [AllDigits]
    exact .exponent (hd lead List.mem_cons_self) hrest d.exponent
  · next lead rest hrest heq =>
    rw [heq] at hd
    have hr : AllDigits rest := fun c hc => hd c (List.mem_cons_of_mem _ hc)
    have hn : rest.isEmpty = false := by simpa using hrest
    have hb := @FloatBody.exponent signed lead rest (hd lead List.mem_cons_self) hr d.exponent
    rw [hn] at hb
    exact hb

end Signed

theorem ofFloat?_isSome {x : Float} (h : isFinite x = true) : ∃ b, ofFloat? x = some b := by
  have hne : exponentBits x ≠ 2047 := by simpa [isFinite] using h
  unfold ofFloat?
  split
  · next heq => exact absurd heq hne
  · exact ⟨_, rfl⟩
  · exact ⟨_, rfl⟩

/-- Where whole numbers end in `.0`, a finite double is a digit string with a point or an
exponent, perhaps after a minus sign. -/
theorem floatBody_write {layout : Layout} (hpointed : layout.pointed = true) {x : Float}
    (h : isFinite x = true) : ∃ body, FloatBody layout.signed body ∧
      ((layout.write x).toList = body ∨ (layout.write x).toList = '-' :: body) := by
  obtain ⟨b, hb⟩ := ofFloat?_isSome h
  unfold Layout.write
  rw [hb]
  dsimp only
  rw [hpointed]
  generalize hbody : (if b.mantissa = 0 then if true = true then ['0', '.', '0'] else ['0']
    else if layout.least ≤ (shortest b).exponent ∧ (shortest b).exponent ≤ layout.greatest then
      (shortest b).positional true
    else (shortest b).scientific layout.signed) = body
  refine ⟨body, ?_, ?_⟩
  · have hplain := plain_shortest b
    rw [← hbody]
    split
    · have hzero : AllDigits ['0'] := by simp [AllDigits, isAsciiDigit]
      exact .positional hzero (by simp) hzero
    · split
      · exact hplain.positional layout.signed
      · exact hplain.scientific layout.signed
  · cases b.negative with
    | false => exact Or.inl (by simp)
    | true => exact Or.inr (by simp)

end DiceHost.Decimal
