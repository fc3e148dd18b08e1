import DiceHost.Json.Read
import DiceHost.Proofs.Literal.Item

/-! # Numbers in JSON

What is read of a number does not depend on what stands behind it, and the decimals of an integer
are read as that integer.
-/
namespace DiceHost.Json
open DiceHost.Text DiceHost.Decimal
open DiceHost.Literal (Ends)

/-- What is read of a number is the same in front of something that ends it. -/
def Local {α : Type} (scan : Scan α) : Prop :=
  ∀ cs rest, Ends rest → scan (cs ++ rest) = (scan cs).map (fun (v, after) => (v, after ++ rest))

theorem span_digits (cs : List Char) {rest : List Char} (h : Ends rest) :
    (cs ++ rest).span isAsciiDigit =
      ((cs.span isAsciiDigit).1, (cs.span isAsciiDigit).2 ++ rest) := by
  simp only [List.span_eq_takeWhile_dropWhile]
  induction cs with
  | nil => cases h <;> simp [isAsciiDigit]
  | cons c cs ih =>
    by_cases hc : isAsciiDigit c = true
    · simp only [List.cons_append, List.takeWhile_cons, List.dropWhile_cons, hc, if_true]
      simp only [Prod.mk.injEq] at ih ⊢
      exact ⟨congrArg _ ih.1, ih.2⟩
    · simp [hc]

theorem takeDigits_append (cs : List Char) {rest : List Char} (h : Ends rest) (n count : Nat) :
    takeDigits n count (cs ++ rest) =
      ((takeDigits n count cs).1, (takeDigits n count cs).2.1,
        (takeDigits n count cs).2.2 ++ rest) := by
  induction cs generalizing n count with
  | nil => cases h <;> simp [takeDigits, isAsciiDigit]
  | cons c cs ih =>
    rw [List.cons_append, takeDigits, takeDigits]
    split
    · exact ih _ _
    · rfl

theorem local_exponentPart (negative : Bool) (significand : Nat) (start : Int) :
    Local (exponentPart negative significand start) := by
  intro cs rest h
  have hsign : takeSign (cs ++ rest) = ((takeSign cs).1, (takeSign cs).2 ++ rest) := by
    cases cs with
    | nil => cases h <;> rfl
    | cons c cs =>
      rw [List.cons_append]
      unfold takeSign
      split <;> split <;> simp_all
  unfold exponentPart
  rw [hsign]
  dsimp only
  rw [span_digits _ h]
  dsimp only
  split
  · rfl
  · split
    · split <;> rfl
    · simp [Option.map_map, Function.comp_def]

theorem local_afterDigits (negative : Bool) (significand : Nat) (exponent : Int) :
    Local (afterDigits negative significand exponent) := by
  intro cs rest h
  have hexponent := local_exponentPart negative significand exponent
  cases cs with
  | nil => cases h <;> simp [afterDigits, Option.map_map, Function.comp_def]
  | cons c cs =>
    by_cases hc : c = 'e' ∨ c = 'E'
    · rcases hc with rfl | rfl <;> exact hexponent cs rest h
    · obtain ⟨hlower, hupper⟩ := not_or.mp hc
      simp [afterDigits, hlower, hupper, Option.map_map, Function.comp_def]

theorem local_fractionPart (negative : Bool) (significand : Nat) (start : Int) :
    Local (fractionPart negative significand start) := by
  intro cs rest h
  have hdrop (cs : List Char) :
      (cs ++ rest).dropWhile isAsciiDigit = cs.dropWhile isAsciiDigit ++ rest := by
    have hspan := congrArg Prod.snd (span_digits cs h)
    simpa only [List.span_eq_takeWhile_dropWhile] using hspan
  unfold fractionPart
  rw [takeDigits_append _ h]
  dsimp only
  rw [hdrop, List.length_append, List.length_append]
  simp only [Nat.add_right_cancel_iff]
  split
  · rfl
  · exact local_afterDigits _ _ _ _ _ h

/-- A number stops behind its digits unless a point or an exponent follows. -/
theorem afterWhole_of_stops (negative : Bool) (n extra : Nat) {cs : List Char}
    (h : ∀ c ∈ cs.head?, c ≠ '.' ∧ c ≠ 'e' ∧ c ≠ 'E') :
    afterWhole negative n extra cs =
      if 0 < extra then afterDigits negative n extra cs
      else if !negative then some (int n, cs)
      else if n = 0 || 9223372036854775808 < n then some (float (-(UInt64.ofNat n).toFloat), cs)
      else some (int (-(n : Int)), cs) := by
  cases cs with
  | nil => rfl
  | cons c cs =>
    obtain ⟨hpoint, hlower, hupper⟩ := h c rfl
    simp [afterWhole, hpoint, hlower, hupper]

theorem stops_of_ends {rest : List Char} (h : Ends rest) :
    ∀ c ∈ rest.head?, c ≠ '.' ∧ c ≠ 'e' ∧ c ≠ 'E' := by
  intro c hc
  cases h <;> cases hc <;> decide

theorem local_afterWhole (negative : Bool) (n extra : Nat) :
    Local (afterWhole negative n extra) := by
  intro cs rest h
  have hafter := local_afterDigits negative n extra cs rest h
  by_cases hgoes : ∃ after, cs = '.' :: after ∨ cs = 'e' :: after ∨ cs = 'E' :: after
  · obtain ⟨after, rfl | rfl | rfl⟩ := hgoes
    · exact local_fractionPart _ _ _ _ _ h
    · exact hafter
    · exact hafter
  · have hstops : ∀ c ∈ cs.head?, c ≠ '.' ∧ c ≠ 'e' ∧ c ≠ 'E' := by
      intro c hc
      obtain ⟨after, rfl⟩ := List.head?_eq_some_iff.mp hc
      refine ⟨?_, ?_, ?_⟩ <;> rintro rfl <;> exact hgoes ⟨after, by simp⟩
    have hboth : ∀ c ∈ (cs ++ rest).head?, c ≠ '.' ∧ c ≠ 'e' ∧ c ≠ 'E' := by
      cases cs with
      | nil => exact stops_of_ends h
      | cons c cs => exact hstops
    rw [afterWhole_of_stops negative n extra hstops, afterWhole_of_stops negative n extra hboth]
    split
    · exact hafter
    split
    · rfl
    split <;> rfl

theorem local_unsigned (negative : Bool) : Local (unsigned negative) := by
  intro cs rest h
  cases cs with
  | nil => cases h <;> rfl
  | cons c cs =>
    have hhead : ((cs ++ rest).head?.map isAsciiDigit).getD false =
        (cs.head?.map isAsciiDigit).getD false := by
      cases cs with
      | nil => cases h <;> rfl
      | cons d cs => rfl
    have hdigits := takeDigits_append (c :: cs) h 0 0
    rw [List.cons_append] at hdigits ⊢
    unfold unsigned
    dsimp only
    rw [hhead, hdigits]
    dsimp only
    rw [span_digits _ h]
    dsimp only
    split
    · rfl
    split
    · rfl
    exact local_afterWhole _ _ _ _ _ h

theorem local_number : Local number := by
  intro cs rest h
  cases cs with
  | nil => cases h <;> rfl
  | cons c cs =>
    by_cases hc : c = '-'
    · subst hc
      exact local_unsigned true cs rest h
    · have hnumber (cs : List Char) : number (c :: cs) = unsigned false (c :: cs) := by
        simp [number, hc]
      rw [List.cons_append, hnumber, hnumber]
      exact local_unsigned false (c :: cs) rest h

/-- A number is read in front of what ends it as it is read alone. -/
theorem number_append {cs rest : List Char} {v : Json} (h : number cs = some (v, []))
    (hrest : Ends rest) : number (cs ++ rest) = some (v, rest) := by
  rw [local_number cs rest hrest, h]
  rfl

/-! ## Integers -/

theorem le_foldl_digits {cs : List Char} {n : Nat} :
    n ≤ cs.foldl (fun n c => n * 10 + digitValue c) n := by
  induction cs generalizing n with
  | nil => exact Nat.le_refl n
  | cons c cs ih =>
    have hstep := ih (n := n * 10 + digitValue c)
    rw [List.foldl_cons]
    omega

/-- Digits that fit are all taken. -/
theorem takeDigits_digits {cs : List Char} (h : AllDigits cs) {n : Nat} (count : Nat)
    (hfits : cs.foldl (fun n c => n * 10 + digitValue c) n ≤ maxSignificand) :
    takeDigits n count cs =
      (cs.foldl (fun n c => n * 10 + digitValue c) n, count + cs.length, []) := by
  induction cs generalizing n count with
  | nil => rfl
  | cons c cs ih =>
    obtain ⟨hc, hcs⟩ := List.forall_mem_cons.mp h
    have hnext : n * 10 + digitValue c ≤ maxSignificand := Nat.le_trans le_foldl_digits hfits
    have hgoes : (isAsciiDigit c && n * 10 + digitValue c ≤ maxSignificand) = true := by
      simp [hc, hnext]
    rw [takeDigits, if_pos hgoes, ih hcs _ hfits, List.length_cons, List.foldl_cons,
      Nat.add_assoc, Nat.add_comm 1]

/-- Only zero is written with a leading zero. -/
theorem natDigits_lead {n : Nat} {tail : List Char} (h : natDigits n = '0' :: tail) :
    tail = [] := by
  induction n using Nat.strongRecOn generalizing tail with
  | ind n ih =>
    by_cases hn : n < 10
    · rw [natDigits, Nat.toDigits_of_lt_base hn] at h
      exact (List.cons.inj h).2.symm
    · have hsplit : natDigits n = natDigits (n / 10) ++ [(n % 10).digitChar] :=
        Nat.toDigits_of_base_le (by decide) (Nat.le_of_not_lt hn)
      obtain ⟨c, front, hfront⟩ := List.exists_cons_of_ne_nil (natDigits_ne_nil (n / 10))
      rw [hsplit, hfront, List.cons_append] at h
      obtain ⟨rfl, -⟩ := List.cons.inj h
      rw [ih (n / 10) (by omega) hfront] at hfront
      have hzero : natOf (natDigits (n / 10)) = 0 := by
        rw [hfront]
        rfl
      rw [natOf_natDigits] at hzero
      omega

theorem unsigned_natDigits (negative : Bool) {n : Nat} (h : n ≤ maxSignificand) :
    unsigned negative (natDigits n) = afterWhole negative n 0 [] := by
  have hvalue := natOf_natDigits n
  have hdigits := allDigits_natDigits n
  have hlead : ∀ tail, natDigits n = '0' :: tail → tail = [] := fun _ => natDigits_lead
  obtain ⟨c, tail, heq⟩ := List.exists_cons_of_ne_nil (natDigits_ne_nil n)
  rw [heq] at hvalue hdigits hlead ⊢
  have htaken := takeDigits_digits hdigits 0 (by rw [← hvalue] at h; exact h)
  have hc := hdigits c List.mem_cons_self
  have hzero : (c == '0' && (tail.head?.map isAsciiDigit).getD false) = false := by
    by_cases hc : c = '0'
    · subst hc
      rw [hlead tail rfl]
      rfl
    · simp [hc]
  unfold unsigned
  dsimp only
  rw [htaken, hzero, hc]
  exact congrArg (afterWhole negative · 0 []) hvalue

/-- An integer of one of the 64-bit ranges is read back. -/
theorem number_intDigits {n : Int} (h : FitsWord n) :
    number (intDigits n false) = some (int n, []) := by
  obtain ⟨hmin, hmax⟩ := h
  have hfits : n.natAbs ≤ maxSignificand := by
    unfold minInt at hmin
    unfold maxNat at hmax
    unfold maxSignificand
    omega
  have hstops : ∀ c ∈ ([] : List Char).head?, c ≠ '.' ∧ c ≠ 'e' ∧ c ≠ 'E' := by simp
  by_cases hn : n < 0
  · have hword : ¬ 9223372036854775808 < n.natAbs := by
      unfold minInt at hmin
      omega
    have hne : n.natAbs ≠ 0 := by omega
    have habs : -(n.natAbs : Int) = n := by omega
    rw [intDigits, if_pos hn, number, unsigned_natDigits true hfits,
      afterWhole_of_stops true n.natAbs 0 hstops, if_neg (Nat.lt_irrefl 0), if_neg (by decide),
      if_neg (by simpa [hne] using hword), habs]
  · have habs : (n.natAbs : Int) = n := by omega
    have hdigits := unsigned_natDigits false hfits
    obtain ⟨c, tail, heq⟩ := List.exists_cons_of_ne_nil (natDigits_ne_nil n.natAbs)
    have hc : c ≠ '-' := by
      rintro rfl
      have hdigit := allDigits_natDigits n.natAbs '-' (heq ▸ List.mem_cons_self)
      cases hdigit
    rw [intDigits, if_neg hn]
    simp only [Bool.false_eq_true, if_false]
    rw [heq] at hdigits ⊢
    have hnumber : number (c :: tail) = unsigned false (c :: tail) := by simp [number, hc]
    rw [hnumber, hdigits, afterWhole_of_stops false n.natAbs 0 hstops, if_neg (Nat.lt_irrefl 0),
      if_pos (by decide), habs]

end DiceHost.Json
