import DiceHost.Decimal.Layout
import DiceHost.Decimal.Numeral
import Mathlib.Data.List.Basic

/-! # Decimal digits of integers read back

`natDigits` writes the digits of a natural number and `natOf` reads them; with a sign in
front they are how every format writes integers.
-/
namespace DiceHost.Decimal
open DiceHost.Text

theorem isAsciiDigit_iff {c : Char} : isAsciiDigit c = true ↔ 48 ≤ c.toNat ∧ c.toNat ≤ 57 := by
  simp [isAsciiDigit, Char.le_def, UInt32.le_iff_toNat_le]

theorem isAsciiDigit_ne {c x : Char} (hc : isAsciiDigit c = true) (hx : isAsciiDigit x = false) :
    (c == x) = false := by
  refine beq_eq_false_iff_ne.mpr ?_
  rintro rfl
  rw [hc] at hx
  cases hx

/-- Every character is a decimal digit. -/
def AllDigits (cs : List Char) : Prop := ∀ c ∈ cs, isAsciiDigit c = true

theorem allDigits_natDigits (n : Nat) : AllDigits (natDigits n) := by
  intro c hc
  have h := Nat.isDigit_of_mem_toDigits (b := 10) (by decide) (by decide) hc
  rw [Char.isDigit_iff_toNat] at h
  exact isAsciiDigit_iff.mpr h

theorem natDigits_ne_nil (n : Nat) : natDigits n ≠ [] := Nat.toDigits_ne_nil

theorem natOf_eq_ofDigitChars (cs : List Char) : natOf cs = Nat.ofDigitChars 10 cs 0 := by
  have hstep : (fun (n : Nat) (c : Char) => n * 10 + digitValue c) =
      fun n c => 10 * n + (c.toNat - '0'.toNat) := by
    funext n c
    rw [Nat.mul_comm]
    rfl
  rw [Nat.ofDigitChars_eq_foldl, natOf, hstep]

theorem natOf_natDigits (n : Nat) : natOf (natDigits n) = n := by
  rw [natOf_eq_ofDigitChars]
  exact Nat.ofDigitChars_ten_toDigits

theorem natOfBase_ten {cs : List Char} (h : AllDigits cs) : natOfBase 10 cs = natOf cs := by
  refine List.foldl_ext _ _ 0 (fun n c hc => ?_)
  simp [hexValue?, h c hc, digitValue]

/-- An integer is written the same way inside a number with an exponent and on its own. -/
theorem toList_toString (n : Int) : (toString n).toList = intDigits n false := by
  rw [Int.toString_eq_repr, Int.repr_eq_if]
  by_cases h : n < 0
  · have hn : (-n).toNat = n.natAbs := by omega
    have h0 : ¬0 ≤ n := by omega
    simp [intDigits, natDigits, h, h0, hn]
  · have hn : n.toNat = n.natAbs := by omega
    have h0 : 0 ≤ n := by omega
    simp [intDigits, natDigits, h, h0, hn]

theorem takeSign_digits {cs : List Char} (h : AllDigits cs) : takeSign cs = (false, cs) := by
  cases cs with
  | nil => rfl
  | cons c cs =>
    have hc := h c List.mem_cons_self
    unfold takeSign
    split
    · next heq => cases heq; simp [isAsciiDigit] at hc
    · next heq => cases heq; simp [isAsciiDigit] at hc
    · rfl

theorem takeSign_intDigits (n : Int) :
    takeSign (intDigits n false) = (decide (n < 0), natDigits n.natAbs) := by
  by_cases h : n < 0
  · simp [intDigits, takeSign, h]
  · simp [intDigits, takeSign_digits (allDigits_natDigits n.natAbs), h]

/-- A signed numeral of any size reads back. -/
theorem integer?_intDigits (n : Int) : integer? isAsciiDigit 10 (intDigits n false) = some n := by
  have hdigits := allDigits_natDigits n.natAbs
  have hempty : (natDigits n.natAbs).isEmpty = false := by simpa using natDigits_ne_nil n.natAbs
  have hall : (natDigits n.natAbs).all isAsciiDigit = true := List.all_eq_true.mpr hdigits
  have hvalue := natOfBase_ten hdigits
  rw [natOf_natDigits] at hvalue
  have hread : integer? isAsciiDigit 10 (intDigits n false) =
      some (if decide (n < 0) then -(n.natAbs : Int) else n.natAbs) := by
    simp only [integer?, takeSign_intDigits, hempty, hall, hvalue, Bool.not_true, Bool.or_self,
      Bool.false_eq_true, if_false]
  rw [hread]
  by_cases h : n < 0
  · rw [if_pos (by simpa using h)]
    congr 1
    omega
  · rw [if_neg (by simpa using h)]
    congr 1
    omega

end DiceHost.Decimal
