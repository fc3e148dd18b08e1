import DiceHost.Text.Split
import Mathlib.Data.List.TakeDrop
import Mathlib.Data.List.TakeWhile

/-! # Cuts

What a text is when it could be cut at a character, or when a prefix could be taken off.
-/
namespace DiceHost
open DiceHost.Text

theorem stripPrefixChars_eq_some {lead cs rest : List Char} :
    stripPrefixChars lead cs = some rest ↔ cs = lead ++ rest := by
  induction lead generalizing cs with
  | nil => simp [stripPrefixChars]
  | cons p lead ih =>
    cases cs with
    | nil => simp [stripPrefixChars]
    | cons c cs =>
      by_cases h : p = c
      · subst h
        simp [stripPrefixChars, ih]
      · simp [stripPrefixChars, h, Ne.symm h]

theorem cutFirst_eq_none {p : Char → Bool} {cs : List Char} (h : cutFirst p cs = none) :
    ∀ c ∈ cs, p c = false := by
  unfold cutFirst at h
  rw [List.span_eq_takeWhile_dropWhile] at h
  split at h
  · cases h
  · next heq =>
    have hdrop := (Prod.mk.inj heq).2
    intro c hc
    have hall := List.dropWhile_eq_nil_iff.mp hdrop c hc
    simpa using hall

theorem cutFirst_eq_some {p : Char → Bool} {cs before after : List Char}
    (h : cutFirst p cs = some (before, after)) :
    (∀ c ∈ before, p c = false) ∧ ∃ c, p c = true ∧ cs = before ++ c :: after := by
  unfold cutFirst at h
  rw [List.span_eq_takeWhile_dropWhile] at h
  split at h
  · next found c rest heq =>
    obtain ⟨hbefore, hrest⟩ := Prod.mk.inj heq
    obtain ⟨rfl, rfl⟩ := Prod.mk.inj (Option.some.inj h)
    refine ⟨fun d hd => ?_, c, ?_, ?_⟩
    · have hd' := List.mem_takeWhile_imp (hbefore ▸ hd)
      simpa using hd'
    · have hc := List.head?_dropWhile_not (fun c => !p c) cs
      rw [hrest] at hc
      simpa using hc
    · rw [← hbefore, ← hrest, List.takeWhile_append_dropWhile]
  · cases h

theorem cutLast_eq_some {p : Char → Bool} {cs before after : List Char}
    (h : cutLast p cs = some (before, after)) :
    (∀ c ∈ after, p c = false) ∧ ∃ c, p c = true ∧ cs = before ++ c :: after := by
  obtain ⟨⟨back, front⟩, hcut, heq⟩ := Option.map_eq_some_iff.mp h
  obtain ⟨rfl, rfl⟩ : front.reverse = before ∧ back.reverse = after := Prod.mk.inj heq
  obtain ⟨hback, c, hc, hcs⟩ := cutFirst_eq_some hcut
  refine ⟨by simpa using hback, c, hc, ?_⟩
  rw [← List.reverse_inj, hcs]
  simp

end DiceHost
