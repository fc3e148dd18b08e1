import Mathlib.Data.List.Pairwise

/-! # Searching in any order

Where the entries of a list differ in what is searched for, the order of the entries makes no
difference.
-/
namespace DiceHost
variable {α : Type}

/-- Where at most one entry satisfies a condition, every order finds the same. -/
theorem find?_eq_of_perm {items other : List α} (h : items.Perm other) {p : α → Bool}
    (hunique : other.Pairwise (fun a b => ¬ (p a = true ∧ p b = true))) :
    items.find? p = other.find? p := by
  have hhits : (other.filter p).Pairwise (fun _ _ => False) := by
    refine (List.Pairwise.sublist List.filter_sublist hunique).imp_of_mem ?_
    intro a b ha hb hne
    exact hne ⟨(List.mem_filter.mp ha).2, (List.mem_filter.mp hb).2⟩
  have hperm := h.filter p
  rw [← List.head?_filter, ← List.head?_filter]
  cases hother : other.filter p with
  | nil =>
    rw [hother] at hperm
    rw [hperm.eq_nil]
  | cons first rest =>
    rw [hother] at hperm hhits
    have hrest : rest = [] := by
      cases rest with
      | nil => rfl
      | cons second tail =>
        exact absurd ((List.pairwise_cons.mp hhits).1 second List.mem_cons_self) id
    rw [hrest] at hperm ⊢
    rw [hperm.eq_singleton]

/-- Entries that must not stand together are one entry. -/
theorem eq_of_pairwise_not {R : α → α → Prop} (hsymm : ∀ a b, R a b → R b a)
    {items : List α} (h : items.Pairwise (fun a b => ¬ R a b)) {a b : α} (ha : a ∈ items)
    (hb : b ∈ items) (hab : R a b) : a = b := by
  have hflip : Std.Symm (fun a b => ¬ R a b) := ⟨fun a b hne hba => hne (hsymm b a hba)⟩
  by_contra hne
  exact h.forall ha hb hne hab

/-- Where the entries that satisfy a condition must not stand together, any one of them is the one
that is found. -/
theorem find?_eq_some_of_mem {R : α → α → Prop} (hsymm : ∀ a b, R a b → R b a) {items : List α}
    (h : items.Pairwise (fun a b => ¬ R a b)) {p : α → Bool}
    (hp : ∀ a b, p a = true → p b = true → R a b) {a : α} (ha : a ∈ items) (hpa : p a = true) :
    items.find? p = some a := by
  cases hfind : items.find? p with
  | none => exact absurd hpa (List.find?_eq_none.mp hfind a ha)
  | some b =>
    have hR : R b a := hp b a (List.find?_some hfind) hpa
    rw [eq_of_pairwise_not hsymm h (List.mem_of_find?_eq_some hfind) ha hR]

end DiceHost
