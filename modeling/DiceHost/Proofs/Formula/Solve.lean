import DiceHost.Proofs.Formula.Progress
import Mathlib.Data.List.Perm.Subperm

/-! # What a sheet is solved to

No field is computed twice, so the queue is empty in the end. Then exactly the fields
without an infinite chain of reads are computed. When these are all of them, every
formula has the value that it takes over the final values.
-/
namespace DiceHost.Formula.Sheet
variable {s : Sheet} {given : List (Option Float)}

/-! ## The run -/

section Run
variable {done : List Nat} {p : Progress}

theorem step_of_queue_nil (h : p.queue = []) : s.step p = p := by
  simp [step, h]

theorem run_of_queue_nil (h : p.queue = []) (steps : Nat) : s.run steps p = p := by
  induction steps with
  | zero => rfl
  | succ steps ih => rw [run, step_of_queue_nil h, ih]

/-- A run computes one field a step, until the queue is empty. -/
theorem Reached.run (h : s.Reached given done p) (steps : Nat) :
    ∃ done', s.Reached given done' (s.run steps p) ∧
      ((s.run steps p).queue = [] ∨ done'.length = done.length + steps) := by
  induction steps generalizing done p with
  | zero => exact ⟨done, h, Or.inr rfl⟩
  | succ steps ih =>
    cases hqueue : p.queue with
    | nil =>
      rw [run_of_queue_nil hqueue]
      exact ⟨done, h, Or.inl hqueue⟩
    | cons i rest =>
      obtain ⟨done', h', hend⟩ := ih (h.step hqueue)
      refine ⟨done', h', hend.imp_right (fun hlen => ?_)⟩
      rw [hlen, List.length_cons]
      omega

theorem Reached.subset (h : s.Reached given done p) : done ⊆ s.computed := by
  intro i hi
  obtain ⟨e, he, -⟩ := h.solved i hi
  exact mem_computed.mpr ⟨e, he⟩

theorem Reached.length_le (h : s.Reached given done p) : done.length ≤ s.computed.length :=
  (h.nodup.subperm h.subset).length_le

/-- While a field is in the queue, some computed field is missing. -/
theorem Reached.length_lt {i : Nat} {rest : List Nat} (h : s.Reached given done p)
    (hqueue : p.queue = i :: rest) : done.length < s.computed.length :=
  (h.step hqueue).length_le

/-- With an empty queue the computed fields are those without an infinite chain of reads. -/
theorem Reached.mem_iff (h : s.Reached given done p) (hqueue : p.queue = []) {i : Nat} {e : Expr}
    (he : s.formula? i = some e) : i ∈ done ↔ Acc (fun j i => s.Reads i j) i := by
  constructor
  · exact h.grounded i
  · intro hacc
    induction hacc generalizing e with
    | intro i _ ih =>
      by_contra hi
      have hreads : ∀ j ∈ s.reads e, j ∈ done := by
        intro j hj
        obtain ⟨e', he'⟩ := (mem_reads.mp hj).2
        exact ih j ⟨e, he, hj⟩ he'
      have hmem := (h.queue i).mpr ⟨hi, e, he, hreads⟩
      rw [hqueue] at hmem
      cases hmem

theorem Reached.finished_lt_iff (h : s.Reached given done p) :
    p.finished < s.computed.length ↔ ∃ i ∈ s.computed, i ∉ done := by
  rw [h.finished]
  constructor
  · intro hlt
    by_contra hall
    have hsub : s.computed ⊆ done := by
      intro i hi
      by_contra hdone
      exact hall ⟨i, hi, hdone⟩
    have hle := (nodup_computed.subperm hsub).length_le
    omega
  · rintro ⟨i, hi, hdone⟩
    have hcons : (i :: done).Nodup := List.nodup_cons.mpr ⟨hdone, h.nodup⟩
    exact (hcons.subperm (List.cons_subset.mpr ⟨hi, h.subset⟩)).length_le

end Run

/-! ## The result -/

/-- The given values are those of the fields without a formula. -/
structure Fits (s : Sheet) (given : List (Option Float)) : Prop where
  length : given.length = s.formulas.length
  blank : ∀ i e, s.formula? i = some e → valueAt given i = none

/-- Every formula that can be computed was computed at the end of the run. -/
theorem Fits.reached (h : s.Fits given) : ∃ done,
    s.Reached given done (s.run s.computed.length (s.start given)) ∧
      (s.run s.computed.length (s.start given)).queue = [] := by
  obtain ⟨done, hreached, hend⟩ := (reached_start h.length).run s.computed.length
  refine ⟨done, hreached, ?_⟩
  rcases hend with hqueue | hlen
  · exact hqueue
  · cases hqueue : (s.run s.computed.length (s.start given)).queue with
    | nil => rfl
    | cons i rest =>
      have hlt := hreached.length_lt hqueue
      rw [List.length_nil] at hlen
      omega

/-- The values of a solved sheet keep the given ones and satisfy every formula. -/
theorem Fits.of_solve {values : List (Option Float)} (h : s.Fits given)
    (hsolve : s.solve given = .ok values) :
    values.length = s.formulas.length ∧
      (∀ i, s.formula? i = none → valueAt values i = valueAt given i) ∧
      ∀ i e, s.formula? i = some e → valueAt values i = some (s.evaluate values e) := by
  obtain ⟨done, hreached, -⟩ := h.reached
  unfold solve at hsolve
  dsimp only at hsolve
  split at hsolve
  · cases hsolve
  · next hfinished =>
    cases hsolve
    refine ⟨hreached.length, ?_, ?_⟩
    · intro i hi
      refine hreached.kept i (fun hdone => ?_)
      obtain ⟨e, he, -⟩ := hreached.solved i hdone
      rw [hi] at he
      cases he
    · intro i e he
      have hdone : i ∈ done := by
        by_contra hdone
        exact hfinished (hreached.finished_lt_iff.mpr ⟨i, mem_computed.mpr ⟨e, he⟩, hdone⟩)
      obtain ⟨e', he', -, hvalue⟩ := hreached.solved i hdone
      rw [he] at he'
      cases he'
      exact hvalue

/-- A sheet has no solution when some field has an infinite chain of reads; the fields that
have one are listed in order. -/
theorem Fits.solve_error_iff (h : s.Fits given) :
    (∃ stuck, s.solve given = .error stuck) ↔
      ∃ i e, s.formula? i = some e ∧ ¬ Acc (fun j i => s.Reads i j) i := by
  obtain ⟨done, hreached, hqueue⟩ := h.reached
  have hfinished : (∃ stuck, s.solve given = .error stuck) ↔
      (s.run s.computed.length (s.start given)).finished < s.computed.length := by
    unfold solve
    dsimp only
    split
    · next hlt => simp [hlt]
    · next hlt => simp [hlt]
  rw [hfinished, hreached.finished_lt_iff]
  constructor
  · rintro ⟨i, hi, hdone⟩
    obtain ⟨e, he⟩ := mem_computed.mp hi
    exact ⟨i, e, he, fun hacc => hdone ((hreached.mem_iff hqueue he).mpr hacc)⟩
  · rintro ⟨i, e, he, hacc⟩
    exact ⟨i, mem_computed.mpr ⟨e, he⟩, fun hdone => hacc ((hreached.mem_iff hqueue he).mp hdone)⟩

theorem Fits.mem_stuck {stuck : List Nat} (h : s.Fits given)
    (hsolve : s.solve given = .error stuck) :
    stuck.Sublist s.computed ∧ ∀ i, i ∈ stuck ↔
      ∃ e, s.formula? i = some e ∧ ¬ Acc (fun j i => s.Reads i j) i := by
  obtain ⟨done, hreached, hqueue⟩ := h.reached
  unfold solve at hsolve
  dsimp only at hsolve
  split at hsolve
  · cases hsolve
    refine ⟨List.filter_sublist, fun i => ?_⟩
    simp only [Sheet.stuck, List.mem_filter, mem_computed, Option.isNone_iff_eq_none]
    constructor
    · rintro ⟨⟨e, he⟩, hvalue⟩
      refine ⟨e, he, fun hacc => ?_⟩
      have hdone := (hreached.mem_iff hqueue he).mpr hacc
      obtain ⟨e', -, -, hsome⟩ := hreached.solved i hdone
      rw [hvalue] at hsome
      cases hsome
    · rintro ⟨e, he, hacc⟩
      refine ⟨⟨e, he⟩, ?_⟩
      have hdone : i ∉ done := fun hdone => hacc ((hreached.mem_iff hqueue he).mp hdone)
      rw [hreached.kept i hdone, h.blank i e he]
  · cases hsolve

end DiceHost.Formula.Sheet
