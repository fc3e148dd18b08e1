import DiceHost.Formula.Sheet
import DiceHost.Proofs.Formula.Mentions
import Mathlib.Data.List.Nodup

/-! # Computing formulas off a queue

The invariant names the fields that were computed, the latest first. Their formulas read
only fields computed before, every counter counts the formulas that a field still waits
for, and the queue has exactly the fields that wait for none.
-/
namespace DiceHost.Formula

/-! ## Telling the readers of a field -/

theorem Progress.release_of_pending {p : Progress} {i n : Nat} (h : p.pending[i]? = some (n + 1)) :
    p.release i = { p with
      pending := p.pending.set i n
      queue := if n = 0 then p.queue ++ [i] else p.queue } := by
  simp [Progress.release, h]

/-- Every reader waits for one formula less, and those that waited for one only are ready. -/
structure Progress.Released (p q : Progress) (readers : List Nat) : Prop where
  values : q.values = p.values
  finished : q.finished = p.finished
  queue : q.queue = p.queue ++ readers.filter (fun i => p.pending[i]? = some 1)
  pending : ∀ i n, p.pending[i]? = some n →
    q.pending[i]? = some (if i ∈ readers then n - 1 else n)

theorem Progress.released_foldl {readers : List Nat} {p : Progress} (hnodup : readers.Nodup)
    (hwait : ∀ i ∈ readers, ∃ n, p.pending[i]? = some (n + 1)) :
    p.Released (readers.foldl Progress.release p) readers := by
  induction readers generalizing p with
  | nil => exact ⟨rfl, rfl, by simp, by simp⟩
  | cons i rest ih =>
    obtain ⟨hi, hrest⟩ := List.nodup_cons.mp hnodup
    obtain ⟨n, hn⟩ := hwait i List.mem_cons_self
    have hlt : i < p.pending.length := (List.getElem?_eq_some_iff.mp hn).1
    have hother {j : Nat} (hj : j ∈ rest) : (p.pending.set i n)[j]? = p.pending[j]? := by
      refine List.getElem?_set_ne ?_
      rintro rfl
      exact hi hj
    have hrelease := Progress.release_of_pending hn
    -- the count of every other reader is as before, so they still wait
    have hwait' : ∀ j ∈ rest, ∃ m, (p.release i).pending[j]? = some (m + 1) := by
      intro j hj
      rw [hrelease]
      simp only [hother hj]
      exact hwait j (List.mem_cons_of_mem _ hj)
    have h := ih hrest hwait'
    rw [List.foldl_cons]
    refine ⟨?_, ?_, ?_, ?_⟩
    · rw [h.values, hrelease]
    · rw [h.finished, hrelease]
    · have hfilter : rest.filter (fun j => (p.release i).pending[j]? = some 1) =
          rest.filter (fun j => p.pending[j]? = some 1) := by
        refine List.filter_congr (fun j hj => ?_)
        rw [hrelease]
        simp only [hother hj]
      rw [h.queue, hfilter, hrelease]
      by_cases hzero : n = 0
      · simp [hn, hzero]
      · simp [hn, hzero]
    · intro j m hm
      by_cases hj : j = i
      · subst hj
        have hset : (p.release j).pending[j]? = some n := by
          rw [hrelease]
          exact List.getElem?_set_self hlt
        have hmn : m = n + 1 := by simpa [hn] using hm.symm
        rw [h.pending j n hset]
        simp [hi, hmn]
      · have hset : (p.release i).pending[j]? = some m := by
          rw [hrelease]
          simpa [List.getElem?_set_ne (Ne.symm hj)] using hm
        rw [h.pending j m hset]
        simp [hj]

/-! ## What a sheet reads -/

namespace Sheet
variable {s : Sheet}

theorem formula?_lt {i : Nat} {e : Expr} (h : s.formula? i = some e) : i < s.formulas.length := by
  unfold formula? at h
  by_contra hle
  rw [List.getElem?_eq_none (by omega)] at h
  cases h

theorem mem_computed {i : Nat} : i ∈ s.computed ↔ ∃ e, s.formula? i = some e := by
  simp only [computed, List.mem_filter, List.mem_range, Option.isSome_iff_exists]
  constructor
  · exact And.right
  · rintro ⟨e, he⟩
    exact ⟨formula?_lt he, e, he⟩

theorem nodup_computed : s.computed.Nodup := List.nodup_range.filter _

theorem mem_reads {e : Expr} {j : Nat} : j ∈ s.reads e ↔
    (∃ name, e.Mentions name ∧ s.number? name = some j) ∧ ∃ e', s.formula? j = some e' := by
  simp [reads, List.mem_eraseDups, mem_references, Option.isSome_iff_exists]

theorem nodup_eraseDups (numbers : List Nat) : numbers.eraseDups.Nodup := by
  induction hlen : numbers.length using Nat.strongRecOn generalizing numbers with
  | ind n ih =>
    cases numbers with
    | nil => simp
    | cons i rest =>
      rw [List.eraseDups_cons]
      refine List.nodup_cons.mpr ⟨by simp, ih _ ?_ _ rfl⟩
      have hle := List.length_filter_le (fun j => !j == i) rest
      rw [List.length_cons] at hlen
      omega

theorem nodup_reads {e : Expr} : (s.reads e).Nodup := nodup_eraseDups _

theorem readsOf_eq {i : Nat} {e : Expr} (h : s.formula? i = some e) : s.readsOf i = s.reads e := by
  simp [readsOf, h]

theorem mem_readers {i j : Nat} :
    i ∈ s.readers j ↔ ∃ e, s.formula? i = some e ∧ j ∈ s.reads e := by
  simp only [readers, List.mem_filter, mem_computed, List.contains_iff_mem]
  constructor
  · rintro ⟨⟨e, he⟩, hj⟩
    rw [readsOf_eq he] at hj
    exact ⟨e, he, hj⟩
  · rintro ⟨e, he, hj⟩
    exact ⟨⟨e, he⟩, by rwa [readsOf_eq he]⟩

theorem nodup_readers {j : Nat} : (s.readers j).Nodup := nodup_computed.filter _

/-- A field reads another one, and both follow a formula. -/
def Reads (s : Sheet) (i j : Nat) : Prop := ∃ e, s.formula? i = some e ∧ j ∈ s.reads e

/-! ## What a value depends on -/

/-- A formula looks at the values of plain fields and of the computed fields it reads. -/
theorem evaluate_congr {e : Expr} {values values' : List (Option Float)}
    (h : ∀ j, (s.formula? j = none ∨ j ∈ s.reads e) → valueAt values j = valueAt values' j) :
    s.evaluate values e = s.evaluate values' e := by
  have heval : e.eval (fun name => (s.number? name).bind (valueAt values)) =
      e.eval (fun name => (s.number? name).bind (valueAt values')) := by
    refine eval_congr (fun name hm => ?_)
    cases hj : s.number? name with
    | none => rfl
    | some j =>
      refine h j ?_
      cases he : s.formula? j with
      | none => exact Or.inl rfl
      | some e' => exact Or.inr (mem_reads.mpr ⟨⟨name, hm, hj⟩, e', he⟩)
  unfold evaluate
  rw [heval]

theorem valueAt_set_self {values : List (Option Float)} {i : Nat} (h : i < values.length)
    (x : Option Float) : valueAt (values.set i x) i = x := by
  simp [valueAt, List.getElem?_set_self h]

theorem valueAt_set_ne {values : List (Option Float)} {i j : Nat} (h : j ≠ i) (x : Option Float) :
    valueAt (values.set i x) j = valueAt values j := by
  simp [valueAt, List.getElem?_set_ne (Ne.symm h)]

/-! ## The invariant -/

/-- How many of the formulas that a formula reads are not computed yet. -/
def waits (s : Sheet) (done : List Nat) (e : Expr) : Nat :=
  (s.reads e).countP (fun j => j ∉ done)

theorem waits_eq_zero {done : List Nat} {e : Expr} :
    s.waits done e = 0 ↔ ∀ j ∈ s.reads e, j ∈ done := by
  simp [waits, List.countP_eq_zero]

theorem waits_cons {done : List Nat} {e : Expr} {i : Nat} (hi : i ∉ done) :
    s.waits (i :: done) e = if i ∈ s.reads e then s.waits done e - 1 else s.waits done e := by
  unfold waits
  have hnodup := nodup_reads (s := s) (e := e)
  generalize s.reads e = reads at hnodup
  induction reads with
  | nil => simp
  | cons j rest ih =>
    obtain ⟨hj, hrest⟩ := List.nodup_cons.mp hnodup
    by_cases hji : i = j
    · subst hji
      have h := ih hrest
      rw [if_neg hj] at h
      rw [List.countP_cons_of_neg (by simp), List.countP_cons_of_pos (by simpa using hi), h]
      simp
    · have h := ih hrest
      have hmem : i ∈ j :: rest ↔ i ∈ rest := by simp [hji]
      have hdone : j ∈ i :: done ↔ j ∈ done := by simp [Ne.symm hji]
      simp only [List.countP_cons, h, hmem, hdone]
      split
      · next hir =>
        have hpos : 0 < rest.countP (fun j => j ∉ done) :=
          List.countP_pos_iff.mpr ⟨i, hir, by simpa using hi⟩
        omega
      · rfl

theorem waits_pos {done : List Nat} {e : Expr} {i : Nat} (hi : i ∉ done) (h : i ∈ s.reads e) :
    0 < s.waits done e := List.countP_pos_iff.mpr ⟨i, h, by simpa using hi⟩

/-- The computed fields are the listed ones, and the counters and the queue say what is left. -/
structure Reached (s : Sheet) (given : List (Option Float)) (done : List Nat) (p : Progress) :
    Prop where
  length : p.values.length = s.formulas.length
  nodup : done.Nodup
  finished : p.finished = done.length
  kept : ∀ i, i ∉ done → valueAt p.values i = valueAt given i
  solved : ∀ i ∈ done, ∃ e, s.formula? i = some e ∧ (∀ j ∈ s.reads e, j ∈ done) ∧
    valueAt p.values i = some (s.evaluate p.values e)
  /-- there is no infinite chain of reads from a computed field -/
  grounded : ∀ i ∈ done, Acc (fun j i => s.Reads i j) i
  pending : ∀ i e, s.formula? i = some e → p.pending[i]? = some (s.waits done e)
  nodupQueue : p.queue.Nodup
  queue : ∀ i, i ∈ p.queue ↔
    i ∉ done ∧ ∃ e, s.formula? i = some e ∧ ∀ j ∈ s.reads e, j ∈ done

theorem reached_start {given : List (Option Float)} (hlen : given.length = s.formulas.length) :
    s.Reached given [] (s.start given) := by
  have hpending : ∀ i e, s.formula? i = some e →
      (s.start given).pending[i]? = some (s.waits [] e) := by
    intro i e he
    have hlt := formula?_lt he
    simp [start, hlt, readsOf_eq he, waits]
  refine ⟨hlen, List.nodup_nil, rfl, fun _ _ => rfl, by simp, by simp, hpending,
    nodup_computed.filter _, ?_⟩
  intro i
  have hqueue : i ∈ (s.start given).queue ↔
      i ∈ s.computed ∧ (s.start given).pending[i]? = some 0 := by
    simp [start]
  rw [hqueue, mem_computed]
  constructor
  · rintro ⟨⟨e, he⟩, hzero⟩
    rw [hpending i e he] at hzero
    exact ⟨by simp, e, he, waits_eq_zero.mp (Option.some.inj hzero)⟩
  · rintro ⟨-, e, he, hreads⟩
    exact ⟨⟨e, he⟩, by rw [hpending i e he, waits_eq_zero.mpr hreads]⟩

/-- A new value of a field that was not computed changes no value that depends on computed
fields only. -/
theorem evaluate_set {done : List Nat} {values : List (Option Float)} {e e' : Expr} {i : Nat}
    (hi : i ∉ done) (he : s.formula? i = some e) (hreads : ∀ j ∈ s.reads e', j ∈ done)
    (x : Option Float) : s.evaluate (values.set i x) e' = s.evaluate values e' := by
  refine evaluate_congr (fun j hj => valueAt_set_ne ?_ x)
  rintro rfl
  rcases hj with hnone | hread
  · rw [he] at hnone
    cases hnone
  · exact hi (hreads j hread)

section Step
variable {given : List (Option Float)} {done rest : List Nat} {p : Progress} {i : Nat} {e : Expr}

/-- One step gives the first field of the queue its value, and its readers wait for one formula
less. -/
theorem Reached.step_spec (h : s.Reached given done p) (hqueue : p.queue = i :: rest)
    (hi : i ∉ done) (he : s.formula? i = some e) :
    (s.step p).values = p.values.set i (some (s.evaluate p.values e)) ∧
      (s.step p).finished = p.finished + 1 ∧
      (s.step p).queue = rest ++ (s.readers i).filter (fun k => p.pending[k]? = some 1) ∧
      ∀ k e', s.formula? k = some e' →
        (s.step p).pending[k]? = some (s.waits (i :: done) e') := by
  generalize hbefore : ({ p with
    values := p.values.set i (some (s.evaluate p.values e))
    queue := rest
    finished := p.finished + 1 } : Progress) = before
  have hpending : before.pending = p.pending := by rw [← hbefore]
  have hwait : ∀ k ∈ s.readers i, ∃ n, before.pending[k]? = some (n + 1) := by
    intro k hk
    obtain ⟨e', he', hread⟩ := mem_readers.mp hk
    have hpos := waits_pos hi hread
    refine ⟨s.waits done e' - 1, ?_⟩
    rw [hpending, h.pending k e' he', Nat.sub_add_cancel hpos]
  have hstep : s.step p = (s.readers i).foldl Progress.release before := by
    rw [← hbefore]
    simp [Sheet.step, hqueue, he]
  have hreleased := Progress.released_foldl nodup_readers hwait
  rw [← hstep] at hreleased
  refine ⟨?_, ?_, ?_, ?_⟩
  · rw [hreleased.values, ← hbefore]
  · rw [hreleased.finished, ← hbefore]
  · rw [hreleased.queue, hpending, ← hbefore]
  · intro k e' he'
    rw [hreleased.pending k _ (by rw [hpending]; exact h.pending k e' he'), waits_cons hi]
    simp [mem_readers, he']

/-- The readers that waited for one formula only are those that now read computed fields. -/
theorem Reached.mem_ready (h : s.Reached given done p) (hi : i ∉ done) {k : Nat} :
    k ∈ (s.readers i).filter (fun k => p.pending[k]? = some 1) ↔
      ∃ e', s.formula? k = some e' ∧ i ∈ s.reads e' ∧ ∀ j ∈ s.reads e', j ∈ i :: done := by
  simp only [List.mem_filter, mem_readers, decide_eq_true_eq]
  constructor
  · rintro ⟨⟨e', he', hread⟩, hone⟩
    rw [h.pending k e' he'] at hone
    refine ⟨e', he', hread, waits_eq_zero.mp ?_⟩
    rw [waits_cons hi, if_pos hread, Option.some.inj hone]
  · rintro ⟨e', he', hread, hdone⟩
    refine ⟨⟨e', he', hread⟩, ?_⟩
    have hzero := waits_eq_zero.mpr hdone
    have hpos := waits_pos hi hread
    rw [waits_cons hi, if_pos hread] at hzero
    rw [h.pending k e' he']
    congr 1
    omega

/-- A field that reads only computed fields after the step was in the rest of the queue, or it
reads the field of the step. -/
theorem Reached.mem_queue_iff (h : s.Reached given done p) (hqueue : p.queue = i :: rest)
    (he : s.formula? i = some e) {k : Nat} :
    (k ∈ rest ∨ ∃ e', s.formula? k = some e' ∧ i ∈ s.reads e' ∧ ∀ j ∈ s.reads e', j ∈ i :: done) ↔
      k ∉ i :: done ∧ ∃ e', s.formula? k = some e' ∧ ∀ j ∈ s.reads e', j ∈ i :: done := by
  obtain ⟨hi, e₀, he₀, hreads⟩ := (h.queue i).mp (by rw [hqueue]; exact List.mem_cons_self)
  rw [he] at he₀
  cases he₀
  have hrest : i ∉ rest := by
    have hnodup := h.nodupQueue
    rw [hqueue] at hnodup
    exact (List.nodup_cons.mp hnodup).1
  constructor
  · rintro (hk | ⟨e', he', hread, hdone⟩)
    · have hk' : k ∈ p.queue := by rw [hqueue]; exact List.mem_cons_of_mem _ hk
      obtain ⟨hnot, e', he', hreads'⟩ := (h.queue k).mp hk'
      have hki : k ≠ i := by
        rintro rfl
        exact hrest hk
      exact ⟨by simp [hki, hnot], e', he', fun j hj => List.mem_cons_of_mem _ (hreads' j hj)⟩
    · refine ⟨?_, e', he', hdone⟩
      -- neither the field itself nor a computed one reads a field that was not computed
      intro hk
      rcases List.mem_cons.mp hk with rfl | hk
      · rw [he] at he'
        cases he'
        exact hi (hreads k hread)
      · obtain ⟨e'', he'', hreads', -⟩ := h.solved k hk
        rw [he'] at he''
        cases he''
        exact hi (hreads' i hread)
  · rintro ⟨hk, e', he', hdone⟩
    rw [List.mem_cons, not_or] at hk
    by_cases hread : i ∈ s.reads e'
    · exact Or.inr ⟨e', he', hread, hdone⟩
    · have hreads' : ∀ j ∈ s.reads e', j ∈ done := by
        intro j hj
        rcases List.mem_cons.mp (hdone j hj) with rfl | hj'
        · exact absurd hj hread
        · exact hj'
      have hk' := (h.queue k).mpr ⟨hk.2, e', he', hreads'⟩
      rw [hqueue] at hk'
      exact Or.inl ((List.mem_cons.mp hk').resolve_left hk.1)

/-- The field of a step has the value of its formula, and the computed ones keep theirs. -/
theorem Reached.solved_step (h : s.Reached given done p) (hi : i ∉ done)
    (he : s.formula? i = some e) (hreads : ∀ j ∈ s.reads e, j ∈ done) :
    ∀ k ∈ i :: done, ∃ e', s.formula? k = some e' ∧ (∀ j ∈ s.reads e', j ∈ i :: done) ∧
      valueAt (p.values.set i (some (s.evaluate p.values e))) k =
        some (s.evaluate (p.values.set i (some (s.evaluate p.values e))) e') := by
  intro k hk
  by_cases hki : k = i
  · subst hki
    have hlt : k < p.values.length := h.length ▸ formula?_lt he
    refine ⟨e, he, fun j hj => List.mem_cons_of_mem _ (hreads j hj), ?_⟩
    rw [valueAt_set_self hlt, evaluate_set hi he hreads]
  · have hdone : k ∈ done := by simpa [hki] using hk
    obtain ⟨e', he', hreads', hvalue⟩ := h.solved k hdone
    refine ⟨e', he', fun j hj => List.mem_cons_of_mem _ (hreads' j hj), ?_⟩
    rw [valueAt_set_ne hki, evaluate_set hi he hreads', hvalue]

/-- One step computes the first field of the queue. -/
theorem Reached.step (h : s.Reached given done p) (hqueue : p.queue = i :: rest) :
    s.Reached given (i :: done) (s.step p) := by
  obtain ⟨hi, e, he, hreads⟩ := (h.queue i).mp (by rw [hqueue]; exact List.mem_cons_self)
  obtain ⟨hvalues, hfinished, hqueue', hpending⟩ := h.step_spec hqueue hi he
  refine ⟨?_, List.nodup_cons.mpr ⟨hi, h.nodup⟩, ?_, ?_, ?_, ?_, hpending, ?_, ?_⟩
  · rw [hvalues, List.length_set, h.length]
  · rw [hfinished, h.finished, List.length_cons]
  · intro k hk
    rw [List.mem_cons, not_or] at hk
    rw [hvalues, valueAt_set_ne hk.1, h.kept k hk.2]
  · rw [hvalues]
    exact h.solved_step hi he hreads
  · intro k hk
    rcases List.mem_cons.mp hk with rfl | hk
    · refine Acc.intro _ (fun j hj => ?_)
      obtain ⟨e', he', hread⟩ := hj
      rw [he] at he'
      cases he'
      exact h.grounded j (hreads j hread)
    · exact h.grounded k hk
  · have hnodup := h.nodupQueue
    rw [hqueue] at hnodup
    rw [hqueue']
    refine List.nodup_append.mpr ⟨(List.nodup_cons.mp hnodup).2, nodup_readers.filter _, ?_⟩
    -- what waits in the queue reads computed fields only, so it does not read this one
    rintro k hk _ hready rfl
    obtain ⟨e', he', hread, -⟩ := (h.mem_ready hi).mp hready
    have hk' : k ∈ p.queue := by rw [hqueue]; exact List.mem_cons_of_mem _ hk
    obtain ⟨-, e'', he'', hreads'⟩ := (h.queue k).mp hk'
    rw [he'] at he''
    cases he''
    exact hi (hreads' i hread)
  · intro k
    rw [hqueue', List.mem_append, h.mem_ready hi]
    exact h.mem_queue_iff hqueue he

end Step

end Sheet
end DiceHost.Formula
