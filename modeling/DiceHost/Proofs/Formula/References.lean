import DiceHost.Proofs.Formula.Mentions
import Mathlib.Data.List.Basic

/-! # References and values

The references of a formula tell what a value of it depends on, and in which order the fields are
first read. A formula has a value where all of them are known, no divisor is zero and the result
is finite; the value is then what plain arithmetic gives.
-/
namespace DiceHost.Formula
open DiceHost.Decimal

/-! ## The order of the references -/

/-- The names of the fields in a formula, from left to right, each as often as it stands there. -/
def Expr.uses : Expr → List String
  | number _ => []
  | field name => [name]
  | neg inner => inner.uses
  | binary _ left right => left.uses ++ right.uses

/-- These names are those in a list of uses, in the order of their first uses. -/
structure FirstUses (names uses : List String) : Prop where
  mem : ∀ name, name ∈ names ↔ name ∈ uses
  order : names.Pairwise (fun name later => uses.idxOf name < uses.idxOf later)

section FirstUses
variable {names uses : List String}

theorem FirstUses.nodup (h : FirstUses names uses) : names.Nodup := by
  refine h.order.imp ?_
  rintro name _ hlt rfl
  exact Nat.lt_irrefl _ hlt

theorem FirstUses.addName (h : FirstUses names uses) (name : String) :
    FirstUses (addName names name) (uses ++ [name]) where
  mem other := by
    rw [mem_addName, h.mem, List.mem_append, List.mem_singleton, eq_comm]
  order := by
    have hidxOf {other : String} (hother : other ∈ names) :
        (uses ++ [name]).idxOf other = uses.idxOf other :=
      List.idxOf_append_of_mem ((h.mem other).mp hother)
    have hsame : names.Pairwise
        (fun first later => (uses ++ [name]).idxOf first < (uses ++ [name]).idxOf later) :=
      h.order.imp_of_mem (fun hfirst hlater hlt => by rwa [hidxOf hfirst, hidxOf hlater])
    unfold Formula.addName
    split
    · exact hsame
    · next hnew =>
      refine List.pairwise_append.mpr ⟨hsame, List.pairwise_singleton _ _, ?_⟩
      rintro first hfirst _ (_ | ⟨_, ⟨⟩⟩)
      have hlast : name ∉ uses := fun hname => hnew (by simpa using (h.mem name).mpr hname)
      rw [hidxOf hfirst, List.idxOf_append_of_notMem hlast]
      exact Nat.lt_of_lt_of_le (List.idxOf_lt_length_of_mem ((h.mem first).mp hfirst))
        (Nat.le_add_right _ _)

theorem FirstUses.referencesOnto (h : FirstUses names uses) (e : Expr) :
    FirstUses (e.referencesOnto names) (uses ++ e.uses) := by
  induction e generalizing names uses with
  | number x => exact (List.append_nil uses).symm ▸ h
  | field read => exact h.addName read
  | neg inner ih => exact ih h
  | binary op left right ihl ihr => exact (List.append_assoc _ _ _) ▸ ihr (ihl h)

end FirstUses

/-- The references are the names in a formula, in the order of their first uses. -/
theorem firstUses_references (e : Expr) : FirstUses e.references e.uses :=
  FirstUses.referencesOnto ⟨fun _ => Iff.rfl, List.Pairwise.nil⟩ e

/-! ## Values -/

def Op.divides : Op → Bool
  | div | rem => true
  | _ => false

/-- An operation as plain arithmetic, which always has a result. -/
def Op.plain (op : Op) (a b : Float) : Float :=
  match op with
  | add => a + b
  | sub => a - b
  | mul => a * b
  | div => a / b
  | rem => remainder a b

theorem Op.apply_eq_ok {op : Op} {a b x : Float} :
    op.apply a b = .ok x ↔ (op.divides = true → (b == 0.0) = false) ∧ op.plain a b = x := by
  cases op <;> simp [Op.apply, Op.divides, Op.plain] <;> split <;> simp_all

/-- A formula as plain arithmetic. -/
def Expr.plain (fields : String → Float) : Expr → Float
  | number x => x
  | field name => fields name
  | neg inner => -inner.plain fields
  | binary op left right => op.plain (left.plain fields) (right.plain fields)

/-- The formulas by which a formula divides. -/
def Expr.divisors : Expr → List Expr
  | number _ => []
  | field _ => []
  | neg inner => inner.divisors
  | binary op left right =>
    left.divisors ++ right.divisors ++ if op.divides then [right] else []

/-- The fields of a lookup, and zero under the names that it does not know. -/
def known (lookup : String → Option Float) (name : String) : Float := (lookup name).getD 0.0

/-- A lookup knows all fields of a formula, and no divisor in it is zero. -/
structure Expr.Defined (lookup : String → Option Float) (e : Expr) : Prop where
  fields : ∀ name ∈ e.uses, (lookup name).isSome
  divisors : ∀ divisor ∈ e.divisors, (divisor.plain (known lookup) == 0.0) = false

section Lookup
variable {lookup : String → Option Float} {op : Op} {left right : Expr}

theorem defined_binary : (Expr.binary op left right).Defined lookup ↔
    left.Defined lookup ∧ right.Defined lookup ∧
      (op.divides = true → (right.plain (known lookup) == 0.0) = false) := by
  have hsplit (P : Expr → Prop) : (∀ divisor ∈ if op.divides then [right] else [], P divisor) ↔
      (op.divides = true → P right) := by
    cases op.divides <;> simp
  constructor
  · rintro ⟨hfields, hdivisors⟩
    simp only [Expr.uses, Expr.divisors, List.forall_mem_append, hsplit] at hfields hdivisors
    exact ⟨⟨hfields.1, hdivisors.1.1⟩, ⟨hfields.2, hdivisors.1.2⟩, hdivisors.2⟩
  · rintro ⟨hleft, hright, hdivisor⟩
    exact ⟨List.forall_mem_append.mpr ⟨hleft.fields, hright.fields⟩,
      List.forall_mem_append.mpr ⟨List.forall_mem_append.mpr ⟨hleft.divisors, hright.divisors⟩,
        (hsplit _).mpr hdivisor⟩⟩

theorem bind_eq_ok {ε α β : Type} {x : Except ε α} {f : α → Except ε β} {b : β} :
    x >>= f = .ok b ↔ ∃ a, x = .ok a ∧ f a = .ok b := by
  cases x <;> simp [bind, Except.bind]

/-- A formula has a value where all its fields are known and no divisor is zero: the one of plain
arithmetic. -/
theorem value_eq_ok {e : Expr} {x : Float} :
    e.value lookup = .ok x ↔ e.Defined lookup ∧ e.plain (known lookup) = x := by
  induction e generalizing x with
  | number y =>
    have hdefined : (Expr.number y).Defined lookup := ⟨by simp [Expr.uses], by simp [Expr.divisors]⟩
    simp [Expr.value, Expr.plain, hdefined]
  | field name =>
    have hdefined : (Expr.field name).Defined lookup ↔ (lookup name).isSome :=
      ⟨fun h => h.fields name (List.mem_singleton_self name), fun h =>
        ⟨by simpa [Expr.uses] using h, by simp [Expr.divisors]⟩⟩
    rw [hdefined]
    cases hname : lookup name <;> simp [Expr.value, Expr.plain, known, hname]
  | neg inner ih =>
    have hdefined : (Expr.neg inner).Defined lookup ↔ inner.Defined lookup :=
      ⟨fun h => ⟨h.fields, h.divisors⟩, fun h => ⟨h.fields, h.divisors⟩⟩
    simp only [Expr.value, bind_eq_ok, ih, hdefined, Expr.plain, pure, Except.pure, Except.ok.injEq]
    constructor
    · rintro ⟨_, ⟨h, rfl⟩, rfl⟩
      exact ⟨h, rfl⟩
    · rintro ⟨h, rfl⟩
      exact ⟨_, ⟨h, rfl⟩, rfl⟩
  | binary op left right ihl ihr =>
    simp only [Expr.value, bind_eq_ok, ihl, ihr, defined_binary, Op.apply_eq_ok, Expr.plain]
    constructor
    · rintro ⟨_, ⟨hleft, rfl⟩, _, ⟨hright, rfl⟩, hdivisor, rfl⟩
      exact ⟨⟨hleft, hright, hdivisor⟩, rfl⟩
    · rintro ⟨⟨hleft, hright, hdivisor⟩, rfl⟩
      exact ⟨_, ⟨hleft, rfl⟩, _, ⟨hright, rfl⟩, hdivisor, rfl⟩

theorem eval_eq_ok {e : Expr} {x : Float} : e.eval lookup = .ok x ↔
    e.Defined lookup ∧ isFinite x = true ∧ e.plain (known lookup) = x := by
  simp only [Expr.eval, bind_eq_ok, value_eq_ok]
  constructor
  · rintro ⟨y, ⟨hdefined, hplain⟩, hfinite⟩
    split at hfinite
    · next hy =>
      cases hfinite
      exact ⟨hdefined, hy, hplain⟩
    · cases hfinite
  · rintro ⟨hdefined, hfinite, hplain⟩
    exact ⟨x, ⟨hdefined, hplain⟩, if_pos hfinite⟩

end Lookup

/-- The references of a formula are the fields in it, each once and in the order of first use. Two
lookups that agree on them give the same result; and there is a value exactly where the lookup
knows all of them, no divisor is zero and the result is finite. -/
theorem references_and_results (e : Expr) :
    (e.references.Nodup ∧ FirstUses e.references e.uses) ∧
    (∀ lookup lookup' : String → Option Float,
      (∀ name ∈ e.references, lookup name = lookup' name) → e.eval lookup = e.eval lookup') ∧
    ∀ (lookup : String → Option Float) (x : Float), e.eval lookup = .ok x ↔
      (∀ name ∈ e.references, (lookup name).isSome) ∧
      (∀ divisor ∈ e.divisors, (divisor.plain (known lookup) == 0.0) = false) ∧
      isFinite x = true ∧ e.plain (known lookup) = x := by
  have hfirst := firstUses_references e
  refine ⟨⟨hfirst.nodup, hfirst⟩, fun lookup lookup' hagree => ?_, fun lookup x => ?_⟩
  · exact eval_congr fun name hmentions => hagree name (mem_references.mpr hmentions)
  · rw [eval_eq_ok]
    constructor
    · rintro ⟨hdefined, hfinite, hplain⟩
      exact ⟨fun name hname => hdefined.fields name ((hfirst.mem name).mp hname),
        hdefined.divisors, hfinite, hplain⟩
    · rintro ⟨hfields, hdivisors, hfinite, hplain⟩
      exact ⟨⟨fun name hname => hfields name ((hfirst.mem name).mpr hname), hdivisors⟩, hfinite,
        hplain⟩

theorem references_and_results_quotient :
    (Expr.binary .add (.binary .div (.field "b") (.field "a")) (.field "b")).eval
      (fun name => if name = "a" then some 2.0 else if name = "b" then some 3.0 else none) =
      .ok 4.5 :=
  ((references_and_results _).2.2 _ _).mpr
    ⟨by decide +kernel, by decide +kernel, by decide +kernel, by decide +kernel⟩

end DiceHost.Formula
