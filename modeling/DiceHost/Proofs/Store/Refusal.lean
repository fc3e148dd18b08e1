import DiceHost.Proofs.Store.Operations
import DiceHost.Store.Faulty

/-! # Operations that fail without effect

An operation of a store either succeeds or leaves the store as it was, whether it fails by itself
or is refused. An action made of several operations keeps this as long as none of them changes
the store before another one can fail.
-/
namespace DiceHost
variable {σ α β : Type}

/-- The action has this outcome, or it fails and the state is as it was. -/
def Atomic (x : Action σ α) (s : σ) (Q : α → σ → Prop) : Prop :=
  match x s with
  | (.ok value, s') => Q value s'
  | (.error _, s') => s' = s

/-- Under refusals the action has this outcome, or it fails and leaves this store behind. -/
def Settles (left : σ) (x : Action (Faulty σ) α) (s : Faulty σ) (Q : α → σ → Prop) : Prop :=
  match x s with
  | (.ok value, s') => Q value s'.inner
  | (.error _, s') => s'.inner = left

theorem run_caught {x : Action σ Unit} {s s' : σ} {outcome : Except Failure Unit}
    (h : x s = (outcome, s')) :
    (tryCatch x (fun _ => pure ()) : Action σ Unit) s = (.ok (), s') := by
  simp only [tryCatch, tryCatchThe, MonadExceptOf.tryCatch, ExceptT.tryCatch, ExceptT.mk]
  rw [run_bind (x := (x : StateM σ (Except Failure Unit))) h]
  cases outcome <;> rfl

/-! ## Single operations -/

section Atomic
variable {s : σ} {Q R : α → σ → Prop}

theorem atomic_reading {f : σ → α} (h : Q (f s) s) : Atomic (Store.reading f) s Q := h

theorem atomic_readingOrFail {f : σ → Except Failure α} (h : ∀ value, f s = .ok value → Q value s) :
    Atomic (Store.readingOrFail f) s Q := by
  unfold Atomic
  rw [run_readingOrFail]
  cases hf : f s with
  | ok value => exact h value hf
  | error failure => rfl

theorem atomic_changing {f : σ → α × σ} (h : Q (f s).1 (f s).2) :
    Atomic (Store.changing f) s Q := h

theorem atomic_modify {f : σ → σ} {Q : Unit → σ → Prop} (h : Q () (f s)) :
    Atomic (modify f : Action σ Unit) s Q := h

theorem Atomic.mono {x : Action σ α} (h : Atomic x s Q)
    (himp : ∀ value s', Q value s' → R value s') : Atomic x s R := by
  unfold Atomic at h ⊢
  split
  · next value s' heq =>
    rw [heq] at h
    exact himp value s' h
  · next failure s' heq =>
    rw [heq] at h
    exact h

theorem Atomic.of_ok {x : Action σ α} (h : Atomic x s Q) {value : α} (hx : (x s).1 = .ok value) :
    Q value (x s).2 := by
  unfold Atomic at h
  split at h
  · next found s' heq =>
    rw [heq] at hx ⊢
    cases hx
    exact h
  · next failure s' heq =>
    rw [heq] at hx
    cases hx

/-- An action that reads before it goes on. -/
theorem Atomic.bind_read {x : Action σ α} {f : α → Action σ β} {R : α → Prop}
    {Q : β → σ → Prop} (h : Atomic x s (fun value s' => s' = s ∧ R value))
    (hnext : ∀ value, R value → Atomic (f value) s Q) : Atomic (x >>= f) s Q := by
  unfold Atomic at h
  cases hx : x s with
  | mk outcome s' =>
    rw [hx] at h
    cases outcome with
    | ok value =>
      obtain ⟨rfl, hvalue⟩ := h
      unfold Atomic at hnext ⊢
      rw [run_bind_ok hx]
      exact hnext value hvalue
    | error failure =>
      unfold Atomic
      rw [run_bind_error hx]
      exact h

end Atomic

/-! ## Actions under refusals -/

section Attempt
variable {operation : Store.Operation} {x : Action σ α} {s : Faulty σ}

theorem attempt_refused {failure : Failure} (h : s.refusal s.calls operation = some failure) :
    Faulty.attempt operation x s = (.error failure, { s with calls := s.calls + 1 }) := by
  rw [Faulty.attempt, h]

theorem attempt_granted (h : s.refusal s.calls operation = none) :
    Faulty.attempt operation x s =
      ((x s.inner).1, { s with inner := (x s.inner).2, calls := s.calls + 1 }) := by
  rw [Faulty.attempt, h]
  rfl

end Attempt

section Settles
variable {left : σ} {s : Faulty σ} {Q R : α → σ → Prop}

theorem settles_attempt {operation : Store.Operation} {x : Action σ α} (hleft : s.inner = left)
    (h : Atomic x left Q) : Settles left (Faulty.attempt operation x) s Q := by
  rw [← hleft] at h
  unfold Settles
  cases hrefusal : s.refusal s.calls operation with
  | some failure =>
    rw [attempt_refused hrefusal]
    exact hleft
  | none =>
    rw [attempt_granted hrefusal]
    unfold Atomic at h
    cases hx : x s.inner with
    | mk outcome inner =>
      rw [hx] at h
      cases outcome with
      | ok value => exact h
      | error failure => exact h.trans hleft

theorem settles_pure {value : α} (h : Q value s.inner) : Settles left (pure value) s Q := h

theorem settles_throw {failure : Failure} (h : s.inner = left) :
    Settles left (throw failure) s Q := h

theorem Settles.bind {x : Action (Faulty σ) α} {f : α → Action (Faulty σ) β}
    {Q : β → σ → Prop} (h : Settles left x s R)
    (hnext : ∀ value s', R value s'.inner → Settles left (f value) s' Q) :
    Settles left (x >>= f) s Q := by
  unfold Settles at h ⊢
  cases hx : x s with
  | mk outcome s' =>
    rw [hx] at h
    cases outcome with
    | ok value =>
      rw [run_bind_ok hx]
      exact hnext value s' h
    | error failure =>
      rw [run_bind_error hx]
      exact h

theorem Settles.mono {x : Action (Faulty σ) α} (h : Settles left x s Q)
    (himp : ∀ value inner, Q value inner → R value inner) : Settles left x s R := by
  unfold Settles at h ⊢
  split
  · next value s' heq =>
    rw [heq] at h
    exact himp value s'.inner h
  · next failure s' heq =>
    rw [heq] at h
    exact h

/-- An action whose failures are caught leaves nothing behind but its outcome. -/
theorem Settles.caught {x : Action (Faulty σ) Unit} {Q : Unit → σ → Prop} {other : σ}
    (h : Settles left x s Q) (hleft : Q () left) :
    Settles other (tryCatch x (fun _ => pure ())) s Q := by
  unfold Settles at h ⊢
  cases hx : x s with
  | mk outcome s' =>
    rw [hx] at h
    rw [run_caught hx]
    cases outcome with
    | ok value => exact h
    | error failure =>
      rw [← h] at hleft
      exact hleft

end Settles
end DiceHost
