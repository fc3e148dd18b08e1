import DiceHost.Context.Build
import DiceHost.Proofs.Store.CardLaws

/-! # Looking up a context

A context is made of reads alone, so the store is the same after it, also a store that refuses
some of the reads. What a script is shown of the keyed data is what the store gave for the group
and for the user.
-/
namespace DiceHost
variable {σ κ α β : Type}

/-- The computation leaves this view of the state as it was. -/
def Spares (view : σ → κ) (x : StateM σ α) : Prop := ∀ s, view (x s).2 = view s

section Spares
variable {view : σ → κ}

theorem spares_pure (value : α) : Spares view (pure value : StateM σ α) := fun _ => rfl

theorem spares_throw (failure : Failure) :
    Spares view (throw failure : Action σ α) := fun _ => rfl

theorem Spares.of_same {x : StateM σ α} (h : Spares (fun s => s) x) : Spares view x :=
  fun s => congrArg view (h s)

theorem Spares.bind {x : StateM σ α} {f : α → StateM σ β} (h : Spares view x)
    (hnext : ∀ value, Spares view (f value)) : Spares view (x >>= f) := by
  intro s
  have hrun : (x >>= f) s = f (x s).1 (x s).2 := rfl
  rw [hrun, hnext, h]

theorem Spares.bindAction {x : Action σ α} {f : α → Action σ β} (h : Spares view x)
    (hnext : ∀ value, Spares view (f value)) : Spares view (x >>= f : Action σ β) := by
  intro s
  have hx := h s
  cases hrun : x s with
  | mk outcome s' =>
    rw [hrun] at hx
    cases outcome with
    | ok value =>
      rw [run_bind_ok hrun, hnext]
      exact hx
    | error failure =>
      rw [run_bind_error hrun]
      exact hx

end Spares

/-- The reads of a store leave this view of it alone. -/
structure Steady [Store σ] (view : σ → κ) : Prop where
  card? (owner : Owner) (name : String) : Spares view (Store.card? (σ := σ) owner name)
  activeCard? (owner : Owner) : Spares view (Store.activeCard? (σ := σ) owner)
  binding? (owner : Owner) (group : String) : Spares view (Store.binding? (σ := σ) owner group)
  gameAt? (platform channel : String) : Spares view (Store.gameAt? (σ := σ) platform channel)
  value? (scope : DataScope) (id key : String) : Spares view (Store.value? (σ := σ) scope id key)
  values (scope : DataScope) (id : String) : Spares view (Store.values (σ := σ) scope id)

theorem Atomic.same {x : Action σ α} {s : σ} {Q : α → σ → Prop} (h : Atomic x s Q)
    (hQ : ∀ value s', Q value s' → s' = s) : (x s).2 = s := by
  unfold Atomic at h
  split at h
  · next value s' heq =>
    rw [heq]
    exact hQ value s' h
  · next failure s' heq =>
    rw [heq]
    exact h

theorem Atomic.view_eq {view : σ → κ} {x : Action σ α} {s : σ}
    (h : Atomic x s (fun _ s' => view s' = view s)) : view (x s).2 = view s := by
  unfold Atomic at h
  split at h
  · next value s' heq =>
    rw [heq]
    exact h
  · next failure s' heq =>
    rw [heq, h]

/-- The store inside, and the schedule of refusals. -/
def Faulty.setting (s : Faulty σ) : σ × (Nat → Store.Operation → Option Failure) :=
  (s.inner, s.refusal)

theorem spares_attempt {operation : Store.Operation} {x : Action σ α}
    (h : Spares (fun s => s) x) : Spares Faulty.setting (Faulty.attempt operation x) := by
  intro s
  cases hrefusal : s.refusal s.calls operation with
  | some failure =>
    rw [attempt_refused hrefusal]
    rfl
  | none =>
    rw [attempt_granted hrefusal]
    exact congrArg (fun inner => (inner, s.refusal)) (h s.inner)

section Reads
variable [Store σ] [CardStore σ]

theorem steady_self : Steady (fun s : σ => s) where
  card? owner name s := (CardStore.card? s owner name).same (fun _ _ h => h.1)
  activeCard? owner s := (CardStore.activeCard? s owner).same (fun _ _ h => h.1)
  binding? owner group s := (CardStore.binding? s owner group).same (fun _ _ h => h)
  gameAt? platform channel s := (CardStore.gameAt? s platform channel).same (fun _ _ h => h)
  value? scope id key s := (CardStore.value? s scope id key).same (fun _ _ h => h)
  values scope id s := (CardStore.values s scope id).same (fun _ _ h => h)

theorem steady_setting : Steady (Faulty.setting (σ := σ)) where
  card? owner name := spares_attempt (steady_self.card? owner name)
  activeCard? owner := spares_attempt (steady_self.activeCard? owner)
  binding? owner group := spares_attempt (steady_self.binding? owner group)
  gameAt? platform channel := spares_attempt (steady_self.gameAt? platform channel)
  value? scope id key := spares_attempt (steady_self.value? scope id key)
  values scope id := spares_attempt (steady_self.values scope id)

end Reads

/-! ## Contexts -/

theorem orElse_run [Store σ] (other : α) (action : Action σ α) (s : σ) :
    Context.orElse other action s = ((action s).1.toOption.getD other, (action s).2) := by
  cases hrun : action s with
  | mk outcome s' =>
    refine (run_bind hrun).trans ?_
    cases outcome <;> rfl

section Build
variable [Store σ] {view : σ → κ} (h : Steady view)
include h

theorem spares_resolve? (owner : Owner) (group : String) :
    Spares view (Card.resolve? (σ := σ) owner group) := by
  refine Spares.bindAction (Spares.bindAction (h.binding? owner group) ?_) ?_
  · intro found
    cases found with
    | none => exact spares_pure _
    | some binding => exact h.card? owner binding.card
  · intro found
    cases found with
    | some card => exact spares_pure _
    | none => exact h.activeCard? owner

omit [Store σ] h in
theorem Spares.orElse {action : Action σ α} (haction : Spares view action) (other : α) :
    Spares view (Context.orElse other action) := by
  refine Spares.bind haction (fun outcome => ?_)
  cases outcome <;> exact spares_pure _

theorem spares_teammate? (owner : Owner) (group : String) (groupData : Fields) :
    Spares view (Context.teammate? (σ := σ) owner group groupData) := by
  refine Spares.bind (spares_resolve? h owner group) (fun outcome => ?_)
  cases outcome <;> exact spares_pure _

theorem spares_playerCards (platform group : String) (groupData : Fields) (players : List String)
    (found : KeyTable Fields) :
    Spares view (Context.playerCards (σ := σ) platform group groupData players found) := by
  induction players generalizing found with
  | nil => exact spares_pure _
  | cons player rest ih =>
    refine Spares.bind (spares_teammate? h _ group groupData) (fun card => ?_)
    cases card with
    | some card => exact ih _
    | none => exact ih _

variable (rules : Manuals) (aliases : AliasTable) (identity : Identity) (tail : String)

theorem spares_build : Spares view (Context.build (σ := σ) rules aliases identity tail) := by
  refine Spares.bind ((spares_resolve? h _ _).orElse none) (fun character => ?_)
  refine Spares.bind ((h.values .group _).orElse []) (fun groupData => ?_)
  refine Spares.bind ((h.values .user _).orElse []) (fun userData => ?_)
  refine Spares.bind ((h.gameAt? _ _).orElse none) (fun game => ?_)
  refine Spares.bind (spares_playerCards h _ _ _ _ _) (fun teammates => ?_)
  exact spares_pure _

/-- The views of a context are the data of the group and of the user, as the store gave them; data
that could not be read is empty. -/
theorem exists_views (s : σ) : ∃ s₁ s₂, view s₁ = view s ∧ view s₂ = view s ∧
    let context := (Context.build rules aliases identity tail s).1
    let groupData := (Context.orElse [] (Store.values .group identity.dataGroup) s₁).1
    let userData := (Context.orElse [] (Store.values .user identity.user) s₂).1
    context.storage = (Storage.provide {} .group identity.dataGroup groupData).provide .user
      identity.user userData ∧
    context.cardText =
      (KeyTable.find? groupData (Card.textKey identity.user)).bind Json.plainText? ∧
    context.user = identity.user ∧ context.group = identity.dataGroup := by
  let s₁ := (Context.orElse none
    (Card.resolve? ⟨identity.user, identity.platform⟩ identity.bindingGroup) s).2
  let s₂ := (Context.orElse [] (Store.values .group identity.dataGroup) s₁).2
  have h₁ : view s₁ = view s := (spares_resolve? h _ _).orElse none s
  have h₂ : view s₂ = view s := ((h.values .group _).orElse [] s₁).trans h₁
  exact ⟨s₁, s₂, h₁, h₂, rfl, rfl, rfl, rfl⟩

end Build
end DiceHost
