import DiceHost.Proofs.Context.Lookup
import DiceHost.Proofs.Store.Clients

/-! # What leaves games alone

What users do with cards and with keyed data changes neither the games of a store nor any other
view of it that its single operations on cards and data leave as it is, also where some of them are
refused.
-/
namespace DiceHost
variable {σ κ κ' α : Type}

theorem Spares.comp {view : σ → κ} {x : StateM σ α} (h : Spares view x) (f : κ → κ') :
    Spares (fun s => f (view s)) x := fun s => congrArg f (h s)

theorem Spares.attempt {view : σ → κ} {operation : Store.Operation} {x : Action σ α}
    (h : Spares view x) :
    Spares (fun s : Faulty σ => view s.inner) (Faulty.attempt operation x) := by
  intro s
  cases hrefusal : s.refusal s.calls operation with
  | some failure => rw [attempt_refused hrefusal]
  | none =>
    rw [attempt_granted hrefusal]
    exact h s.inner

variable [Store σ]

/-- Reads, and the operations on cards and keyed data, leave this view of a store alone. -/
structure Quiet (view : σ → κ) : Prop extends Steady view where
  cards (owner : Owner) : Spares view (Store.cards (σ := σ) owner)
  gameNamed? (platform name : String) : Spares view (Store.gameNamed? (σ := σ) platform name)
  createCard (new : NewCard) : Spares view (Store.createCard (σ := σ) new)
  setAttributes (owner : Owner) (name : String) (attributes : Fields) :
    Spares view (Store.setAttributes (σ := σ) owner name attributes)
  activate (owner : Owner) (name : String) : Spares view (Store.activate (σ := σ) owner name)
  removeCard (owner : Owner) (name : String) : Spares view (Store.removeCard (σ := σ) owner name)
  setBinding (binding : Binding) : Spares view (Store.setBinding (σ := σ) binding)
  removeBinding (owner : Owner) (group : String) :
    Spares view (Store.removeBinding (σ := σ) owner group)
  setValue (scope : DataScope) (id key : String) (value : Json) :
    Spares view (Store.setValue (σ := σ) scope id key value)

namespace Quiet
variable {view : σ → κ} (h : Quiet view)
include h

theorem comp (f : κ → κ') : Quiet (fun s => f (view s)) where
  card? owner name := (h.card? owner name).comp f
  activeCard? owner := (h.activeCard? owner).comp f
  binding? owner group := (h.binding? owner group).comp f
  gameAt? platform channel := (h.gameAt? platform channel).comp f
  value? scope id key := (h.value? scope id key).comp f
  values scope id := (h.values scope id).comp f
  cards owner := (h.cards owner).comp f
  gameNamed? platform name := (h.gameNamed? platform name).comp f
  createCard new := (h.createCard new).comp f
  setAttributes owner name attributes := (h.setAttributes owner name attributes).comp f
  activate owner name := (h.activate owner name).comp f
  removeCard owner name := (h.removeCard owner name).comp f
  setBinding binding := (h.setBinding binding).comp f
  removeBinding owner group := (h.removeBinding owner group).comp f
  setValue scope id key value := (h.setValue scope id key value).comp f

theorem faulty : Quiet (fun s : Faulty σ => view s.inner) where
  card? owner name := (h.card? owner name).attempt
  activeCard? owner := (h.activeCard? owner).attempt
  binding? owner group := (h.binding? owner group).attempt
  gameAt? platform channel := (h.gameAt? platform channel).attempt
  value? scope id key := (h.value? scope id key).attempt
  values scope id := (h.values scope id).attempt
  cards owner := (h.cards owner).attempt
  gameNamed? platform name := (h.gameNamed? platform name).attempt
  createCard new := (h.createCard new).attempt
  setAttributes owner name attributes := (h.setAttributes owner name attributes).attempt
  activate owner name := (h.activate owner name).attempt
  removeCard owner name := (h.removeCard owner name).attempt
  setBinding binding := (h.setBinding binding).attempt
  removeBinding owner group := (h.removeBinding owner group).attempt
  setValue scope id key value := (h.setValue scope id key value).attempt

/-! ## What users do with cards and data -/

theorem applyWrites (writes : List Write) : Spares view (applyWrites (σ := σ) writes) := by
  induction writes with
  | nil => exact spares_pure _
  | cons write rest ih =>
    refine Spares.bind (h.setValue _ _ _ _) (fun outcome => ?_)
    cases outcome with
    | ok _ => exact ih.bind (fun count => spares_pure _)
    | error failure => exact ih

theorem switch (owner : Owner) (name : String) :
    Spares view (Card.switch (σ := σ) owner name) := by
  refine (h.activate owner name).bindAction (fun found => ?_)
  cases found with
  | true => exact spares_pure _
  | false => exact spares_throw _

theorem target (owner : Owner) (name : Option String) :
    Spares view (Card.target (σ := σ) owner name) := by
  cases name with
  | some name =>
    refine (h.card? owner name).bindAction (fun found => ?_)
    cases found with
    | some card => exact spares_pure _
    | none => exact spares_throw _
  | none =>
    refine (h.activeCard? owner).bindAction (fun found => ?_)
    cases found with
    | some card => exact spares_pure _
    | none => exact spares_throw _

theorem create (owner : Owner) (name kind : String) (attributes : Fields) :
    Spares view (Card.create (σ := σ) owner name kind attributes) := by
  unfold Card.create
  split
  · exact spares_throw _
  · exact (h.cards owner).bindAction (fun others => h.createCard _)

theorem mergeAttributes (owner : Owner) (name : Option String) (attributes : Fields) :
    Spares view (Card.mergeAttributes (σ := σ) owner name attributes) := by
  refine (h.target owner name).bindAction (fun card => ?_)
  refine (h.setAttributes owner card.name _).bindAction (fun _ => ?_)
  exact spares_pure _

theorem bound? (owner : Owner) (group : String) :
    Spares view (Card.bound? (σ := σ) owner group) := by
  refine (h.binding? owner group).bindAction (fun found => ?_)
  cases found with
  | some binding => exact h.card? owner binding.card
  | none => exact spares_pure _

theorem bindIn (owner : Owner) (group : String) (name : Option String) :
    Spares view (Card.bindIn (σ := σ) owner group name) := by
  unfold Card.bindIn
  split
  · exact spares_throw _
  · refine (h.target owner name).bindAction (fun card => ?_)
    refine (h.setBinding _).bindAction (fun _ => ?_)
    have hcache : Spares view (card.writeCache (σ := σ) owner.user group) := by
      intro s
      have hvalue := h.setValue .group group (Card.cacheKey owner.user) card.cacheBlob s
      cases hx : (Store.setValue .group group (Card.cacheKey owner.user) card.cacheBlob :
          Action σ Unit) s with
      | mk outcome s' =>
        rw [hx] at hvalue
        rw [Card.writeCache, run_caught hx]
        exact hvalue
    exact hcache.bindAction (fun _ => spares_pure _)

end Quiet

/-! ## Requests for cards and data -/

/-- A request that has nothing to do with games. -/
def Request.isQuiet : Request → Bool
  | gameAt .. | gameNamed .. | createGame .. | updateGame .. | destroyGame .. => false
  | _ => true

theorem Request.counterAfter_of_quiet {request : Request} (h : request.isQuiet = true)
    (counter : UInt32) : request.counterAfter counter = counter := by
  cases request with
  | createGame => cases h
  | _ => rfl

/-- The answer gives no game, nothing is counted or closed, and the view is as it was. -/
structure Request.Passes (view : σ → κ) (counter : UInt32) (handles : List Game) (s : σ)
    (request : Request) : Prop where
  uncounted : (request.run counter handles s).1.1 = counter
  gives : (request.run counter handles s).1.2.handle? = none
  closes : request.closes handles = []
  spares : view (request.run counter handles s).2 = view s

section Requests
variable {view : σ → κ} {counter : UInt32} {handles : List Game} {s : σ}

theorem passes_of_spares {request : Request} {wrap : Except Failure α → Answer} {x : Action σ α}
    (hx : Spares view x) (hwrap : ∀ outcome, (wrap outcome).handle? = none)
    (hrun : request.run counter handles s = Request.answering counter wrap x s)
    (hcloses : request.closes handles = []) : request.Passes view counter handles s := by
  refine ⟨?_, ?_, hcloses, ?_⟩
  · rw [hrun]
    rfl
  · rw [hrun]
    exact hwrap _
  · rw [hrun]
    exact hx s

theorem Quiet.passes (h : Quiet view) {request : Request} (hquiet : request.isQuiet = true) :
    request.Passes view counter handles s := by
  cases request with
  | activeCard owner => exact passes_of_spares (h.activeCard? owner) (fun _ => rfl) rfl rfl
  | card owner name => exact passes_of_spares (h.card? owner name) (fun _ => rfl) rfl rfl
  | cards owner => exact passes_of_spares (h.cards owner) (fun _ => rfl) rfl rfl
  | createCard owner name kind attributes =>
    exact passes_of_spares (h.create owner name kind attributes) (fun _ => rfl) rfl rfl
  | mergeAttributes owner name attributes =>
    exact passes_of_spares (h.mergeAttributes owner name attributes) (fun _ => rfl) rfl rfl
  | switchCard owner name => exact passes_of_spares (h.switch owner name) (fun _ => rfl) rfl rfl
  | deleteCard owner name => exact passes_of_spares (h.removeCard owner name) (fun _ => rfl) rfl rfl
  | boundCard owner group => exact passes_of_spares (h.bound? owner group) (fun _ => rfl) rfl rfl
  | resolveCard owner group =>
    exact passes_of_spares (spares_resolve? h.toSteady owner group) (fun _ => rfl) rfl rfl
  | bindCard owner group name =>
    exact passes_of_spares (h.bindIn owner group name) (fun _ => rfl) rfl rfl
  | unbindCard owner group =>
    exact passes_of_spares (h.removeBinding owner group) (fun _ => rfl) rfl rfl
  | binding owner group => exact passes_of_spares (h.binding? owner group) (fun _ => rfl) rfl rfl
  | gameAt platform channel => cases hquiet
  | gameNamed platform name => cases hquiet
  | createGame platform channel name => cases hquiet
  | updateGame handle change => cases hquiet
  | destroyGame handle => cases hquiet
  | flush storage =>
    have hflush : Spares view (storage.flush : StateM σ _) :=
      (h.applyWrites storage.pending).bind (fun _ => spares_pure _)
    exact ⟨rfl, rfl, rfl, hflush s⟩
  | value scope id key => exact passes_of_spares (h.value? scope id key) (fun _ => rfl) rfl rfl
  | values scope id => exact passes_of_spares (h.values scope id) (fun _ => rfl) rfl rfl

end Requests

/-! ## Games -/

/-- The last number of a game, and the games. -/
def Memory.gameView (m : Memory) : Nat × List Game := (m.lastGame, m.games)

theorem quiet_memory : Quiet Memory.gameView where
  toSteady := ⟨fun _ _ _ => rfl, fun _ _ => rfl, fun _ _ _ => rfl, fun _ _ _ => rfl,
    fun _ _ _ _ => rfl, fun _ _ _ => rfl⟩
  cards owner := fun _ => rfl
  gameNamed? platform name := fun _ => rfl
  createCard new := by
    intro m
    have hrun : (Memory.createCard new m).2.gameView = m.gameView := by
      unfold Memory.createCard
      rw [run_get]
      split <;> rfl
    exact hrun
  setAttributes owner name attributes := fun _ => rfl
  activate owner name := by
    intro m
    have hrun : (m.activate owner name).2.gameView = m.gameView := by
      unfold Memory.activate
      split <;> rfl
    exact hrun
  removeCard owner name := fun _ => rfl
  setBinding binding := fun _ => rfl
  removeBinding owner group := fun _ => rfl
  setValue scope id key value := by
    intro m
    cases scope <;> rfl

section Tables
variable {γ : Type} [Column γ]

omit [Column γ] in
/-- The last number of a game, and the rows of games. -/
def Database.gameView (d : Database γ) : Nat × List (GameRow γ) := (d.lastGame, d.games)

theorem quiet_tables : Quiet (Database.gameView (γ := γ)) where
  toSteady := ⟨fun owner name => (steady_self.card? owner name).of_same,
    fun owner => (steady_self.activeCard? owner).of_same,
    fun owner group => (steady_self.binding? owner group).of_same,
    fun platform channel => (steady_self.gameAt? platform channel).of_same,
    fun scope id key => (steady_self.value? scope id key).of_same,
    fun scope id => (steady_self.values scope id).of_same⟩
  cards owner := by
    intro d
    rw [(CardStore.cards d owner).same (fun _ _ h => h.1)]
  gameNamed? platform name := by
    intro d
    have hrun : (Store.gameNamed? platform name : Action (Database γ) _) d = (_, d) :=
      run_readingOrFail _ d
    rw [hrun]
  createCard new := by
    intro d
    have hrun : (Database.createCard new d).2.gameView = d.gameView := by
      unfold Database.createCard
      rw [run_get]
      cases d.card? new.owner new.name with
      | error failure => rfl
      | ok found =>
        rw [run_liftM_ok]
        cases found <;> rfl
    exact hrun
  setAttributes owner name attributes := fun _ => rfl
  activate owner name := by
    intro d
    have hrun : (d.activate owner name).2.gameView = d.gameView := by
      unfold Database.activate
      split <;> rfl
    exact hrun
  removeCard owner name := fun _ => rfl
  setBinding binding := fun _ => rfl
  removeBinding owner group := fun _ => rfl
  setValue scope id key value := by
    intro d
    have hrun : (d.putColumn scope id key (Column.encode value)).gameView = d.gameView := by
      unfold Database.putColumn
      split <;> rfl
    exact hrun

end Tables
end DiceHost
