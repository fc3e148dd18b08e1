import DiceHost.Proofs.Context.Lookup
import DiceHost.Proofs.KeyTable
import DiceHost.Proofs.Store.Cells

/-! # The cards of the players

The players of a game are looked up one after another, each with reads of its own. What a player is
given depends on the answers to these reads, and on the cached card of this player where one of
them failed; it does not depend on what was read for anyone else.
-/
namespace DiceHost
variable {σ κ α : Type}

/-! ## Answers to reads -/

namespace Faulty

/-- The answer to a read that comes after so many operations. -/
def readAt (s : Faulty σ) (calls : Nat) (operation : Store.Operation) (action : Action σ α) :
    Except Failure α :=
  match s.refusal calls operation with
  | some failure => .error failure
  | none => (action s.inner).1

/-- The store after so many operations that left it as it was. -/
def later (s : Faulty σ) (calls : Nat) : Faulty σ := { s with calls := calls }

variable [Store σ]

/-- What the reads for a card come to, of which the first one comes after so many operations: the
card that is bound in the group, or else the active one. The number is that of the operations after
them. -/
def resolution (s : Faulty σ) (owner : Owner) (group : String) (calls : Nat) :
    Except Failure (Option Card) × Nat :=
  match s.readAt calls .binding (Store.binding? owner group) with
  | .error failure => (.error failure, calls + 1)
  | .ok none => (s.readAt (calls + 1) .activeCard (Store.activeCard? owner), calls + 2)
  | .ok (some binding) =>
    match s.readAt (calls + 1) .card (Store.card? owner binding.card) with
    | .error failure => (.error failure, calls + 2)
    | .ok (some card) => (.ok (some card), calls + 2)
    | .ok none => (s.readAt (calls + 2) .activeCard (Store.activeCard? owner), calls + 3)

/-- The number of operations before the turn of a player, if the player is in the roster. -/
def turn? (s : Faulty σ) (platform group user : String) : List String → Nat → Option Nat
  | [], _ => none
  | player :: rest, calls =>
    if player = user then some calls
    else s.turn? platform group user rest (s.resolution ⟨player, platform⟩ group calls).2

end Faulty

/-- The entry of a player by the outcome of the reads for it. -/
def Context.entry (groupData : Fields) (user : String) :
    Except Failure (Option Card) → Option Fields
  | .ok card => card.map Card.snapshot
  | .error _ => (KeyTable.find? groupData (Card.cacheKey user)).bind
      (fun blob => (Card.decodeCached (Card.cacheKey user) blob).toOption)

theorem attempt_eq_readAt {operation : Store.Operation} {action : Action σ α}
    (h : Spares (fun s => s) action) (s : Faulty σ) :
    Faulty.attempt operation action s =
      (s.readAt s.calls operation action, s.later (s.calls + 1)) := by
  have hinner : (action s.inner).2 = s.inner := h s.inner
  unfold Faulty.readAt
  cases hrefusal : s.refusal s.calls operation with
  | some failure => exact attempt_refused hrefusal
  | none =>
    rw [attempt_granted hrefusal, hinner]
    rfl

section Turns
variable [Store σ] {s : Faulty σ} {platform group user : String} {players : List String}

theorem turn?_eq_none_iff {calls : Nat} :
    s.turn? platform group user players calls = none ↔ user ∉ players := by
  induction players generalizing calls with
  | nil => simp [Faulty.turn?]
  | cons player rest ih =>
    rw [Faulty.turn?, List.mem_cons, not_or]
    by_cases huser : player = user
    · simp [huser]
    · rw [if_neg huser, ih]
      exact (and_iff_right (Ne.symm huser)).symm

end Turns

theorem resolution_later [Store σ] (s : Faulty σ) (calls : Nat) :
    (s.later calls).resolution = s.resolution := rfl

theorem turn?_later [Store σ] (s : Faulty σ) (later : Nat) (platform group user : String)
    (players : List String) (calls : Nat) :
    (s.later later).turn? platform group user players calls =
      s.turn? platform group user players calls := by
  induction players generalizing calls with
  | nil => rfl
  | cons player rest ih =>
    rw [Faulty.turn?, Faulty.turn?, ih]
    rfl

section Reads
variable [Store σ] [CardStore σ]

theorem bound?_run (s : Faulty σ) (owner : Owner) (group : String) :
    (Card.bound? owner group : Action (Faulty σ) (Option Card)) s =
      match s.readAt s.calls .binding (Store.binding? owner group) with
      | .error failure => (.error failure, s.later (s.calls + 1))
      | .ok none => (.ok none, s.later (s.calls + 1))
      | .ok (some binding) =>
        (s.readAt (s.calls + 1) .card (Store.card? owner binding.card), s.later (s.calls + 2)) := by
  have hbinding : (Store.binding? owner group : Action (Faulty σ) (Option Binding)) s = _ :=
    attempt_eq_readAt (steady_self.binding? owner group) s
  unfold Card.bound?
  cases hread : s.readAt s.calls .binding (Store.binding? owner group) with
  | error failure =>
    rw [hread] at hbinding
    exact run_bind_error hbinding
  | ok found =>
    rw [hread] at hbinding
    rw [run_bind_ok hbinding]
    cases found with
    | none => rfl
    | some binding => exact attempt_eq_readAt (steady_self.card? owner binding.card) _

theorem resolve?_run (s : Faulty σ) (owner : Owner) (group : String) :
    (Card.resolve? owner group : Action (Faulty σ) (Option Card)) s =
      ((s.resolution owner group s.calls).1, s.later (s.resolution owner group s.calls).2) := by
  have hactive (calls : Nat) :
      (Store.activeCard? owner : Action (Faulty σ) (Option Card)) (s.later calls) =
        (s.readAt calls .activeCard (Store.activeCard? owner), s.later (calls + 1)) :=
    attempt_eq_readAt (steady_self.activeCard? owner) (s.later calls)
  have hbound := bound?_run s owner group
  unfold Card.resolve? Faulty.resolution
  cases hbinding : s.readAt s.calls .binding (Store.binding? owner group) with
  | error failure =>
    rw [hbinding] at hbound
    exact run_bind_error hbound
  | ok found =>
    rw [hbinding] at hbound
    cases found with
    | none => exact (run_bind_ok hbound).trans (hactive _)
    | some binding =>
      cases hcard : s.readAt (s.calls + 1) .card (Store.card? owner binding.card) with
      | error failure =>
        dsimp only at hbound ⊢
        rw [hcard] at hbound ⊢
        exact run_bind_error hbound
      | ok card =>
        dsimp only at hbound ⊢
        rw [hcard] at hbound ⊢
        cases card with
        | some card => exact run_bind_ok hbound
        | none => exact (run_bind_ok hbound).trans (hactive _)

theorem teammate?_run (s : Faulty σ) (platform group user : String) (groupData : Fields) :
    (Context.teammate? ⟨user, platform⟩ group groupData : StateM (Faulty σ) (Option Fields)) s =
      (Context.entry groupData user (s.resolution ⟨user, platform⟩ group s.calls).1,
        s.later (s.resolution ⟨user, platform⟩ group s.calls).2) := by
  refine (run_bind (resolve?_run s ⟨user, platform⟩ group)).trans ?_
  cases (s.resolution ⟨user, platform⟩ group s.calls).1 <;> rfl

/-- The entries with that of one more player. -/
def Context.enter (found : KeyTable Fields) (player : String) : Option Fields → KeyTable Fields
  | none => found
  | some card => KeyTable.insert player card found

theorem playerCards_cons (s : Faulty σ) (platform group player : String) (groupData : Fields)
    (rest : List String) (found : KeyTable Fields) :
    Context.playerCards platform group groupData (player :: rest) found s =
      Context.playerCards platform group groupData rest
        (Context.enter found player (Context.entry groupData player
          (s.resolution ⟨player, platform⟩ group s.calls).1))
        (s.later (s.resolution ⟨player, platform⟩ group s.calls).2) := by
  refine (run_bind (teammate?_run s platform group player groupData)).trans ?_
  cases Context.entry groupData player (s.resolution ⟨player, platform⟩ group s.calls).1 <;> rfl

/-- Every player of the roster is looked up in turn, and has the entry of its own reads. -/
theorem find?_playerCards (s : Faulty σ) (platform group : String) (groupData : Fields)
    {players : List String} (hplayers : players.Nodup) (found : KeyTable Fields) (user : String) :
    KeyTable.find? (Context.playerCards platform group groupData players found s).1 user =
      ((s.turn? platform group user players s.calls).bind (fun calls =>
        Context.entry groupData user (s.resolution ⟨user, platform⟩ group calls).1)).or
          (KeyTable.find? found user) := by
  induction players generalizing s found with
  | nil => rfl
  | cons player rest ih =>
    obtain ⟨hfresh, hrest⟩ := List.nodup_cons.mp hplayers
    rw [playerCards_cons, ih _ hrest, Faulty.turn?, turn?_later, resolution_later]
    by_cases huser : player = user
    · subst huser
      rw [if_pos rfl, turn?_eq_none_iff.mpr hfresh, Option.bind_none, Option.none_or,
        Option.bind_some]
      cases Context.entry groupData player (s.resolution ⟨player, platform⟩ group s.calls).1 with
      | none => rfl
      | some card => exact KeyTable.find?_insert_self player card found
    · have hfound (entry : Option Fields) :
          KeyTable.find? (Context.enter found player entry) user = KeyTable.find? found user := by
        cases entry with
        | none => rfl
        | some card => exact KeyTable.find?_insert_of_ne (Ne.symm huser) card found
      rw [if_neg huser, hfound]
      rfl

theorem ordered_playerCards (s : Faulty σ) (platform group : String) (groupData : Fields)
    (players : List String) {found : KeyTable Fields} (hfound : KeyTable.Ordered found) :
    KeyTable.Ordered (Context.playerCards platform group groupData players found s).1 := by
  induction players generalizing s found with
  | nil => exact hfound
  | cons player rest ih =>
    rw [playerCards_cons]
    refine ih _ ?_
    cases Context.entry groupData player (s.resolution ⟨player, platform⟩ group s.calls).1 with
    | none => exact hfound
    | some card => exact hfound.insert player card

end Reads

/-! ## Rosters -/

/-- What is known when the players are about to be looked up: the data of the group, the players of
its game, and the number of operations by then. -/
structure Roster where
  groupData : Fields
  players : List String
  calls : Nat

namespace Faulty
variable [Store σ]

/-- The roster of the game that covers the data group. -/
def roster (s : Faulty σ) (identity : Identity) : Roster :=
  let calls := (s.resolution ⟨identity.user, identity.platform⟩ identity.bindingGroup s.calls).2
  let groupData := s.readAt calls (.values .group) (Store.values .group identity.dataGroup)
  let game := s.readAt (calls + 2) .gameAt
    (Store.gameAt? identity.platform identity.dataGroup)
  { groupData := groupData.toOption.getD []
    players := ((game.toOption.getD none).map Game.players).getD []
    calls := calls + 3 }

/-- The card of the user who calls. -/
def cardOf (s : Faulty σ) (identity : Identity) : Option Card :=
  (s.resolution ⟨identity.user, identity.platform⟩ identity.bindingGroup s.calls).1.toOption.getD
    none

/-- The game that covers the data group, read after the card and the keyed data. -/
def gameOf (s : Faulty σ) (identity : Identity) : Option Game :=
  let calls := (s.resolution ⟨identity.user, identity.platform⟩ identity.bindingGroup s.calls).2
  (s.readAt (calls + 2) .gameAt
    (Store.gameAt? identity.platform identity.dataGroup)).toOption.getD none

/-- The number of operations before the turn of a user, if the user is one of the players. -/
def turnOf (s : Faulty σ) (identity : Identity) (user : String) : Option Nat :=
  s.turn? identity.platform identity.bindingGroup user (s.roster identity).players
    (s.roster identity).calls

/-- The outcome of the reads for the card of a user. -/
def outcomeOf (s : Faulty σ) (identity : Identity) (user : String) (calls : Nat) :
    Except Failure (Option Card) :=
  (s.resolution ⟨user, identity.platform⟩ identity.bindingGroup calls).1

/-- No game that is found lists a user twice. -/
def RostersDistinct (s : Faulty σ) : Prop :=
  ∀ platform channel game, (Store.gameAt? platform channel s.inner).1 = .ok (some game) →
    game.players.Nodup

end Faulty

theorem rostersDistinct_memory {s : Faulty Memory}
    (h : ∀ game ∈ s.inner.games, game.players.Nodup) : s.RostersDistinct := by
  intro platform channel game hgame
  have hfound : s.inner.gameAt? platform channel = some game := Except.ok.inj hgame
  exact h game (List.mem_of_find?_eq_some hfound)

section Build
variable [Store σ] [CardStore σ]

omit [CardStore σ] in
theorem nodup_roster {s : Faulty σ} (h : s.RostersDistinct) (identity : Identity) :
    (s.roster identity).players.Nodup := by
  unfold Faulty.roster
  generalize (s.resolution ⟨identity.user, identity.platform⟩ identity.bindingGroup s.calls).2 =
    calls
  dsimp only [Faulty.readAt]
  split
  · exact List.nodup_nil
  · cases hgame : (Store.gameAt? identity.platform identity.dataGroup s.inner).1 with
    | error failure => exact List.nodup_nil
    | ok found =>
      cases found with
      | none => exact List.nodup_nil
      | some game => exact h _ _ game hgame

variable (rules : Manuals) (aliases : AliasTable) (identity : Identity) (tail : String)

/-- The card, the game and the cards of the players that a context shows. -/
theorem parts_build (s : Faulty σ) :
    let context := (Context.build rules aliases identity tail s).1
    context.character = (s.cardOf identity).map Card.snapshot ∧
      context.game = (s.gameOf identity).map Game.view ∧
      context.teammates = (Context.playerCards identity.platform identity.bindingGroup
        (s.roster identity).groupData (s.roster identity).players []
        (s.later (s.roster identity).calls)).1 := by
  have hread {α : Type} (other : α) {operation : Store.Operation} {action : Action σ α}
      (hspares : Spares (fun s => s) action) (calls : Nat) :
      Context.orElse other (Faulty.attempt operation action) (s.later calls) =
        ((s.readAt calls operation action).toOption.getD other, s.later (calls + 1)) := by
    rw [orElse_run, attempt_eq_readAt hspares]
    rfl
  have hcharacter := orElse_run none
    (Card.resolve? ⟨identity.user, identity.platform⟩ identity.bindingGroup) s
  rw [resolve?_run] at hcharacter
  have hvalues (scope : DataScope) (id : String) (calls : Nat) :
      Context.orElse [] (Store.values scope id) (s.later calls) =
        ((s.readAt calls (.values scope) (Store.values scope id)).toOption.getD [],
          s.later (calls + 1)) := hread [] (steady_self.values scope id) calls
  have hgame (calls : Nat) :
      Context.orElse none (Store.gameAt? identity.platform identity.dataGroup) (s.later calls) =
        ((s.readAt calls .gameAt (Store.gameAt? identity.platform identity.dataGroup)).toOption.getD
          none, s.later (calls + 1)) := hread none (steady_self.gameAt? _ _) calls
  unfold Context.build
  dsimp only
  rw [run_bind hcharacter, run_bind (hvalues .group _ _), run_bind (hvalues .user _ _),
    run_bind (hgame _)]
  exact ⟨rfl, rfl, rfl⟩

theorem teammates_build (s : Faulty σ) :
    (Context.build rules aliases identity tail s).1.teammates =
      (Context.playerCards identity.platform identity.bindingGroup (s.roster identity).groupData
        (s.roster identity).players [] (s.later (s.roster identity).calls)).1 :=
  (parts_build rules aliases identity tail s).2.2

theorem find?_teammates {s : Faulty σ} (h : s.RostersDistinct) (user : String) :
    KeyTable.find? (Context.build rules aliases identity tail s).1.teammates user =
      (s.turnOf identity user).bind (fun calls =>
        Context.entry (s.roster identity).groupData user (s.outcomeOf identity user calls)) := by
  rw [teammates_build, find?_playerCards _ _ _ _ (nodup_roster h identity), turn?_later,
    KeyTable.find?_nil, Option.or_none]
  rfl

end Build

/-! ## Players apart -/

/-- The reads for the card of an owner are answered alike in two runs. -/
structure AnsweredAlike [Store σ] (owner : Owner) (group : String) (s s' : Faulty σ)
    (calls calls' : Nat) : Prop where
  binding : s.readAt calls .binding (Store.binding? owner group) =
    s'.readAt calls' .binding (Store.binding? owner group)
  card : ∀ name, s.readAt (calls + 1) .card (Store.card? owner name) =
    s'.readAt (calls' + 1) .card (Store.card? owner name)
  /-- where no card is bound -/
  active : s.readAt (calls + 1) .activeCard (Store.activeCard? owner) =
    s'.readAt (calls' + 1) .activeCard (Store.activeCard? owner)
  /-- where the card that is bound is gone -/
  instead : s.readAt (calls + 2) .activeCard (Store.activeCard? owner) =
    s'.readAt (calls' + 2) .activeCard (Store.activeCard? owner)

theorem AnsweredAlike.outcome_eq [Store σ] {owner : Owner} {group : String} {s s' : Faulty σ}
    {calls calls' : Nat} (h : AnsweredAlike owner group s s' calls calls') :
    (s.resolution owner group calls).1 = (s'.resolution owner group calls').1 := by
  unfold Faulty.resolution
  rw [h.binding]
  cases s'.readAt calls' .binding (Store.binding? owner group) with
  | error failure => rfl
  | ok found =>
    cases found with
    | none => exact h.active
    | some binding =>
      dsimp only
      rw [h.card]
      cases s'.readAt (calls' + 1) .card (Store.card? owner binding.card) with
      | error failure => rfl
      | ok card =>
        cases card with
        | some card => rfl
        | none => exact h.instead

/-- What is read of cards and games does not depend on keyed data. -/
structure ReadsRest (σ : Type) {κ : Type} [Store σ] [CellStore σ κ] : Prop where
  card? (s : σ) (owner : Owner) (name : String) :
    (Store.card? owner name (CellStore.rest s)).1 = (Store.card? owner name s).1
  activeCard? (s : σ) (owner : Owner) :
    (Store.activeCard? owner (CellStore.rest s)).1 = (Store.activeCard? owner s).1
  binding? (s : σ) (owner : Owner) (group : String) :
    (Store.binding? owner group (CellStore.rest s)).1 = (Store.binding? owner group s).1
  gameAt? (s : σ) (platform channel : String) :
    (Store.gameAt? platform channel (CellStore.rest s)).1 = (Store.gameAt? platform channel s).1

theorem readsRest_memory : ReadsRest Memory :=
  ⟨fun _ _ _ => rfl, fun _ _ => rfl, fun _ _ _ => rfl, fun _ _ _ => rfl⟩

theorem readsRest_tables {γ : Type} [Column γ] : ReadsRest (Database γ) where
  card? d owner name := by
    simp only [Store.card?, run_readingOrFail]
    rfl
  activeCard? d owner := by
    simp only [Store.activeCard?, run_readingOrFail]
    rfl
  binding? _ _ _ := rfl
  gameAt? d platform channel := by
    simp only [Store.gameAt?, run_readingOrFail]
    rfl

/-- Two stores that refuse the same operations and differ at most in their keyed data. -/
structure SameButData [Store σ] [CellStore σ κ] (s s' : Faulty σ) : Prop where
  calls : s.calls = s'.calls
  refusal : s.refusal = s'.refusal
  rest : CellStore.rest s.inner = CellStore.rest s'.inner

section SameButData
variable [Store σ] [CellStore σ κ] (hreads : ReadsRest σ) {s s' : Faulty σ}
  (h : SameButData s s')
include hreads h

omit hreads in
theorem SameButData.readAt_eq {calls : Nat} {operation : Store.Operation} {action : Action σ α}
    (haction : ∀ inner, (action (CellStore.rest inner)).1 = (action inner).1) :
    s.readAt calls operation action = s'.readAt calls operation action := by
  unfold Faulty.readAt
  rw [h.refusal, ← haction s.inner, h.rest, haction]

theorem SameButData.resolution_eq : s.resolution = s'.resolution := by
  funext owner group calls
  unfold Faulty.resolution
  simp only [h.readAt_eq (hreads.binding? · owner group), h.readAt_eq (hreads.activeCard? · owner),
    h.readAt_eq (hreads.card? · owner _)]

theorem SameButData.turn?_eq (platform group user : String) (players : List String) (calls : Nat) :
    s.turn? platform group user players calls = s'.turn? platform group user players calls := by
  induction players generalizing calls with
  | nil => rfl
  | cons player rest ih => rw [Faulty.turn?, Faulty.turn?, ih, h.resolution_eq hreads]

theorem SameButData.roster_eq (identity : Identity) :
    (s.roster identity).players = (s'.roster identity).players ∧
      (s.roster identity).calls = (s'.roster identity).calls := by
  unfold Faulty.roster
  rw [h.calls, h.resolution_eq hreads]
  dsimp only
  rw [h.readAt_eq (hreads.gameAt? · identity.platform identity.dataGroup)]
  exact ⟨rfl, rfl⟩

theorem SameButData.turnOf_eq (identity : Identity) :
    s.turnOf identity = s'.turnOf identity := by
  funext user
  obtain ⟨hplayers, hcalls⟩ := h.roster_eq hreads identity
  rw [Faulty.turnOf, h.turn?_eq hreads, hplayers, hcalls]
  rfl

theorem SameButData.outcomeOf_eq (identity : Identity) :
    s.outcomeOf identity = s'.outcomeOf identity := by
  funext user calls
  rw [Faulty.outcomeOf, h.resolution_eq hreads]
  rfl

end SameButData

/-- The cards of the players, as a context shows them: `s` is the store before it was resolved. -/
structure GatheredByPlayer [Store σ] [CellStore σ κ] (rules : Manuals) (aliases : AliasTable)
    (identity : Identity) (tail : String) (s : Faulty σ) : Prop where
  unchanged : (Context.build rules aliases identity tail s).2.setting = s.setting
  keys : ∀ user,
    user ∈ KeyTable.keys (Context.build rules aliases identity tail s).1.teammates ↔
      user ∈ (s.roster identity).players ∧ ∃ calls, s.turnOf identity user = some calls ∧
        (Context.entry (s.roster identity).groupData user
          (s.outcomeOf identity user calls)).isSome
  /-- reads that succeed give the card of the store -/
  fromStore : ∀ user calls found, s.turnOf identity user = some calls →
    s.outcomeOf identity user calls = .ok found →
    KeyTable.find? (Context.build rules aliases identity tail s).1.teammates user =
      found.map Card.snapshot
  /-- only when one of them fails, the cached card is taken, if it is an object -/
  fromCache : ∀ user calls failure, s.turnOf identity user = some calls →
    s.outcomeOf identity user calls = .error failure →
    KeyTable.find? (Context.build rules aliases identity tail s).1.teammates user =
      (KeyTable.find? (s.roster identity).groupData (Card.cacheKey user)).bind
        (fun blob => (Card.decodeCached (Card.cacheKey user) blob).toOption)
  /-- whatever else is different in another run -/
  separate : ∀ s' : Faulty σ, s'.RostersDistinct → ∀ user calls calls',
    s.turnOf identity user = some calls → s'.turnOf identity user = some calls' →
    AnsweredAlike ⟨user, identity.platform⟩ identity.bindingGroup s s' calls calls' →
    KeyTable.find? (s.roster identity).groupData (Card.cacheKey user) =
      KeyTable.find? (s'.roster identity).groupData (Card.cacheKey user) →
    KeyTable.find? (Context.build rules aliases identity tail s).1.teammates user =
      KeyTable.find? (Context.build rules aliases identity tail s').1.teammates user
  /-- while the reads for the players succeed, keyed data makes no difference -/
  undisturbed : ∀ s' : Faulty σ, s'.RostersDistinct → SameButData s s' →
    (∀ user calls, s.turnOf identity user = some calls →
      ∃ found, s.outcomeOf identity user calls = .ok found) →
    (Context.build rules aliases identity tail s).1.teammates =
      (Context.build rules aliases identity tail s').1.teammates

theorem gatheredByPlayer [Store σ] [CardStore σ] [CellStore σ κ] (hreads : ReadsRest σ)
    (rules : Manuals) (aliases : AliasTable) (identity : Identity) (tail : String) {s : Faulty σ}
    (h : s.RostersDistinct) : GatheredByPlayer rules aliases identity tail s where
  unchanged := spares_build steady_setting rules aliases identity tail s
  keys user := by
    rw [← KeyTable.find?_isSome_iff, find?_teammates rules aliases identity tail h]
    cases hturn : s.turnOf identity user with
    | none => simp [turn?_eq_none_iff.mp hturn]
    | some calls =>
      have hmem : user ∈ (s.roster identity).players := by
        by_contra hnot
        have hnone : s.turnOf identity user = none := turn?_eq_none_iff.mpr hnot
        rw [hturn] at hnone
        cases hnone
      simp [hmem]
  fromStore user calls found hturn houtcome := by
    rw [find?_teammates rules aliases identity tail h, hturn, Option.bind_some, houtcome]
    rfl
  fromCache user calls failure hturn houtcome := by
    rw [find?_teammates rules aliases identity tail h, hturn, Option.bind_some, houtcome]
    rfl
  separate s' h' user calls calls' hturn hturn' hanswers hblob := by
    have houtcome : s.outcomeOf identity user calls = s'.outcomeOf identity user calls' :=
      hanswers.outcome_eq
    rw [find?_teammates rules aliases identity tail h,
      find?_teammates rules aliases identity tail h', hturn, hturn', Option.bind_some,
      Option.bind_some, houtcome]
    cases s'.outcomeOf identity user calls' with
    | ok found => rfl
    | error failure =>
      unfold Context.entry
      rw [hblob]
  undisturbed s' h' hsame hsucceed := by
    have hordered (s : Faulty σ) :
        KeyTable.Ordered (Context.build rules aliases identity tail s).1.teammates := by
      rw [teammates_build]
      exact ordered_playerCards _ _ _ _ _ List.Pairwise.nil
    -- both tables are in the order of their keys, so one user is looked at at a time
    refine (hordered s).ext (hordered s') (fun user => ?_)
    rw [find?_teammates rules aliases identity tail h,
      find?_teammates rules aliases identity tail h', ← hsame.turnOf_eq hreads,
      ← hsame.outcomeOf_eq hreads]
    cases hturn : s.turnOf identity user with
    | none => rfl
    | some calls =>
      obtain ⟨found, hfound⟩ := hsucceed user calls hturn
      rw [Option.bind_some, Option.bind_some, hfound]
      rfl

/-- A game whose areas no query can read leaves its whole platform without teammates. -/
theorem teammates_eq_nil_of_malformed {γ : Type} [Column γ] (rules : Manuals)
    (aliases : AliasTable) (identity : Identity) (tail : String) {s : Faulty (Database γ)}
    {row : GameRow γ} (hrow : row ∈ s.inner.games) (hplatform : row.platform = identity.platform)
    (hareas : row.covers? identity.dataGroup = none) :
    (Context.build rules aliases identity tail s).1.teammates = [] := by
  have hrowAt : s.inner.rowAt? identity.platform identity.dataGroup = .error Column.malformed := by
    refine if_pos (List.any_eq_true.mpr ⟨row, hrow, ?_⟩)
    exact decide_eq_true ⟨hplatform, hareas⟩
  have hsearch : (Store.gameAt? identity.platform identity.dataGroup s.inner).1 =
      .error Column.malformed := by
    simp only [Store.gameAt?, run_readingOrFail, Database.gameAt?, hrowAt]
    rfl
  have hplayers : (s.roster identity).players = [] := by
    unfold Faulty.roster Faulty.readAt
    dsimp only
    rw [hsearch]
    split <;> rfl
  rw [teammates_build, hplayers]
  rfl

/-- In memory as in tables, and whatever reads are refused, a context leaves the store as it was and
shows of every player what the reads for this player came to, and nothing of anyone else. -/
theorem teammates_by_player {γ : Type} [Column γ] (rules : Manuals) (aliases : AliasTable)
    (identity : Identity) (tail : String) :
    (∀ s : Faulty Memory, s.RostersDistinct →
      GatheredByPlayer rules aliases identity tail s) ∧
    ∀ s : Faulty (Database γ), s.RostersDistinct →
      GatheredByPlayer rules aliases identity tail s :=
  ⟨fun _ h => gatheredByPlayer readsRest_memory rules aliases identity tail h,
    fun _ h => gatheredByPlayer readsRest_tables rules aliases identity tail h⟩

/-! ## Four players -/

/-- The first player has a card bound in the group, the last one has none; the cached cards of the
others stand in for them, as far as they can be read. -/
def fourPlayers : Memory where
  lastCard := 1
  lastGame := 1
  cards := [⟨1, ⟨"ann", "qq"⟩, "Rook", "", false, []⟩]
  bindings := [⟨⟨"ann", "qq"⟩, "g1", "Rook"⟩]
  games := [{ Game.fresh "night" "qq" "g1" with id := 1, players := ["ann", "bob", "eve", "kit"] }]
  groups := [("g1", [("player_card#bob", .str "\x7bbroken"), ("player_card#eve", .str "{hp=3}"),
    ("player_card#kit", .str "{hp=1}")])]

/-- A store that refuses the operations after these numbers of others. -/
def refusingAt (inner : σ) (refused : List Nat) : Faulty σ where
  inner := inner
  refusal calls _ := if refused.contains calls then some (.store "disk full") else none

def visitor : Identity := ⟨"zoe", none, "qq", some "g1", "g1"⟩

theorem distinct_fourPlayers (refused : List Nat) :
    (refusingAt fourPlayers refused).RostersDistinct := by
  refine rostersDistinct_memory (fun game hgame => ?_)
  rw [List.mem_singleton.mp hgame]
  decide

/-- The reads for the second and the third player are refused in one run, and those for the third
one in another run, in which the second one takes more reads. -/
theorem teammates_by_player_refusals :
    let s := refusingAt fourPlayers [7, 8]
    let s' := refusingAt fourPlayers [9]
    let shown (s : Faulty Memory) (user : String) :=
      KeyTable.find? (Context.build [] [] visitor "" s).1.teammates user
    s.RostersDistinct ∧ s'.RostersDistinct ∧
      shown s "ann" = some [("__Name", .str "Rook"), ("name", .str "Rook"), ("type", .str "")] ∧
      shown s "bob" = none ∧ shown s "eve" = some [("hp", .int 3)] ∧ shown s "kit" = none ∧
      shown s "eve" = shown s' "eve" := by
  intro s s' shown
  have hdistinct : s.RostersDistinct := distinct_fourPlayers [7, 8]
  have hdistinct' : s'.RostersDistinct := distinct_fourPlayers [9]
  have h := (@teammates_by_player JsonText _ [] [] visitor "").1 s hdistinct
  refine ⟨hdistinct, hdistinct', ?_, ?_, ?_, ?_, ?_⟩
  · exact h.fromStore "ann" 5 (some ⟨1, ⟨"ann", "qq"⟩, "Rook", "", false, []⟩) rfl rfl
  · exact (h.fromCache "bob" 7 (.store "disk full") rfl rfl).trans (by decide +kernel)
  · exact (h.fromCache "eve" 8 (.store "disk full") rfl rfl).trans (by decide +kernel)
  · exact h.fromStore "kit" 9 none rfl rfl
  · exact h.separate s' hdistinct' "eve" 8 9 rfl rfl ⟨rfl, fun _ => rfl, rfl, rfl⟩ rfl

end DiceHost
