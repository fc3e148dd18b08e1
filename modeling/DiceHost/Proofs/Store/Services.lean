import DiceHost.Proofs.Store.Operations

/-! # Services on two stores

What users do with cards, games and queued writes comes to the same on two stores that hold the
same things. The first card of a user becomes the active one, and a game is only opened under a
free name and changed under its own, so the conditions of the operations below are met.
-/
namespace DiceHost
variable {γ : Type} [Column γ] {p : Json → Prop} {handles : List Game} {closed : List Int}
  {d : Database γ} {m : Memory}

/-! ## Cards -/

/-- The card that a user means is a stored one. -/
theorem mem_of_target {m' : Memory} {owner : Owner} {name : Option String} {card : Card}
    (h : (Card.target owner name : Action Memory Card) m = (.ok card, m')) : card ∈ m.cards := by
  cases name with
  | some name =>
    have hread : (Store.card? owner name : Action Memory _) m = (.ok (m.card? owner name), m) := rfl
    rw [Card.target, run_bind_ok hread] at h
    cases hfound : m.card? owner name with
    | none =>
      rw [hfound] at h
      cases h
    | some found =>
      rw [hfound] at h
      cases h
      exact List.mem_of_find?_eq_some hfound
  | none =>
    have hread : (Store.activeCard? owner : Action Memory _) m = (.ok (m.activeCard? owner), m) :=
      rfl
    rw [Card.target, run_bind_ok hread] at h
    cases hfound : m.activeCard? owner with
    | none =>
      rw [hfound] at h
      cases h
    | some found =>
      rw [hfound] at h
      cases h
      exact (List.mem_filter.mp (List.mem_of_find?_eq_some hfound)).1

section Cards
variable (hfaithful : Column.Faithful γ p) (h : Matches p handles closed d m)
include hfaithful h

theorem agree_create (owner : Owner) (name kind : String) {attributes : Fields}
    (hsuits : KeyTable.Suits p attributes) :
    Agree p handles closed d m (Card.create owner name kind attributes)
      (Card.create owner name kind attributes) := by
  unfold Card.create
  split
  · exact agree_throw h _
  · refine (agree_cards hfaithful h owner).bind ?_
    intro others d' m' hothers h'
    have hread : ((.ok (m.cardsOf owner), m) : Except Failure (List Card) × Memory) =
        (.ok others, m') := hothers
    cases hread
    refine agree_createCard hfaithful h' hsuits ?_
    intro hfirst card hcard howner
    have hmem : card ∈ m.cardsOf owner := List.mem_filter.mpr ⟨hcard, decide_eq_true howner⟩
    rw [List.isEmpty_iff.mp hfirst] at hmem
    cases hmem

theorem agree_target (owner : Owner) (name : Option String) :
    Agree p handles closed d m (Card.target owner name) (Card.target owner name) := by
  cases name with
  | some name =>
    refine (agree_card? hfaithful h owner name).bind ?_
    intro found d' m' _ h'
    cases found with
    | some card => exact agree_pure h' card
    | none => exact agree_throw h' _
  | none =>
    refine (agree_activeCard? hfaithful h owner).bind ?_
    intro found d' m' _ h'
    cases found with
    | some card => exact agree_pure h' card
    | none => exact agree_throw h' _

theorem agree_mergeAttributes (owner : Owner) (name : Option String) {attributes : Fields}
    (hsuits : KeyTable.Suits p attributes) :
    Agree p handles closed d m (Card.mergeAttributes owner name attributes)
      (Card.mergeAttributes owner name attributes) := by
  refine (agree_target hfaithful h owner name).bind ?_
  intro card d' m' htarget h'
  have hcard := h.cards.suits card (mem_of_target htarget)
  refine (agree_setAttributes h' owner card.name (hcard.insertAll hsuits.values)).bind ?_
  intro _ d'' m'' _ h''
  exact agree_pure h'' _

theorem agree_bound? (owner : Owner) (group : String) :
    Agree p handles closed d m (Card.bound? owner group) (Card.bound? owner group) := by
  refine (agree_binding? h owner group).bind ?_
  intro found d' m' _ h'
  cases found with
  | some binding => exact agree_card? hfaithful h' owner binding.card
  | none => exact agree_pure h' none

theorem agree_resolve? (owner : Owner) (group : String) :
    Agree p handles closed d m (Card.resolve? owner group) (Card.resolve? owner group) := by
  refine (agree_bound? hfaithful h owner group).bind ?_
  intro found d' m' _ h'
  cases found with
  | some card => exact agree_pure h' (some card)
  | none => exact agree_activeCard? hfaithful h' owner

theorem agree_bindIn (owner : Owner) (group : String) (name : Option String) :
    Agree p handles closed d m (Card.bindIn owner group name) (Card.bindIn owner group name) := by
  unfold Card.bindIn
  split
  · exact agree_throw h _
  · refine (agree_target hfaithful h owner name).bind ?_
    intro card d' m' _ h'
    refine (agree_setBinding h' ⟨owner, group, card.name⟩).bind ?_
    intro _ d'' m'' _ h''
    have hcache : Agree p handles closed d'' m'' (card.writeCache owner.user group)
        (card.writeCache owner.user group) :=
      agree_setValue h'' .group group (Card.cacheKey owner.user) (hfaithful.text _)
    refine hcache.bind ?_
    intro _ d''' m''' _ h'''
    exact agree_pure h''' card

end Cards

theorem agree_switch (h : Matches p handles closed d m) (owner : Owner) (name : String) :
    Agree p handles closed d m (Card.switch owner name) (Card.switch owner name) := by
  refine (agree_activate h owner name).bind ?_
  intro found d' m' _ h'
  cases found with
  | true => exact agree_pure h' ()
  | false => exact agree_throw h' _

/-! ## Games -/

/-- The configuration and the roulette that a change makes of those before it. -/
def GameChange.settings (config roulette : Fields) : GameChange → Fields × Fields
  | configure key value => (KeyTable.insert key value config, roulette)
  | setRoulette face data => (config, KeyTable.insert (toString face) data roulette)
  | clearRoulette => (config, [])
  | _ => (config, roulette)

/-- What a change makes of the fields that are no lists of users or channels. -/
theorem GameChange.fields_of_apply {change : GameChange} {game changed : Game}
    (h : change.apply game = some changed) :
    (game.id = changed.id ∧ game.Same changed) ∧
      (changed.config, changed.roulette) = change.settings game.config game.roulette := by
  have husers (role : Role) (users : List String) :
      let after := game.setUsersIn role users
      (game.id = after.id ∧ game.Same after) ∧
        (after.config, after.roulette) = (game.config, game.roulette) := by
    cases role <;> exact ⟨⟨rfl, rfl, rfl⟩, rfl⟩
  cases change with
  | addUser role user =>
    obtain ⟨users, -, rfl⟩ := Option.map_eq_some_iff.mp h
    exact husers role users
  | removeUser role user =>
    obtain ⟨users, -, rfl⟩ := Option.map_eq_some_iff.mp h
    exact husers role users
  | addArea channel =>
    obtain ⟨areas, -, rfl⟩ := Option.map_eq_some_iff.mp h
    exact ⟨⟨rfl, rfl, rfl⟩, rfl⟩
  | removeArea channel =>
    obtain ⟨areas, -, rfl⟩ := Option.map_eq_some_iff.mp h
    exact ⟨⟨rfl, rfl, rfl⟩, rfl⟩
  | configure | setRoulette | clearRoulette | setLogging =>
    cases h
    exact ⟨⟨rfl, rfl, rfl⟩, rfl⟩

/-- Changes do not touch the number, the platform and the name of a game. -/
theorem GameChange.same_of_apply {change : GameChange} {game changed : Game}
    (h : change.apply game = some changed) : game.id = changed.id ∧ game.Same changed :=
  (fields_of_apply h).1

/-- What a change writes into a game is such as columns hold. -/
def GameChange.Suits (p : Json → Prop) : GameChange → Prop
  | configure _ value => p value
  | setRoulette _ data => p data
  | _ => True

theorem GameChange.suits_of_apply {change : GameChange} {game changed : Game}
    (hchange : change.Suits p) (hgame : game.Suits p) (h : change.apply game = some changed) :
    changed.Suits p := by
  obtain ⟨hconfig, hroulette⟩ := Prod.ext_iff.mp (fields_of_apply h).2
  dsimp only at hconfig hroulette
  rw [Game.Suits, hconfig, hroulette]
  cases change with
  | configure key value => exact ⟨hgame.1.insert key hchange, hgame.2⟩
  | setRoulette face data => exact ⟨hgame.1, hgame.2.insert _ hchange⟩
  | clearRoulette => exact ⟨hgame.1, KeyTable.Suits.nil⟩
  | _ => exact hgame

section Update
variable {σ : Type} [Store σ] {change : GameChange} {game changed : Game}

theorem run_update_none (h : change.apply game = none) (s : σ) :
    (Game.update game change : StateM σ (Game × Except Failure Bool)) s =
      ((game, .ok false), s) := by
  rw [Game.update, h]
  rfl

/-- The handle is the kept game, or keeps the change that was not saved. -/
theorem run_update_some (h : change.apply game = some changed) {s s' : σ}
    {outcome : Except Failure Game}
    (hx : (Store.saveGame changed : Action σ Game) s = (outcome, s')) :
    (Game.update game change : StateM σ (Game × Except Failure Bool)) s =
      (match outcome with
        | .ok saved => (saved, .ok true)
        | .error failure => (changed, .error failure), s') := by
  rw [Game.update, h]
  refine (run_bind hx).trans ?_
  cases outcome <;> rfl

end Update

section Games
variable (h : Matches p handles closed d m)
include h

theorem openNamed_eq (hfaithful : Column.Faithful γ p) (platform channel name : String) :
    ∃ outcome d' m',
      (Game.openNamed platform channel name : Action (Database γ) Game) d = (outcome, d') ∧
      (Game.openNamed platform channel name : Action Memory Game) m = (outcome, m') ∧
      Matches p (handles ++ outcome.toOption.toList) closed d' m' := by
  have htables : (Store.gameNamed? platform name : Action (Database γ) (Option Game)) d =
      (.ok (m.gameNamed? platform name), d) := by
    rw [← gameNamed?_eq hfaithful h platform name]
    exact run_readingOrFail _ d
  have hmemory : (Store.gameNamed? platform name : Action Memory (Option Game)) m =
      (.ok (m.gameNamed? platform name), m) := rfl
  unfold Game.openNamed
  rw [run_bind_ok htables, run_bind_ok hmemory]
  cases hname : m.gameNamed? platform name with
  | some game =>
    have hnil : handles ++ [] = handles := List.append_nil handles
    exact ⟨_, d, m, rfl, rfl, hnil.symm ▸ h⟩
  | none =>
    have hsuits : (Game.fresh name platform channel).Suits p :=
      ⟨KeyTable.Suits.nil, KeyTable.Suits.nil⟩
    obtain ⟨kept, d', m', hd, hm, hmatches⟩ := saveGame_new h hsuits rfl hname
    exact ⟨.ok kept, d', m', hd, hm, hmatches⟩

theorem create_eq (hfaithful : Column.Faithful γ p) (counter : UInt32) (platform channel : String)
    (name : Option String) :
    ∃ result d' m',
      (Game.create counter platform channel name : StateM (Database γ) _) d = (result, d') ∧
      (Game.create counter platform channel name : StateM Memory _) m = (result, m') ∧
      Matches p (handles ++ result.2.toOption.toList) closed d' m' := by
  cases name with
  | some name =>
    obtain ⟨outcome, d', m', hd, hm, hmatches⟩ := openNamed_eq h hfaithful platform channel name
    refine ⟨(counter, outcome), d', m', ?_, ?_, hmatches⟩
    · rw [Game.create]
      exact run_bind hd
    · rw [Game.create]
      exact run_bind hm
  | none =>
    obtain ⟨outcome, d', m', hd, hm, hmatches⟩ :=
      openNamed_eq h hfaithful platform channel (Game.defaultName (counter + 1))
    refine ⟨(counter + 1, outcome), d', m', ?_, ?_, hmatches⟩
    · rw [Game.create]
      exact run_bind hd
    · rw [Game.create]
      exact run_bind hm

theorem update_eq {game : Game} (hgame : game ∈ handles) (hopen : game.id ∉ closed)
    {change : GameChange} (hsuits : change.Suits p) :
    ∃ result d' m',
      (Game.update game change : StateM (Database γ) _) d = (result, d') ∧
      (Game.update game change : StateM Memory _) m = (result, m') ∧
      Matches p (handles ++ [result.1]) closed d' m' := by
  obtain ⟨hkept, hknown⟩ := h.known game hgame
  obtain ⟨stored, hstored, hid, hsame⟩ := hknown.resolve_left hopen
  cases hchange : change.apply game with
  | none =>
    have hhandles : Known p m.games closed (handles ++ [game]) := by
      intro handle hhandle
      rcases List.mem_append.mp hhandle with hhandle | hhandle
      · exact h.known handle hhandle
      · rw [List.mem_singleton.mp hhandle]
        exact h.known game hgame
    exact ⟨(game, .ok false), d, m, run_update_none hchange d, run_update_none hchange m,
      { h with known := hhandles }⟩
  | some changed =>
    obtain ⟨hchangedId, hchangedSame⟩ := GameChange.same_of_apply hchange
    have hchangedSuits := GameChange.suits_of_apply hsuits hkept hchange
    obtain ⟨d', m', hd, hm, hmatches⟩ := saveGame_stored h hchangedSuits hstored
      (hid.trans hchangedId) (hsame.trans hchangedSame)
    exact ⟨(changed, .ok true), d', m', run_update_some hchange hd, run_update_some hchange hm,
      hmatches⟩

end Games

/-! ## Queued writes -/

theorem agree_applyWrites (h : Matches p handles closed d m) {writes : List Write}
    (hsuits : ∀ write ∈ writes, p write.value) :
    Agree p handles closed d m (applyWrites writes) (applyWrites writes) := by
  induction writes generalizing d m with
  | nil => exact ⟨rfl, h⟩
  | cons write rest ih =>
    obtain ⟨hwrite, hrest⟩ := List.forall_mem_cons.mp hsuits
    obtain ⟨hanswer, hmatches⟩ := agree_setValue h write.scope write.id write.key hwrite
    obtain ⟨hrest, hmatches⟩ := ih hmatches hrest
    exact ⟨congrArg (· + 1) hrest, hmatches⟩

theorem agree_flush (h : Matches p handles closed d m) {storage : Storage}
    (hsuits : ∀ write ∈ storage.pending, p write.value) :
    Agree p handles closed d m storage.flush storage.flush := by
  obtain ⟨hcount, hmatches⟩ := agree_applyWrites h hsuits
  exact ⟨congrArg (fun count => (storage.discard, count)) hcount, hmatches⟩

end DiceHost
