import DiceHost.Card.Actions
import DiceHost.Game.Actions
import DiceHost.Proofs.Store.Games
import DiceHost.Proofs.Store.Values

/-! # Operations on two stores

A store of tables and a store in memory that hold the same things answer alike and hold the same
things afterwards. For most operations this is so without a condition. A new card must not be a
second active one, and a game is kept under a name that is free or its own.
-/
namespace DiceHost
variable {γ : Type} [Column γ] {p : Json → Prop}

/-- Every handle of a game that was not closed is the handle of a stored game. What a handle holds
is such as columns hold, whether or not its game was closed. -/
def Known (p : Json → Prop) (games : List Game) (closed : List Int) (handles : List Game) : Prop :=
  ∀ handle ∈ handles, handle.Suits p ∧
    (handle.id ∈ closed ∨ ∃ game ∈ games, game.id = handle.id ∧ game.Same handle)

section Known
variable {games games' : List Game} {closed : List Int} {handles : List Game}

theorem Known.mono (h : Known p games closed handles)
    (hgames : ∀ game ∈ games, ∃ found ∈ games', found.id = game.id ∧ found.Same game) :
    Known p games' closed handles := by
  intro handle hhandle
  refine (h handle hhandle).imp_right (Or.imp_right ?_)
  rintro ⟨game, hgame, hid, hsame⟩
  obtain ⟨found, hfound, hfoundId, hfoundSame⟩ := hgames game hgame
  exact ⟨found, hfound, hfoundId.trans hid, hfoundSame.trans hsame⟩

theorem Known.append (h : Known p games closed handles) {game : Game} (hgame : game ∈ games)
    (hsuits : game.Suits p) : Known p games closed (handles ++ [game]) := by
  intro handle hhandle
  rcases List.mem_append.mp hhandle with hhandle | hhandle
  · exact h handle hhandle
  · rw [List.mem_singleton.mp hhandle]
    exact ⟨hsuits, Or.inr ⟨game, hgame, rfl, rfl, rfl⟩⟩

end Known

/-- Two stores hold the same, and the handles are good for both. -/
structure Matches (p : Json → Prop) (handles : List Game) (closed : List Int) (d : Database γ)
    (m : Memory) : Prop where
  lastCard : d.lastCard = m.lastCard
  lastGame : d.lastGame = m.lastGame
  cards : CardsMatch p d.cards m.cards
  bindings : BindingsMatch d.bindings m.bindings
  games : GamesMatch p m.lastGame d.games m.games
  data : DataMatch p d.data m.values
  known : Known p m.games closed handles

theorem matches_empty : Matches p [] [] ({} : Database γ).upToDate {} := by
  refine ⟨rfl, rfl, CardsMatch.nil, ⟨List.Perm.refl _, List.Pairwise.nil⟩, GamesMatch.nil, ?_, ?_⟩
  · have hvalues : ({} : Memory).values = fun _ _ => [] := by
      funext scope id
      cases scope <;> rfl
    rw [hvalues]
    exact DataMatch.nil
  · intro handle hhandle
    cases hhandle

/-- A computation answers alike on two stores, which hold the same afterwards. -/
def Agree {α : Type} (p : Json → Prop) (handles : List Game) (closed : List Int) (d : Database γ)
    (m : Memory) (x : StateM (Database γ) α) (y : StateM Memory α) : Prop :=
  (x d).1 = (y m).1 ∧ Matches p handles closed (x d).2 (y m).2

/-! ## Running actions -/

section Run
variable {σ α β : Type} {s s' : σ}

theorem run_bind {x : StateM σ α} {f : α → StateM σ β} {value : α} (h : x s = (value, s')) :
    (x >>= f) s = f value s' := by
  simp only [bind, StateT.bind, h]

theorem run_bind_ok {x : Action σ α} {f : α → Action σ β} {value : α}
    (h : x s = (.ok value, s')) : (x >>= f) s = f value s' := by
  simp only [bind, ExceptT.bind, ExceptT.mk, StateT.bind, h]
  rfl

theorem run_bind_error {x : Action σ α} {f : α → Action σ β} {failure : Failure}
    (h : x s = (.error failure, s')) : (x >>= f) s = (.error failure, s') := by
  simp only [bind, ExceptT.bind, ExceptT.mk, StateT.bind, h]
  rfl

theorem run_get {f : σ → Action σ β} : ((get : Action σ σ) >>= f) s = f s s := rfl

theorem run_liftM_ok {value : α} {f : α → Action σ β} :
    ((liftM (Except.ok value : Except Failure α) : Action σ α) >>= f) s = f value s := rfl

theorem run_readingOrFail (f : σ → Except Failure α) (s : σ) :
    (Store.readingOrFail f : Action σ α) s = (f s, s) := by
  unfold Store.readingOrFail
  rw [run_get]
  cases f s <;> rfl

end Run

section
variable {handles : List Game} {closed : List Int} {d : Database γ} {m : Memory} {α β : Type}

theorem Agree.bind {x : Action (Database γ) α} {y : Action Memory α}
    {f : α → Action (Database γ) β} {g : α → Action Memory β} (h : Agree p handles closed d m x y)
    (hnext : ∀ value d' m', y m = (.ok value, m') → Matches p handles closed d' m' →
      Agree p handles closed d' m' (f value) (g value)) :
    Agree p handles closed d m (x >>= f : Action (Database γ) β) (y >>= g : Action Memory β) := by
  obtain ⟨hanswer, hmatches⟩ := h
  cases hx : x d with
  | mk outcome d' =>
    cases hy : y m with
    | mk expected m' =>
      rw [hx, hy] at hanswer hmatches
      cases hanswer
      cases outcome with
      | error failure =>
        rw [Agree, run_bind_error hx, run_bind_error hy]
        exact ⟨rfl, hmatches⟩
      | ok value =>
        rw [Agree, run_bind_ok hx, run_bind_ok hy]
        exact hnext value d' m' hy hmatches

theorem agree_pure (h : Matches p handles closed d m) (value : α) :
    Agree p handles closed d m (pure value : Action (Database γ) α)
      (pure value : Action Memory α) :=
  ⟨rfl, h⟩

theorem agree_throw (h : Matches p handles closed d m) (failure : Failure) :
    Agree p handles closed d m (throw failure : Action (Database γ) α)
      (throw failure : Action Memory α) := ⟨rfl, h⟩

theorem agree_reading (h : Matches p handles closed d m) {f : Database γ → Except Failure α}
    {g : Memory → α} (heq : f d = .ok (g m)) :
    Agree p handles closed d m (Store.readingOrFail f : Action (Database γ) α)
      (Store.reading g : Action Memory α) := by
  rw [Agree, run_readingOrFail, heq]
  exact ⟨rfl, h⟩

end

/-! ## Reading -/

section Operations
variable (hfaithful : Column.Faithful γ p) {handles : List Game} {closed : List Int}
  {d : Database γ} {m : Memory} (h : Matches p handles closed d m)

section Reading
include hfaithful h

theorem card?_eq (owner : Owner) (name : String) :
    d.card? owner name = .ok (m.card? owner name) := by
  have hfound := h.cards.find?_named owner name
  unfold Database.card? Database.cardRow? Memory.card?
  rw [hfound]
  exact decodeFound_map (fun card hcard =>
    card_row hfaithful (h.cards.suits card (List.mem_of_find?_eq_some hcard)))

theorem agree_card? (owner : Owner) (name : String) :
    Agree p handles closed d m (Store.card? owner name) (Store.card? owner name) :=
  agree_reading h (card?_eq hfaithful h owner name)

theorem agree_activeCard? (owner : Owner) :
    Agree p handles closed d m (Store.activeCard? owner) (Store.activeCard? owner) := by
  refine agree_reading h ?_
  have hfound := h.cards.find?_active owner
  unfold Database.activeRow? Memory.activeCard? Memory.cardsOf
  rw [hfound]
  refine decodeFound_map (fun card hcard => card_row hfaithful (h.cards.suits card ?_))
  exact (List.mem_filter.mp (List.mem_of_find?_eq_some hcard)).1

theorem agree_cards (owner : Owner) :
    Agree p handles closed d m (Store.cards owner) (Store.cards owner) := by
  refine agree_reading h ?_
  have hsorted := h.cards.sort_owned owner
  unfold Database.cardRows Memory.cardsOf
  rw [hsorted]
  exact mapM_map_row (fun card hcard =>
    card_row hfaithful (h.cards.suits card (List.mem_filter.mp hcard).1))

theorem agree_gameAt? (platform channel : String) :
    Agree p handles closed d m (Store.gameAt? platform channel)
      (Store.gameAt? platform channel) := by
  refine agree_reading h ?_
  have := hfaithful.toReadsTexts
  rw [Database.gameAt?, h.games.rowAt?_eq rfl]
  exact decodeFound_map (fun game hgame =>
    game_row hfaithful (h.games.suits game (List.mem_of_find?_eq_some hgame)))

theorem gameNamed?_eq (platform name : String) :
    Database.decodeFound GameRow.game (d.gameNamed? platform name) =
      .ok (m.gameNamed? platform name) := by
  have hfound := h.games.find?_named platform name
  unfold Database.gameNamed? Memory.gameNamed?
  rw [hfound]
  exact decodeFound_map (fun game hgame =>
    game_row hfaithful (h.games.suits game (List.mem_of_find?_eq_some hgame)))

theorem agree_gameNamed? (platform name : String) :
    Agree p handles closed d m (Store.gameNamed? platform name) (Store.gameNamed? platform name) :=
  agree_reading h (gameNamed?_eq hfaithful h platform name)

theorem agree_value? (scope : DataScope) (id key : String) :
    Agree p handles closed d m (Store.value? scope id key) (Store.value? scope id key) :=
  agree_reading h (h.data.value_eq hfaithful scope id key)

theorem agree_values (scope : DataScope) (id : String) :
    Agree p handles closed d m (Store.values scope id) (Store.values scope id) :=
  ⟨congrArg Except.ok (h.data.values_eq hfaithful scope id), h⟩

end Reading

include h

theorem agree_binding? (owner : Owner) (group : String) :
    Agree p handles closed d m (Store.binding? owner group) (Store.binding? owner group) :=
  ⟨congrArg Except.ok (h.bindings.find?_at owner group), h⟩

/-! ## Changing cards and bindings -/

include hfaithful in
theorem agree_createCard {new : NewCard} (hsuits : KeyTable.Suits p new.attributes)
    (hactive : new.active = true → ∀ card ∈ m.cards, card.owner ≠ new.owner) :
    Agree p handles closed d m (Store.createCard new) (Store.createCard new) := by
  have hrun (found : Option Card) (hfound : d.card? new.owner new.name = .ok found) :
      Database.createCard new d = if found.isSome then (.error (Store.nameTaken new.name), d) else
        (.ok (new.numbered (d.lastCard + 1)),
          { d with lastCard := d.lastCard + 1
                   cards := d.cards ++ [(new.numbered (d.lastCard + 1)).row] }) := by
    unfold Database.createCard
    rw [run_get, hfound, run_liftM_ok]
    split <;> rfl
  have hmemory : Memory.createCard new m =
      if (m.card? new.owner new.name).isSome then (.error (Store.nameTaken new.name), m) else
        (.ok (new.numbered (m.lastCard + 1)),
          { m with lastCard := m.lastCard + 1
                   cards := insertCard (new.numbered (m.lastCard + 1)) m.cards }) := by
    unfold Memory.createCard
    rw [run_get]
    split <;> rfl
  have hstores : Agree p handles closed d m (Database.createCard new) (Memory.createCard new) := by
    rw [Agree, hrun _ (card?_eq hfaithful h new.owner new.name), hmemory, h.lastCard]
    split
    · exact ⟨rfl, h⟩
    · next hfree =>
      have hfresh : ∀ other ∈ m.cards, ¬ (new.numbered (m.lastCard + 1)).Same other := by
        intro other hother hsame
        have hnone : m.card? new.owner new.name = none := by simpa using hfree
        have hnamed := List.find?_eq_none.mp hnone other hother
        exact hnamed (Card.isNamed_iff.mpr ⟨hsame.1.symm, hsame.2.symm⟩)
      have hrivals : ∀ other ∈ m.cards, ¬ (new.numbered (m.lastCard + 1)).Rivals other := by
        intro other hother hrival
        exact hactive hrival.2.1 other hother hrival.1.symm
      exact ⟨rfl, { h with lastCard := rfl, cards := h.cards.insert hsuits hfresh hrivals }⟩
  exact hstores

theorem isSome_cardRow? (owner : Owner) (name : String) :
    (d.cardRow? owner name).isSome = (m.card? owner name).isSome := by
  rw [Database.cardRow?, h.cards.find?_named, Option.isSome_map]
  rfl

theorem agree_setAttributes (owner : Owner) (name : String) {attributes : Fields}
    (hsuits : KeyTable.Suits p attributes) :
    Agree p handles closed d m (Store.setAttributes owner name attributes)
      (Store.setAttributes owner name attributes) := by
  refine ⟨congrArg Except.ok (isSome_cardRow? h owner name), { h with cards := ?_ }⟩
  refine h.cards.map ?_ ?_ ?_ ?_ ?_
  · intro card
    have hnamed : (card.row : CardRow γ).isNamed owner name = card.isNamed owner name := rfl
    dsimp only
    rw [hnamed]
    split <;> rfl
  · intro card
    split <;> rfl
  · intro card
    split <;> rfl
  · intro card hcard
    split
    · exact hsuits
    · exact h.cards.suits card hcard
  · refine List.pairwise_map.mpr (h.cards.active.imp ?_)
    intro a b hne hrivals
    have hkeep (card : Card) :
        (if card.isNamed owner name then { card with attributes := attributes } else card).owner =
            card.owner ∧
          (if card.isNamed owner name then
            { card with attributes := attributes } else card).active = card.active := by
      split <;> exact ⟨rfl, rfl⟩
    rw [Card.Rivals, (hkeep a).1, (hkeep b).1, (hkeep a).2, (hkeep b).2] at hrivals
    exact hne hrivals

theorem agree_activate (owner : Owner) (name : String) :
    Agree p handles closed d m (Store.activate owner name) (Store.activate owner name) := by
  have hstores : (d.activate owner name).1 = (m.activate owner name).1 ∧
      Matches p handles closed (d.activate owner name).2 (m.activate owner name).2 := by
    unfold Database.activate Memory.activate
    rw [isSome_cardRow? h owner name]
    split
    · refine ⟨rfl, { h with cards := h.cards.map ?_ ?_ ?_ ?_ ?_ }⟩
      · intro card
        by_cases howned : card.owner = owner
        · have hrow : (card.row : CardRow γ).owner = owner := howned
          simp only [howned, hrow, decide_true, if_true]
          rfl
        · have hrow : ¬ (card.row : CardRow γ).owner = owner := howned
          simp only [howned, hrow, decide_false, Bool.false_eq_true, if_false]
      · intro card
        split <;> rfl
      · intro card
        split <;> rfl
      · intro card hcard
        split <;> exact h.cards.suits card hcard
      · refine List.pairwise_map.mpr ((h.cards.distinct.and h.cards.active).imp ?_)
        rintro a b ⟨hdistinct, hactive⟩ hrivals
        -- of the owner's cards only the named one is active, and there is one of that name
        by_cases ha : a.owner = owner
        · by_cases hb : b.owner = owner
          · simp only [Card.Rivals, ha, hb, decide_true, if_true, decide_eq_true_eq] at hrivals
            exact hdistinct ⟨ha.trans hb.symm, hrivals.2.1.trans hrivals.2.2.symm⟩
          · simp only [Card.Rivals, ha, hb, decide_true, decide_false, if_true,
              Bool.false_eq_true, if_false] at hrivals
            exact hb hrivals.1.symm
        · by_cases hb : b.owner = owner
          · simp only [Card.Rivals, hb, ha, decide_true, decide_false, if_true,
              Bool.false_eq_true, if_false, false_and] at hrivals
          · simp only [ha, hb, decide_false, Bool.false_eq_true, if_false] at hrivals
            exact hactive hrivals
    · exact ⟨rfl, h⟩
  exact ⟨congrArg Except.ok hstores.1, hstores.2⟩

theorem agree_removeCard (owner : Owner) (name : String) :
    Agree p handles closed d m (Store.removeCard owner name) (Store.removeCard owner name) :=
  ⟨congrArg Except.ok (isSome_cardRow? h owner name),
    { h with
      cards := h.cards.filter (fun _ => rfl)
      bindings := h.bindings.filter _ }⟩

theorem agree_setBinding (binding : Binding) :
    Agree p handles closed d m (Store.setBinding binding) (Store.setBinding binding) := by
  refine ⟨rfl, { h with bindings := (h.bindings.filter _).insert ?_ }⟩
  intro other hother hsame
  have hkept : (!other.isAt binding.owner binding.group) = true := (List.mem_filter.mp hother).2
  have hat : other.isAt binding.owner binding.group = true :=
    decide_eq_true ⟨hsame.1.symm, hsame.2.symm⟩
  rw [hat] at hkept
  cases hkept

theorem agree_removeBinding (owner : Owner) (group : String) :
    Agree p handles closed d m (Store.removeBinding owner group)
      (Store.removeBinding owner group) := by
  refine ⟨?_, { h with bindings := h.bindings.filter _ }⟩
  exact congrArg (fun found => Except.ok found.isSome) (h.bindings.find?_at owner group)

/-! ## Changing data -/

theorem agree_setValue (scope : DataScope) (id key : String) {value : Json} (hsuits : p value) :
    Agree p handles closed d m (Store.setValue scope id key value)
      (Store.setValue scope id key value) := by
  have hdata := h.data.put scope id key hsuits (values_setValue m scope id key value)
  have htables : ∃ data,
      d.putColumn scope id key (Column.encode value) = { d with data := data } := by
    unfold Database.putColumn
    split <;> exact ⟨_, rfl⟩
  have hmemory : ∃ groups users,
      m.setValue scope id key value = { m with groups := groups, users := users } := by
    cases scope <;> exact ⟨_, _, rfl⟩
  obtain ⟨data, htables⟩ := htables
  obtain ⟨groups, users, hmemory⟩ := hmemory
  have hstores : Matches p handles closed (d.putColumn scope id key (Column.encode value))
      (m.setValue scope id key value) := by
    rw [htables, hmemory] at hdata ⊢
    exact { h with data := hdata }
  exact ⟨rfl, hstores⟩

/-! ## Keeping games -/

/-- A new game is kept under a new number, and its handle is good from then on. -/
theorem saveGame_new {game : Game} (hsuits : game.Suits p) (hid : game.id = 0)
    (hname : m.gameNamed? game.platform game.name = none) :
    ∃ kept d' m', (Store.saveGame game : Action (Database γ) Game) d = (.ok kept, d') ∧
      (Store.saveGame game : Action Memory Game) m = (.ok kept, m') ∧
      Matches p (handles ++ [kept]) closed d' m' := by
  let kept : Game := { game with id := (m.lastGame + 1 : Nat) }
  have hfree : d.gameNamed? game.platform game.name = none := by
    rw [Database.gameNamed?, h.games.find?_named, Option.map_eq_none_iff]
    exact hname
  have htables : Database.saveGame game d = (.ok kept,
      { d with lastGame := m.lastGame + 1, games := d.games ++ [kept.row] }) := by
    unfold Database.saveGame
    rw [run_get, if_pos hid, hfree, h.lastGame]
    rfl
  have hmemory : (Store.saveGame game : Action Memory Game) m = (.ok kept,
      { m with lastGame := m.lastGame + 1, games := insertGame kept m.games }) := by
    have hsaved : m.saveGame game = (kept,
        { m with lastGame := m.lastGame + 1, games := insertGame kept m.games }) := by
      unfold Memory.saveGame
      rw [if_pos hid]
    exact congrArg (fun result => (Except.ok result.1, result.2)) hsaved
  have hfresh : ∀ other ∈ m.games, ¬ other.Same kept := by
    intro other hother hsame
    exact List.find?_eq_none.mp hname other hother (decide_eq_true hsame)
  have hgames : GamesMatch p (m.lastGame + 1) (d.games ++ [kept.row]) (insertGame kept m.games) :=
    h.games.append hsuits rfl hfresh
  have hmem : kept ∈ insertGame kept m.games := mem_insertGame_self kept m.games
  have hkept : ∀ other ∈ m.games, ∃ found ∈ insertGame kept m.games,
      found.id = other.id ∧ found.Same other := by
    intro other hother
    have hlt : ∀ other ∈ m.games, other.id < kept.id := by
      intro other hother
      have hbound := (h.games.numbered other hother).2
      show other.id < ((m.lastGame + 1 : Nat) : Int)
      omega
    rw [insertGame_of_forall_lt hlt]
    exact ⟨other, List.mem_append_left _ hother, rfl, rfl, rfl⟩
  exact ⟨kept, _, _, htables, hmemory, { h with
    lastGame := rfl
    games := hgames
    known := (h.known.mono hkept).append hmem hsuits }⟩

/-- A game takes the place of the stored one with its number and name. -/
theorem saveGame_stored {game old : Game} (hsuits : game.Suits p) (hold : old ∈ m.games)
    (hid : old.id = game.id) (hsame : old.Same game) :
    ∃ d' m', (Store.saveGame game : Action (Database γ) Game) d = (.ok game, d') ∧
      (Store.saveGame game : Action Memory Game) m = (.ok game, m') ∧
      Matches p (handles ++ [game]) closed d' m' := by
  have hne : game.id ≠ 0 := by
    have hbound := (h.games.numbered old hold).1
    omega
  have hfound : d.games.find? (fun row => row.id = game.id) = some old.row := by
    rw [← hid]
    exact h.games.find?_id hold
  have hunused : d.nameInUse old.platform game.name game.id = false := by
    rw [← hid, ← hsame.2]
    exact h.games.not_in_use hold
  have htables : Database.saveGame game d = (.ok game, d.overwriteGame game) := by
    unfold Database.saveGame
    rw [run_get, if_neg hne, hfound]
    dsimp only
    have hplatform : (old.row : GameRow γ).platform = old.platform := rfl
    rw [hplatform, hunused]
    rfl
  have hmemory : (Store.saveGame game : Action Memory Game) m =
      (.ok game, { m with games := insertGame game m.games }) := by
    have hsaved : m.saveGame game = (game, { m with games := insertGame game m.games }) := by
      unfold Memory.saveGame
      rw [if_neg hne]
    exact congrArg (fun result => (Except.ok result.1, result.2)) hsaved
  have hkept : ∀ other ∈ m.games, ∃ found ∈ insertGame game m.games,
      found.id = other.id ∧ found.Same other := by
    intro other hother
    rw [insertGame_of_mem h.games.ordered hold hid]
    by_cases heq : other.id = game.id
    · have hother := h.games.eq_of_id hother hold (heq.trans hid.symm)
      subst hother
      exact ⟨game, List.mem_map.mpr ⟨other, hold, if_pos heq⟩, hid.symm, hsame.symm⟩
    · exact ⟨other, List.mem_map.mpr ⟨other, hother, if_neg heq⟩, rfl, rfl, rfl⟩
  exact ⟨_, _, htables, hmemory, { h with
    games := h.games.overwrite hsuits hold hid hsame
    known := (h.known.mono hkept).append (mem_insertGame_self game m.games) hsuits }⟩

/-- The handles of a game that was removed are not good any more. -/
theorem agree_removeGame (id : Int) :
    ((Store.removeGame id : Action (Database γ) Bool) d).1 =
        ((Store.removeGame id : Action Memory Bool) m).1 ∧
      Matches p handles (closed ++ [id]) ((Store.removeGame id : Action (Database γ) Bool) d).2
        ((Store.removeGame id : Action Memory Bool) m).2 := by
  refine ⟨?_, { h with games := h.games.remove id, known := ?_ }⟩
  · refine congrArg Except.ok ?_
    show d.games.any (fun row => row.id = id) = m.games.any (fun game => game.id = id)
    rw [h.games.rows, List.any_map]
    rfl
  · intro handle hhandle
    obtain ⟨hsuits, hknown⟩ := h.known handle hhandle
    refine ⟨hsuits, ?_⟩
    by_cases hid : handle.id = id
    · exact Or.inl (List.mem_append_right _ (List.mem_singleton.mpr hid))
    · rcases hknown with hclosed | ⟨game, hgame, hgameId, hsame⟩
      · exact Or.inl (List.mem_append_left _ hclosed)
      · have hne : game.id ≠ id := fun heq => hid (hgameId.symm.trans heq)
        exact Or.inr ⟨game, List.mem_filter.mpr ⟨hgame, decide_eq_true hne⟩, hgameId, hsame⟩

end Operations
end DiceHost
