import DiceHost.Proofs.Store.Deck
import DiceHost.Proofs.Store.Refusal

/-! # What stores do with cards

The laws of a store that keeps a deck: what it finds is in the deck, what it changes is one move
of the deck, and an operation that fails changes nothing. A store in memory obeys them, and so
does a store of tables, whatever its columns hold.
-/
namespace DiceHost

/-- A store that keeps a deck. -/
class CardStore (σ : Type) [Store σ] where
  deck : σ → Deck
  card? (s : σ) (owner : Owner) (name : String) :
    Atomic (Store.card? owner name) s (fun found s' => s' = s ∧
      ∀ card ∈ found, (deck s).Has owner card.name)
  activeCard? (s : σ) (owner : Owner) :
    Atomic (Store.activeCard? owner) s (fun found s' => s' = s ∧
      ∀ card ∈ found, (deck s).Has owner card.name)
  cards (s : σ) (owner : Owner) :
    Atomic (Store.cards owner) s (fun found s' => s' = s ∧
      (found = [] → ∀ card ∈ (deck s).cards, card.owner ≠ owner))
  createCard (s : σ) (new : NewCard) :
    Atomic (Store.createCard new) s (fun _ s' => ¬ (deck s).Has new.owner new.name ∧
      ((deck s).create new).Alike (deck s'))
  setAttributes (s : σ) (owner : Owner) (name : String) (attributes : Fields) :
    Atomic (Store.setAttributes owner name attributes) s (fun _ s' => deck s' = deck s)
  activate (s : σ) (owner : Owner) (name : String) :
    Atomic (Store.activate owner name) s (fun found s' =>
      if found then deck s' = (deck s).activate owner name else s' = s)
  removeCard (s : σ) (owner : Owner) (name : String) :
    Atomic (Store.removeCard owner name) s (fun _ s' => deck s' = (deck s).remove owner name)
  binding? (s : σ) (owner : Owner) (group : String) :
    Atomic (Store.binding? owner group) s (fun _ s' => s' = s)
  setBinding (s : σ) (binding : Binding) :
    Atomic (Store.setBinding binding) s (fun _ s' => ((deck s).bind binding).Alike (deck s'))
  removeBinding (s : σ) (owner : Owner) (group : String) :
    Atomic (Store.removeBinding owner group) s (fun _ s' => deck s' = (deck s).unbind owner group)
  gameAt? (s : σ) (platform channel : String) :
    Atomic (Store.gameAt? platform channel) s (fun _ s' => s' = s)
  gameNamed? (s : σ) (platform name : String) :
    Atomic (Store.gameNamed? platform name) s (fun _ s' => s' = s)
  saveGame (s : σ) (game : Game) : Atomic (Store.saveGame game) s (fun _ s' => deck s' = deck s)
  removeGame (s : σ) (id : Int) : Atomic (Store.removeGame id) s (fun _ s' => deck s' = deck s)
  value? (s : σ) (scope : DataScope) (id key : String) :
    Atomic (Store.value? scope id key) s (fun _ s' => s' = s)
  values (s : σ) (scope : DataScope) (id : String) :
    Atomic (Store.values scope id) s (fun _ s' => s' = s)
  setValue (s : σ) (scope : DataScope) (id key : String) (value : Json) :
    Atomic (Store.setValue scope id key value) s (fun _ s' => deck s' = deck s)

/-! ## Decks of entries -/

section Entries
variable {α : Type} {bare : α → Card} {entries : List α} {last : Nat} {bindings : List Binding}

theorem Deck.has_of_mem {entry : α} {owner : Owner} {name : String} (h : entry ∈ entries)
    (howner : (bare entry).owner = owner) (hname : (bare entry).name = name) :
    (Deck.mk last (entries.map bare) bindings).Has owner name :=
  ⟨bare entry, List.mem_map_of_mem h, howner, hname⟩

theorem Deck.not_has_of_find? {p : α → Bool} {owner : Owner} {name : String}
    (hp : ∀ entry, p entry = (bare entry).isNamed owner name) (h : entries.find? p = none) :
    ¬ (Deck.mk last (entries.map bare) bindings).Has owner name := by
  rintro ⟨card, hcard, hnamed⟩
  obtain ⟨entry, hentry, rfl⟩ := List.mem_map.mp hcard
  have hnone := List.find?_eq_none.mp h entry hentry
  rw [hp] at hnone
  exact hnone (Card.isNamed_iff.mpr hnamed)

theorem map_bare {change : α → α} {move : Card → Card}
    (h : ∀ entry, bare (change entry) = move (bare entry)) :
    (entries.map change).map bare = (entries.map bare).map move := by
  rw [List.map_map, List.map_map]
  exact List.map_congr_left (fun entry _ => h entry)

/-- A change that the view does not show. -/
theorem map_bare_congr {change : α → α} (h : ∀ entry, bare (change entry) = bare entry) :
    (entries.map change).map bare = entries.map bare := by
  have hid : ∀ entry, bare (change entry) = id (bare entry) := h
  rw [map_bare hid, List.map_id]

theorem filter_bare {p : α → Bool} {q : Card → Bool} (h : ∀ entry, p entry = q (bare entry)) :
    (entries.filter p).map bare = (entries.map bare).filter q := by
  rw [List.filter_map]
  exact congrArg _ (List.filter_congr (fun entry _ => h entry))

end Entries

/-! ## Memory -/

namespace Memory

def deck (m : Memory) : Deck := ⟨m.lastCard, m.cards.map Deck.bare, m.bindings⟩

theorem atomic_createCard (m : Memory) (new : NewCard) :
    Atomic (Memory.createCard new) m (fun _ m' => ¬ m.deck.Has new.owner new.name ∧
      (m.deck.create new).Alike m'.deck) := by
  have hrun : Memory.createCard new m =
      if (m.card? new.owner new.name).isSome then (.error (Store.nameTaken new.name), m) else
        (.ok (new.numbered (m.lastCard + 1)),
          { m with lastCard := m.lastCard + 1
                   cards := insertCard (new.numbered (m.lastCard + 1)) m.cards }) := by
    unfold Memory.createCard
    rw [run_get]
    split <;> rfl
  unfold Atomic
  rw [hrun]
  cases hfound : m.card? new.owner new.name with
  | some card => rfl
  | none =>
    refine ⟨Deck.not_has_of_find? (fun _ => rfl) hfound, rfl, ?_, List.Perm.refl _⟩
    exact ((insertCard_perm _ m.cards).map Deck.bare).symm

end Memory

instance : CardStore Memory where
  deck := Memory.deck
  card? m owner name := by
    refine atomic_reading ⟨rfl, fun card hcard => ?_⟩
    have hnamed : card.owner = owner ∧ card.name = name :=
      Card.isNamed_iff.mp (List.find?_some hcard)
    exact Deck.has_of_mem (List.mem_of_find?_eq_some hcard) hnamed.1 rfl
  activeCard? m owner := by
    refine atomic_reading ⟨rfl, fun card hcard => ?_⟩
    obtain ⟨hmem, howner⟩ := List.mem_filter.mp (List.mem_of_find?_eq_some hcard)
    exact Deck.has_of_mem hmem (of_decide_eq_true howner) rfl
  cards m owner := by
    refine atomic_reading ⟨rfl, fun hnone card hcard howner => ?_⟩
    obtain ⟨old, hold, rfl⟩ := List.mem_map.mp hcard
    have hmem : old ∈ m.cardsOf owner := List.mem_filter.mpr ⟨hold, decide_eq_true howner⟩
    rw [hnone] at hmem
    cases hmem
  createCard := Memory.atomic_createCard
  setAttributes m owner name attributes := by
    refine atomic_changing (congrArg (Deck.mk _ · _) (map_bare_congr (fun card => ?_)))
    split <;> rfl
  activate m owner name := by
    refine atomic_changing ?_
    unfold Memory.activate
    split
    · refine congrArg (Deck.mk _ · _) (map_bare (fun card => ?_))
      by_cases howner : card.owner = owner
      · simp [Deck.bare, howner]
      · simp [Deck.bare, howner]
    · exact rfl
  removeCard m owner name :=
    atomic_changing (congrArg (Deck.mk _ · _) (filter_bare (fun _ => rfl)))
  binding? m owner group := atomic_reading rfl
  setBinding m binding := atomic_modify (Deck.Alike.refl _)
  removeBinding m owner group := atomic_changing rfl
  gameAt? m platform channel := atomic_reading rfl
  gameNamed? m platform name := atomic_reading rfl
  saveGame m game := by
    refine atomic_changing ?_
    unfold Memory.saveGame
    split <;> rfl
  removeGame m id := atomic_changing rfl
  value? m scope id key := atomic_reading rfl
  values m scope id := atomic_reading rfl
  setValue m scope id key value := by
    refine atomic_modify ?_
    cases scope <;> rfl

/-! ## Tables -/

section Tables
variable {γ : Type} [Column γ]

/-- A row as it stands in a deck. -/
def CardRow.bare (row : CardRow γ) : Card := ⟨row.id, row.owner, row.name, row.kind, row.active, []⟩

omit [Column γ] in
def Database.deck (d : Database γ) : Deck := ⟨d.lastCard, d.cards.map CardRow.bare, d.bindings⟩

theorem CardRow.name_of_card {row : CardRow γ} {card : Card} (h : row.card = .ok card) :
    row.name = card.name := by
  unfold CardRow.card at h
  cases hread : Column.decodeWith Column.fields? row.attributes with
  | error failure =>
    rw [hread] at h
    cases h
  | ok attributes =>
    rw [hread] at h
    cases h
    rfl

section Found
variable {α ρ : Type} {decode : ρ → Except Failure α} {found : Option ρ}

theorem decodeFound_eq_ok {result : Option α} (h : Database.decodeFound decode found = .ok result) :
    (found = none ∧ result = none) ∨
      ∃ row value, found = some row ∧ decode row = .ok value ∧ result = some value := by
  cases found with
  | none =>
    cases h
    exact Or.inl ⟨rfl, rfl⟩
  | some row =>
    rw [Database.decodeFound] at h
    cases hvalue : decode row with
    | error failure =>
      rw [hvalue] at h
      cases h
    | ok value =>
      rw [hvalue] at h
      cases h
      exact Or.inr ⟨row, value, rfl, hvalue, rfl⟩

theorem exists_of_decodeFound {value : α}
    (h : Database.decodeFound decode found = .ok (some value)) :
    ∃ row, found = some row ∧ decode row = .ok value := by
  rcases decodeFound_eq_ok h with ⟨-, hnone⟩ | ⟨row, other, hrow, hvalue, hsome⟩
  · cases hnone
  · cases hsome
    exact ⟨row, hrow, hvalue⟩

theorem eq_none_of_decodeFound (h : Database.decodeFound decode found = .ok none) :
    found = none := by
  rcases decodeFound_eq_ok h with ⟨hfound, -⟩ | ⟨row, other, hrow, hvalue, hsome⟩
  · exact hfound
  · cases hsome

end Found

/-- A card that was read is one of a row that was found. -/
theorem exists_row_of_decodeFound {found : Option (CardRow γ)} {card : Card}
    (h : Database.decodeFound CardRow.card found = .ok (some card)) :
    ∃ row, found = some row ∧ row.name = card.name := by
  obtain ⟨row, hfound, hcard⟩ := exists_of_decodeFound h
  exact ⟨row, hfound, CardRow.name_of_card hcard⟩

theorem eq_nil_of_mapM {ρ : Type} {f : ρ → Except Failure Card} {rows : List ρ}
    (h : rows.mapM f = .ok []) : rows = [] := by
  cases rows with
  | nil => rfl
  | cons row rest =>
    rw [List.mapM_cons] at h
    cases hrow : f row with
    | error failure =>
      rw [hrow] at h
      cases h
    | ok card =>
      rw [hrow] at h
      cases hrest : rest.mapM f with
      | error failure =>
        rw [hrest] at h
        cases h
      | ok cards =>
        rw [hrest] at h
        cases h

theorem Database.atomic_createCard (d : Database γ) (new : NewCard) :
    Atomic (Database.createCard new) d (fun _ d' => ¬ d.deck.Has new.owner new.name ∧
      (d.deck.create new).Alike d'.deck) := by
  unfold Atomic Database.createCard
  rw [run_get]
  cases hfound : d.card? new.owner new.name with
  | error failure => rfl
  | ok found =>
    rw [run_liftM_ok]
    cases found with
    | some card => rfl
    | none =>
      have hnone : d.cardRow? new.owner new.name = none := eq_none_of_decodeFound hfound
      refine ⟨Deck.not_has_of_find? (fun _ => rfl) hnone, rfl, ?_, List.Perm.refl _⟩
      have hcards : (d.cards ++ [(new.numbered (d.lastCard + 1)).row]).map CardRow.bare =
          d.cards.map CardRow.bare ++ [Deck.bare (new.numbered (d.lastCard + 1))] := by
        rw [List.map_append]
        rfl
      have hperm : (Deck.bare (new.numbered (d.lastCard + 1)) :: d.cards.map CardRow.bare).Perm
          (d.cards.map CardRow.bare ++ [Deck.bare (new.numbered (d.lastCard + 1))]) :=
        (List.perm_append_singleton _ _).symm
      rw [← hcards] at hperm
      exact hperm

theorem Database.atomic_saveGame (d : Database γ) (game : Game) :
    Atomic (Database.saveGame game) d (fun _ d' => d'.deck = d.deck) := by
  unfold Atomic Database.saveGame
  rw [run_get]
  by_cases hnew : game.id = 0
  · rw [if_pos hnew]
    cases (d.gameNamed? game.platform game.name).isSome <;> rfl
  · rw [if_neg hnew]
    cases d.games.find? (fun row => row.id = game.id) with
    | none => rfl
    | some old =>
      dsimp only
      cases d.nameInUse old.platform game.name game.id <;> rfl

instance : CardStore (Database γ) where
  deck := Database.deck
  card? d owner name := by
    refine atomic_readingOrFail (fun found hfound => ⟨rfl, fun card hcard => ?_⟩)
    cases hcard
    obtain ⟨row, hrow, hname⟩ := exists_row_of_decodeFound hfound
    unfold Database.cardRow? at hrow
    have hnamed := List.find?_some hrow
    simp only [CardRow.isNamed, decide_eq_true_eq] at hnamed
    exact Deck.has_of_mem (List.mem_of_find?_eq_some hrow) hnamed.1 hname
  activeCard? d owner := by
    refine atomic_readingOrFail (fun found hfound => ⟨rfl, fun card hcard => ?_⟩)
    cases hcard
    obtain ⟨row, hrow, hname⟩ := exists_row_of_decodeFound hfound
    unfold Database.activeRow? at hrow
    have howner := List.find?_some hrow
    simp only [Bool.decide_and, Bool.and_eq_true, decide_eq_true_eq] at howner
    exact Deck.has_of_mem (List.mem_of_find?_eq_some hrow) howner.1 hname
  cards d owner := by
    refine atomic_readingOrFail (fun found hfound => ⟨rfl, fun hnone card hcard howner => ?_⟩)
    obtain ⟨row, hrow, rfl⟩ := List.mem_map.mp hcard
    have hmem : row ∈ d.cardRows owner :=
      List.mem_mergeSort.mpr (List.mem_filter.mpr ⟨hrow, decide_eq_true howner⟩)
    rw [hnone] at hfound
    rw [eq_nil_of_mapM hfound] at hmem
    cases hmem
  createCard := Database.atomic_createCard
  setAttributes d owner name attributes := by
    refine atomic_changing (congrArg (Deck.mk _ · _) (map_bare_congr (fun row => ?_)))
    split <;> rfl
  activate d owner name := by
    refine atomic_changing ?_
    unfold Database.activate
    split
    · refine congrArg (Deck.mk _ · _) (map_bare (fun row => ?_))
      by_cases howner : row.owner = owner
      · simp [CardRow.bare, howner]
      · simp [CardRow.bare, howner]
    · exact rfl
  removeCard d owner name :=
    atomic_changing (congrArg (Deck.mk _ · _) (filter_bare (fun _ => rfl)))
  binding? d owner group := atomic_reading rfl
  setBinding d binding :=
    atomic_modify ⟨rfl, List.Perm.refl _, (List.perm_append_singleton _ _).symm⟩
  removeBinding d owner group := atomic_changing rfl
  gameAt? d platform channel := atomic_readingOrFail (fun _ _ => rfl)
  gameNamed? d platform name := atomic_readingOrFail (fun _ _ => rfl)
  saveGame := Database.atomic_saveGame
  removeGame d id := atomic_changing rfl
  value? d scope id key := atomic_readingOrFail (fun _ _ => rfl)
  values d scope id := atomic_reading rfl
  setValue d scope id key value := by
    refine atomic_modify ?_
    unfold Database.putColumn
    split <;> rfl

end Tables
end DiceHost
