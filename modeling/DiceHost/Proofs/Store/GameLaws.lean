import DiceHost.Proofs.Store.Quiet

/-! # What stores do with games

The laws of a store that keeps a shelf of games: a new game goes to its end under the next number,
a game that is there is kept in its place, and nothing but games moves on it. Only a store of
tables also leaves out a game whose number is gone; a store in memory puts it back.
-/
namespace DiceHost

/-- What tells games apart. -/
structure Label where
  id : Int
  platform : String
  name : String
deriving DecidableEq, Repr

def Game.label (game : Game) : Label := ⟨game.id, game.platform, game.name⟩

/-- A change does not touch what tells games apart. -/
theorem GameChange.label_of_apply {change : GameChange} {game changed : Game}
    (h : change.apply game = some changed) : changed.label = game.label := by
  obtain ⟨hid, hplatform, hname⟩ := same_of_apply h
  unfold Game.label
  rw [hid, hplatform, hname]

/-- The games of a store by their labels. -/
structure Shelf where
  /-- the last number given to a game -/
  last : Nat
  labels : List Label
deriving DecidableEq, Repr

namespace Shelf

def add (shelf : Shelf) (platform name : String) : Shelf :=
  ⟨shelf.last + 1, shelf.labels ++ [⟨(shelf.last + 1 : Nat), platform, name⟩]⟩

def without (shelf : Shelf) (id : Int) : Shelf :=
  ⟨shelf.last, shelf.labels.filter (fun label => label.id ≠ id)⟩

/-- No game has the name on the platform. -/
def Free (shelf : Shelf) (platform name : String) : Prop :=
  ∀ label ∈ shelf.labels, ¬ (label.platform = platform ∧ label.name = name)

/-- The games stand in the order of their numbers, none of which is new. -/
structure Numbered (shelf : Shelf) : Prop where
  ordered : shelf.labels.Pairwise (fun a b => a.id < b.id)
  given : ∀ label ∈ shelf.labels, 0 < label.id ∧ label.id ≤ shelf.last

theorem Numbered.eq_of_id {shelf : Shelf} (h : shelf.Numbered) {a b : Label}
    (ha : a ∈ shelf.labels) (hb : b ∈ shelf.labels) (hid : a.id = b.id) : a = b := by
  have hne : shelf.labels.Pairwise (fun a b => ¬ a.id = b.id) := h.ordered.imp (fun hlt => by omega)
  exact eq_of_pairwise_not (fun _ _ => Eq.symm) hne ha hb hid

end Shelf

theorem map_label_without {α : Type} (label : α → Label) (entries : List α) (id : Int) :
    (entries.filter (fun entry => (label entry).id ≠ id)).map label =
      (entries.map label).filter (fun label => label.id ≠ id) := by
  rw [List.filter_map]
  rfl

/-- A store that keeps a shelf of games. -/
class GameStore (σ : Type) [Store σ] where
  shelf : σ → Shelf
  createCard (new : NewCard) : Spares shelf (Store.createCard (σ := σ) new)
  setAttributes (owner : Owner) (name : String) (attributes : Fields) :
    Spares shelf (Store.setAttributes (σ := σ) owner name attributes)
  activate (owner : Owner) (name : String) : Spares shelf (Store.activate (σ := σ) owner name)
  removeCard (owner : Owner) (name : String) : Spares shelf (Store.removeCard (σ := σ) owner name)
  setBinding (binding : Binding) : Spares shelf (Store.setBinding (σ := σ) binding)
  removeBinding (owner : Owner) (group : String) :
    Spares shelf (Store.removeBinding (σ := σ) owner group)
  setValue (scope : DataScope) (id key : String) (value : Json) :
    Spares shelf (Store.setValue (σ := σ) scope id key value)
  gameAt? (s : σ) (platform channel : String) :
    Atomic (Store.gameAt? platform channel) s (fun found s' => s' = s ∧
      ∀ game ∈ found, game.label ∈ (shelf s).labels)
  gameNamed? (s : σ) (platform name : String) :
    Atomic (Store.gameNamed? platform name) s (fun found s' => s' = s ∧
      (∀ game ∈ found, game.label ∈ (shelf s).labels) ∧
      (found = none → (shelf s).Free platform name))
  saveGame_new (s : σ) {game : Game} (hnumbered : (shelf s).Numbered) (hid : game.id = 0) :
    Atomic (Store.saveGame game) s (fun kept s' =>
      kept.label = ⟨((shelf s).last + 1 : Nat), game.platform, game.name⟩ ∧
      shelf s' = (shelf s).add game.platform game.name)
  saveGame_same (s : σ) {game : Game} (hid : game.id ≠ 0) :
    Atomic (Store.saveGame game) s (fun kept _ => kept = game)
  saveGame_stored (s : σ) {game : Game} (hnumbered : (shelf s).Numbered)
    (hgame : game.label ∈ (shelf s).labels) :
    Atomic (Store.saveGame game) s (fun _ s' => shelf s' = shelf s)
  removeGame (s : σ) (id : Int) :
    shelf ((Store.removeGame id : Action σ Bool) s).2 = (shelf s).without id

open GameStore (shelf)

/-- The store does not keep a game whose number is gone. -/
def Firm (σ : Type) [Store σ] [GameStore σ] : Prop :=
  ∀ (s : σ) (game : Game), (shelf s).Numbered → game.id ≠ 0 →
    (∀ label ∈ (shelf s).labels, label.id ≠ game.id) →
    Atomic (Store.saveGame game) s (fun _ s' => shelf s' = shelf s)

/-! ## Memory -/

namespace Memory

def shelf (m : Memory) : Shelf := ⟨m.lastGame, m.games.map Game.label⟩

theorem ordered_games {m : Memory} (h : m.shelf.Numbered) :
    m.games.Pairwise (fun a b => a.id < b.id) := by
  have hlabels := h.ordered
  unfold Memory.shelf at hlabels
  rw [List.pairwise_map] at hlabels
  exact hlabels

theorem shelf_saveGame_new {m : Memory} {game : Game} (hnumbered : m.shelf.Numbered)
    (hid : game.id = 0) :
    (m.saveGame game).1.label = ⟨(m.shelf.last + 1 : Nat), game.platform, game.name⟩ ∧
      (m.saveGame game).2.shelf = m.shelf.add game.platform game.name := by
  have hlast : ∀ old ∈ m.games, old.id < (m.lastGame + 1 : Nat) := by
    intro old hold
    have hgiven := (hnumbered.given _ (List.mem_map_of_mem hold)).2
    have hbound : old.id ≤ m.lastGame := hgiven
    omega
  unfold Memory.saveGame
  rw [if_pos hid]
  refine ⟨rfl, ?_⟩
  unfold Memory.shelf Shelf.add
  dsimp only
  rw [insertGame_of_forall_lt hlast, List.map_append]
  rfl

theorem shelf_saveGame_stored {m : Memory} {game : Game} (hnumbered : m.shelf.Numbered)
    (hgame : game.label ∈ m.shelf.labels) : (m.saveGame game).2.shelf = m.shelf := by
  obtain ⟨old, hold, hlabel⟩ := List.mem_map.mp hgame
  have hid : old.id = game.id := congrArg Label.id hlabel
  have hpositive : 0 < game.id := (hnumbered.given _ hgame).1
  have hordered := ordered_games hnumbered
  unfold Memory.saveGame
  rw [if_neg (by omega)]
  unfold Memory.shelf
  dsimp only
  rw [insertGame_of_mem hordered hold hid, List.map_map]
  -- the game that is replaced has the same label, for it has the same number
  refine congrArg _ (List.map_congr_left (fun other hother => ?_))
  rw [Function.comp_apply]
  split
  · next heq => exact hnumbered.eq_of_id hgame (List.mem_map_of_mem hother) heq.symm
  · rfl

/-- A game of a number that was given is put in its place, whether or not one is there. -/
theorem shelf_saveGame_given {m : Memory} {game : Game} (hnumbered : m.shelf.Numbered)
    (hgiven : 0 < game.id ∧ game.id ≤ m.shelf.last) :
    (m.saveGame game).2.shelf.Numbered ∧ (m.saveGame game).2.shelf.last = m.shelf.last ∧
      ∀ label ∈ (m.saveGame game).2.shelf.labels,
        label ∈ m.shelf.labels ∨ label = game.label := by
  have hsaved : (m.saveGame game).2.shelf =
      ⟨m.lastGame, (insertGame game m.games).map Game.label⟩ := by
    unfold Memory.saveGame
    rw [if_neg (by omega)]
    rfl
  have hmem : ∀ label ∈ (insertGame game m.games).map Game.label,
      label ∈ m.shelf.labels ∨ label = game.label := by
    intro label hlabel
    obtain ⟨other, hother, rfl⟩ := List.mem_map.mp hlabel
    rcases mem_or_eq_of_mem_insertGame hother with hother | rfl
    · exact Or.inl (List.mem_map_of_mem hother)
    · exact Or.inr rfl
  rw [hsaved]
  refine ⟨⟨?_, fun label hlabel => ?_⟩, rfl, hmem⟩
  · rw [List.pairwise_map]
    exact ordered_insertGame game (ordered_games hnumbered)
  · rcases hmem label hlabel with hlabel | rfl
    · exact hnumbered.given label hlabel
    · exact hgiven

end Memory

theorem Memory.quiet_shelf : Quiet Memory.shelf :=
  quiet_memory.comp (fun view => Shelf.mk view.1 (view.2.map Game.label))

instance : GameStore Memory where
  shelf := Memory.shelf
  createCard := Memory.quiet_shelf.createCard
  setAttributes := Memory.quiet_shelf.setAttributes
  activate := Memory.quiet_shelf.activate
  removeCard := Memory.quiet_shelf.removeCard
  setBinding := Memory.quiet_shelf.setBinding
  removeBinding := Memory.quiet_shelf.removeBinding
  setValue := Memory.quiet_shelf.setValue
  gameAt? m platform channel := by
    refine atomic_reading ⟨rfl, fun game hgame => ?_⟩
    exact List.mem_map_of_mem (List.mem_of_find?_eq_some hgame)
  gameNamed? m platform name := by
    refine atomic_reading ⟨rfl, fun game hgame => ?_, fun hnone label hlabel hsame => ?_⟩
    · exact List.mem_map_of_mem (List.mem_of_find?_eq_some hgame)
    · obtain ⟨game, hgame, rfl⟩ := List.mem_map.mp hlabel
      exact List.find?_eq_none.mp hnone game hgame (decide_eq_true hsame)
  saveGame_new m game hnumbered hid := atomic_changing (Memory.shelf_saveGame_new hnumbered hid)
  saveGame_same m game hid := by
    refine atomic_changing ?_
    unfold Memory.saveGame
    rw [if_neg hid]
  saveGame_stored m game hnumbered hgame :=
    atomic_changing (Memory.shelf_saveGame_stored hnumbered hgame)
  removeGame m id := congrArg (Shelf.mk m.lastGame) (map_label_without Game.label m.games id)

/-! ## Tables -/

theorem ok_of_bind {α β : Type} {x : Except Failure α} {f : α → Except Failure β} {value : β}
    (h : x >>= f = .ok value) : ∃ found, x = .ok found ∧ f found = .ok value := by
  cases x with
  | error failure => cases h
  | ok found => exact ⟨found, rfl, h⟩

section Tables
variable {γ : Type} [Column γ]

omit [Column γ] in
/-- The columns of a row that are always readable. -/
def GameRow.label (row : GameRow γ) : Label := ⟨row.id, row.platform, row.name⟩

theorem GameRow.label_of_game {row : GameRow γ} {game : Game} (h : row.game = .ok game) :
    game.label = row.label := by
  -- the columns that may be unreadable are not part of the label
  obtain ⟨masters, -, h⟩ := ok_of_bind h
  obtain ⟨players, -, h⟩ := ok_of_bind h
  obtain ⟨observers, -, h⟩ := ok_of_bind h
  obtain ⟨areas, -, h⟩ := ok_of_bind h
  obtain ⟨config, -, h⟩ := ok_of_bind h
  obtain ⟨roulette, -, h⟩ := ok_of_bind h
  cases h
  rfl

/-- The labels of what a search finds are those of the rows. -/
theorem label_mem_of_decodeFound {p : GameRow γ → Bool} {rows : List (GameRow γ)} {game : Game}
    (h : Database.decodeFound GameRow.game (rows.find? p) = .ok (some game)) :
    game.label ∈ rows.map GameRow.label := by
  obtain ⟨row, hrow, hgame⟩ := exists_of_decodeFound h
  rw [GameRow.label_of_game hgame]
  exact List.mem_map_of_mem (List.mem_of_find?_eq_some hrow)

namespace Database

/-- The game that is found is that of the first row that covers the channel. -/
theorem decodeFound_of_gameAt? {d : Database γ} {platform channel : String} {found : Option Game}
    (h : d.gameAt? platform channel = .ok found) :
    decodeFound GameRow.game (d.games.find? (fun row =>
      row.platform = platform ∧ row.covers? channel = some true)) = .ok found := by
  obtain ⟨row, hrow, hfound⟩ := ok_of_bind h
  unfold rowAt? at hrow
  split at hrow
  · cases hrow
  · cases hrow
    exact hfound

omit [Column γ] in
def shelf (d : Database γ) : Shelf := ⟨d.lastGame, d.games.map GameRow.label⟩

theorem atomic_saveGame_new {d : Database γ} {game : Game} (hid : game.id = 0) :
    Atomic (Database.saveGame game) d (fun kept d' =>
      kept.label = ⟨(d.shelf.last + 1 : Nat), game.platform, game.name⟩ ∧
      d'.shelf = d.shelf.add game.platform game.name) := by
  unfold Atomic Database.saveGame
  rw [run_get, if_pos hid]
  cases (d.gameNamed? game.platform game.name).isSome with
  | true => rfl
  | false =>
    refine ⟨rfl, ?_⟩
    refine congrArg (Shelf.mk (d.lastGame + 1)) ?_
    rw [List.map_append]
    rfl

/-- A game that is kept stays under its label, also when there is none of its number. -/
theorem atomic_saveGame_old {d : Database γ} {game : Game} (hid : game.id ≠ 0)
    (hlabel : ∀ label ∈ d.shelf.labels, label.id = game.id → label = game.label) :
    Atomic (Database.saveGame game) d (fun _ d' => d'.shelf = d.shelf) := by
  have hlabels : (d.overwriteGame game).shelf = d.shelf := by
    refine congrArg (Shelf.mk d.lastGame) ?_
    unfold overwriteGame
    rw [List.map_map]
    refine List.map_congr_left (fun row hrow => ?_)
    rw [Function.comp_apply]
    split
    · next heq =>
      have hsame := hlabel _ (List.mem_map_of_mem hrow) heq
      have hname : row.name = game.name := congrArg Label.name hsame
      unfold GameRow.overwrite GameRow.label Game.row
      rw [heq, hname]
    · rfl
  unfold Atomic Database.saveGame
  rw [run_get, if_neg hid]
  cases d.games.find? (fun row => row.id = game.id) with
  | none => rfl
  | some old =>
    dsimp only
    cases d.nameInUse old.platform game.name game.id with
    | true => rfl
    | false => exact hlabels

end Database

theorem Database.quiet_shelf : Quiet (Database.shelf (γ := γ)) :=
  quiet_tables.comp (fun view => Shelf.mk view.1 (view.2.map GameRow.label))

instance : GameStore (Database γ) where
  shelf := Database.shelf
  createCard := Database.quiet_shelf.createCard
  setAttributes := Database.quiet_shelf.setAttributes
  activate := Database.quiet_shelf.activate
  removeCard := Database.quiet_shelf.removeCard
  setBinding := Database.quiet_shelf.setBinding
  removeBinding := Database.quiet_shelf.removeBinding
  setValue := Database.quiet_shelf.setValue
  gameAt? d platform channel := by
    refine atomic_readingOrFail (fun found hfound => ⟨rfl, fun game hgame => ?_⟩)
    cases hgame
    exact label_mem_of_decodeFound (Database.decodeFound_of_gameAt? hfound)
  gameNamed? d platform name := by
    refine atomic_readingOrFail (fun found hfound => ⟨rfl, fun game hgame => ?_,
      fun hnone label hlabel hsame => ?_⟩)
    · cases hgame
      exact label_mem_of_decodeFound hfound
    · rw [hnone] at hfound
      obtain ⟨row, hrow, rfl⟩ := List.mem_map.mp hlabel
      exact List.find?_eq_none.mp (eq_none_of_decodeFound hfound) row hrow (decide_eq_true hsame)
  saveGame_new d game hnumbered hid := Database.atomic_saveGame_new hid
  saveGame_same d game hid := by
    unfold Atomic
    simp only [Store.saveGame]
    unfold Database.saveGame
    rw [run_get, if_neg hid]
    cases d.games.find? (fun row => row.id = game.id) with
    | none => rfl
    | some old =>
      dsimp only
      cases d.nameInUse old.platform game.name game.id <;> rfl
  saveGame_stored d game hnumbered hgame := by
    have hpositive := (hnumbered.given _ hgame).1
    have hid : game.id ≠ 0 := by
      intro hzero
      have hlabel : game.label.id = 0 := hzero
      omega
    exact Database.atomic_saveGame_old hid
      (fun label hlabel heq => hnumbered.eq_of_id hlabel hgame heq)
  removeGame d id := congrArg (Shelf.mk d.lastGame) (map_label_without GameRow.label d.games id)

theorem firm_tables : Firm (Database γ) := by
  intro d game hnumbered hid hgone
  exact Database.atomic_saveGame_old (d := d) hid
    (fun label hlabel heq => absurd heq (hgone label hlabel))

end Tables
end DiceHost
