import DiceHost.Proofs.Store.Columns
import DiceHost.Proofs.Store.GameLaws

/-! # Stores that keep games as a store in memory does

A store of tables does with its rows what a store in memory does with its games, but a game whose
number is gone may be left out. The columns of a row are what was written into them: the rosters
and channels are read as they were, the configuration and the roulette perhaps not.
-/
namespace DiceHost

/-- A game as it is read, whatever its configuration and its roulette are read as. -/
def Game.Mirrors (game kept : Game) : Prop :=
  { kept with config := game.config, roulette := game.roulette } = game

/-- A store that keeps the games of a store in memory in some form. -/
class GameKeeper (σ : Type) [Store σ] [GameStore σ] where
  Keeps : σ → Memory → Prop
  quiet : Quiet Keeps
  shelf {s : σ} {m : Memory} (h : Keeps s m) : GameStore.shelf s = m.shelf
  gameAt? {s : σ} {m : Memory} (h : Keeps s m) (platform channel : String) :
    Atomic (Store.gameAt? platform channel) s (fun found s' => s' = s ∧
      ∀ game ∈ found, ∃ kept ∈ m.games, game.Mirrors kept)
  gameNamed? {s : σ} {m : Memory} (h : Keeps s m) (platform name : String) :
    Atomic (Store.gameNamed? platform name) s (fun found s' => s' = s ∧
      ∀ game ∈ found, ∃ kept ∈ m.games, game.Mirrors kept)
  saveGame_new {s : σ} {m : Memory} (h : Keeps s m) {game : Game} (hnumbered : m.shelf.Numbered)
    (hid : game.id = 0) :
    Atomic (Store.saveGame game) s (fun kept s' =>
      kept = (m.saveGame game).1 ∧ Keeps s' (m.saveGame game).2)
  saveGame_old {s : σ} {m : Memory} (h : Keeps s m) {game : Game} (hnumbered : m.shelf.Numbered)
    (hid : game.id ≠ 0) (hlabel : ∀ old ∈ m.games, old.id = game.id → old.label = game.label) :
    Atomic (Store.saveGame game) s (fun kept s' => kept = game ∧
      (Keeps s' (m.saveGame game).2 ∨ Keeps s' m ∧ ∀ old ∈ m.games, old.id ≠ game.id))
  removeGame {s : σ} {m : Memory} (h : Keeps s m) (id : Int) :
    Atomic (Store.removeGame id) s (fun found s' =>
      found = (m.removeGame id).1 ∧ Keeps s' (m.removeGame id).2)

/-! ## Memory -/

namespace Memory

theorem saveGame_old {m : Memory} {game : Game} (h : game.id ≠ 0) :
    m.saveGame game = (game, { m with games := insertGame game m.games }) := by
  unfold Memory.saveGame
  rw [if_neg h]

theorem gameView_inj {m m' : Memory} (h : m.gameView = m'.gameView) :
    m.lastGame = m'.lastGame ∧ m.games = m'.games := Prod.mk.inj h

theorem gameView_saveGame {m m' : Memory} (h : m.gameView = m'.gameView) (game : Game) :
    (m.saveGame game).1 = (m'.saveGame game).1 ∧
      (m.saveGame game).2.gameView = (m'.saveGame game).2.gameView := by
  obtain ⟨hlast, hgames⟩ := gameView_inj h
  unfold Memory.saveGame Memory.gameView
  rw [hlast, hgames]
  split <;> exact ⟨rfl, rfl⟩

end Memory

instance : GameKeeper Memory where
  Keeps m kept := m.gameView = kept.gameView
  quiet := quiet_memory.comp (fun view (kept : Memory) => view = kept.gameView)
  shelf h := congrArg (fun view => Shelf.mk view.1 (view.2.map Game.label)) h
  gameAt? h platform channel := by
    refine atomic_reading ⟨rfl, fun game hgame => ⟨game, ?_, rfl⟩⟩
    rw [← (Memory.gameView_inj h).2]
    exact List.mem_of_find?_eq_some hgame
  gameNamed? h platform name := by
    refine atomic_reading ⟨rfl, fun game hgame => ⟨game, ?_, rfl⟩⟩
    rw [← (Memory.gameView_inj h).2]
    exact List.mem_of_find?_eq_some hgame
  saveGame_new h game _ _ := atomic_changing (Memory.gameView_saveGame h game)
  saveGame_old {s m} h game _ hid _ := by
    have hkept : (s.saveGame game).1 = game := congrArg Prod.fst (Memory.saveGame_old hid)
    exact atomic_changing ⟨hkept, Or.inl (Memory.gameView_saveGame h game).2⟩
  removeGame h id := by
    obtain ⟨hlast, hgames⟩ := Memory.gameView_inj h
    refine atomic_changing ?_
    unfold Memory.removeGame Memory.gameView
    rw [hlast, hgames]
    exact ⟨rfl, rfl⟩

/-! ## Tables -/

section Tables
variable {γ : Type} [Column γ]

namespace Database

/-- The rows are those of the games. -/
def Holds (d : Database γ) (m : Memory) : Prop :=
  d.gameView = (m.lastGame, m.games.map Game.row)

variable {d : Database γ} {m : Memory} (h : d.Holds m)
include h

theorem Holds.last : d.lastGame = m.lastGame := (Prod.mk.inj h).1

theorem Holds.rows : d.games = m.games.map Game.row := (Prod.mk.inj h).2

theorem Holds.mem_of_find? {p : GameRow γ → Bool} {row : GameRow γ}
    (hrow : d.games.find? p = some row) : ∃ kept ∈ m.games, kept.row = row := by
  have hmem := List.mem_of_find?_eq_some hrow
  rw [h.rows] at hmem
  exact List.mem_map.mp hmem

theorem Holds.add (kept : Game) (hkept : kept.id = (m.lastGame + 1 : Nat))
    (hnumbered : m.shelf.Numbered) :
    ({ d with lastGame := d.lastGame + 1, games := d.games ++ [kept.row] } : Database γ).Holds
      { m with lastGame := m.lastGame + 1, games := insertGame kept m.games } := by
  have hlt : ∀ old ∈ m.games, old.id < kept.id := by
    intro old hold
    have hgiven := (hnumbered.given _ (List.mem_map_of_mem hold)).2
    have hbound : old.id ≤ m.lastGame := hgiven
    omega
  unfold Holds gameView
  dsimp only
  rw [insertGame_of_forall_lt hlt, List.map_append, h.last, h.rows]
  rfl

theorem Holds.overwrite {game : Game} (hnumbered : m.shelf.Numbered)
    (hlabel : ∀ old ∈ m.games, old.id = game.id → old.label = game.label)
    (hthere : ∃ old ∈ m.games, old.id = game.id) :
    (d.overwriteGame game).Holds { m with games := insertGame game m.games } := by
  obtain ⟨old, hold, hid⟩ := hthere
  have hplatform : ∀ other ∈ m.games, other.id = game.id → other.platform = game.platform :=
    fun other hother heq => congrArg Label.platform (hlabel other hother heq)
  unfold Holds gameView overwriteGame
  dsimp only
  rw [insertGame_of_mem (Memory.ordered_games hnumbered) hold hid, h.last, h.rows,
    map_overwrite hplatform]

end Database

theorem mirrors_of_row [Column.ReadsTexts γ] {kept game : Game}
    (h : (kept.row : GameRow γ).game = .ok game) : game.Mirrors kept := by
  have hread {items found : List String}
      (hfound : Column.decodeWith Column.texts? (Column.ofStrings items : γ) = .ok found) :
      found = items := by
    rw [Column.ReadsTexts.texts] at hfound
    cases hfound
    rfl
  obtain ⟨masters, hmasters, h⟩ := ok_of_bind h
  obtain ⟨players, hplayers, h⟩ := ok_of_bind h
  obtain ⟨observers, hobservers, h⟩ := ok_of_bind h
  obtain ⟨areas, hareas, h⟩ := ok_of_bind h
  obtain ⟨config, -, h⟩ := ok_of_bind h
  obtain ⟨roulette, -, h⟩ := ok_of_bind h
  cases h
  rw [hread hmasters, hread hplayers, hread hobservers, hread hareas]
  rfl

theorem Database.Holds.mirrors [Column.ReadsTexts γ] {d : Database γ} {m : Memory} (h : d.Holds m)
    {p : GameRow γ → Bool} {game : Game}
    (hfound : Database.decodeFound GameRow.game (d.games.find? p) = .ok (some game)) :
    ∃ kept ∈ m.games, game.Mirrors kept := by
  obtain ⟨row, hrow, hgame⟩ := exists_of_decodeFound hfound
  obtain ⟨kept, hkept, rfl⟩ := h.mem_of_find? hrow
  exact ⟨kept, hkept, mirrors_of_row hgame⟩

instance [Column.ReadsTexts γ] : GameKeeper (Database γ) where
  Keeps := Database.Holds
  quiet := quiet_tables.comp
    (fun view (m : Memory) => view = (m.lastGame, m.games.map Game.row))
  shelf {s m} h := by
    have hlabels : s.games.map GameRow.label = m.games.map Game.label := by
      rw [h.rows, List.map_map]
      rfl
    exact congrArg₂ Shelf.mk h.last hlabels
  gameAt? h platform channel := by
    refine atomic_readingOrFail (fun found hfound => ⟨rfl, fun game hgame => ?_⟩)
    cases hgame
    exact h.mirrors (Database.decodeFound_of_gameAt? hfound)
  gameNamed? h platform name := by
    refine atomic_readingOrFail (fun found hfound => ⟨rfl, fun game hgame => ?_⟩)
    cases hgame
    exact h.mirrors hfound
  saveGame_new {s m} h game hnumbered hid := by
    unfold Atomic
    simp only [Store.saveGame, Database.saveGame, Memory.saveGame]
    rw [run_get, if_pos hid, if_pos hid]
    cases (s.gameNamed? game.platform game.name).isSome with
    | true => rfl
    | false =>
      rw [h.last]
      refine ⟨rfl, ?_⟩
      have hadded := h.add { game with id := (m.lastGame + 1 : Nat) } rfl hnumbered
      rw [h.last] at hadded
      exact hadded
  saveGame_old {s m} h game hnumbered hid hlabel := by
    unfold Atomic
    simp only [Store.saveGame, Database.saveGame, Memory.saveGame]
    rw [run_get, if_neg hid, if_neg hid]
    cases hold : s.games.find? (fun row => row.id = game.id) with
    | none =>
      -- no row has the number, and none is made
      refine ⟨rfl, Or.inr ⟨h, fun old hmem heq => ?_⟩⟩
      have hrow : (old.row : GameRow γ) ∈ s.games := by
        rw [h.rows]
        exact List.mem_map_of_mem hmem
      exact List.find?_eq_none.mp hold _ hrow (decide_eq_true heq)
    | some row =>
      obtain ⟨kept, hkept, rfl⟩ := h.mem_of_find? hold
      have hfound := List.find?_some hold
      have hsame : kept.id = game.id := of_decide_eq_true hfound
      dsimp only
      cases s.nameInUse (kept.row : GameRow γ).platform game.name game.id with
      | true => rfl
      | false => exact ⟨rfl, Or.inl (h.overwrite hnumbered hlabel ⟨kept, hkept, hsame⟩)⟩
  removeGame {s m} h id := by
    refine atomic_changing ?_
    unfold Database.removeGame Memory.removeGame Database.Holds Database.gameView
    dsimp only
    rw [h.rows, h.last, List.any_map, List.filter_map]
    exact ⟨rfl, rfl⟩

end Tables
end DiceHost
