import DiceHost.Proofs.Store.Cards

/-! # Games in two stores

A list of games and a table of game rows hold the same games in the order of their numbers. A
game that is kept under its own name takes the place of the old one in both; this is so as long
as its number is there, for the table never makes a row for a number that it was told.
-/
namespace DiceHost
variable {γ : Type} [Column γ] {p : Json → Prop}

/-- The configuration and the roulette of a game are such as columns hold. -/
def Game.Suits (p : Json → Prop) (game : Game) : Prop :=
  KeyTable.Suits p game.config ∧ KeyTable.Suits p game.roulette

theorem game_row (hfaithful : Column.Faithful γ p) {game : Game} (h : game.Suits p) :
    (game.row : GameRow γ).game = .ok game := by
  simp only [GameRow.game, Game.row, hfaithful.texts, hfaithful.fields h.1, hfaithful.fields h.2]
  rfl

theorem covers?_row [Column.ReadsTexts γ] (channel : String) (game : Game) :
    (game.row : GameRow γ).covers? channel = some (game.areas.contains channel) :=
  Column.ReadsTexts.holds game.areas channel

/-- Overwriting the rows of a number is putting another game there. -/
theorem map_overwrite {games : List Game} {new : Game}
    (h : ∀ game ∈ games, game.id = new.id → game.platform = new.platform) :
    (games.map (Game.row : Game → GameRow γ)).map
        (fun row => if row.id = new.id then row.overwrite new else row) =
      (games.map (fun game => if game.id = new.id then new else game)).map Game.row := by
  rw [List.map_map, List.map_map]
  refine List.map_congr_left (fun game hgame => ?_)
  by_cases heq : game.id = new.id
  · have hrow : (game.row : GameRow γ).id = new.id := heq
    have hplatform : (game.row : GameRow γ).platform = new.platform := h game hgame heq
    simp only [Function.comp_apply, if_pos heq, if_pos hrow, GameRow.overwrite]
    rw [hplatform]
    rfl
  · have hrow : ¬ (game.row : GameRow γ).id = new.id := heq
    simp only [Function.comp_apply, if_neg heq, if_neg hrow]

/-- Two games of one name on a platform. -/
def Game.Same (a b : Game) : Prop := a.platform = b.platform ∧ a.name = b.name

theorem Game.Same.symm {a b : Game} (h : a.Same b) : b.Same a := ⟨h.1.symm, h.2.symm⟩

theorem Game.Same.trans {a b c : Game} (hab : a.Same b) (hbc : b.Same c) : a.Same c :=
  ⟨hab.1.trans hbc.1, hab.2.trans hbc.2⟩

/-- A table holds the games of a list in the order of their numbers, each platform with one game
of a name. What the games hold is such as columns hold. -/
structure GamesMatch (p : Json → Prop) (last : Nat) (rows : List (GameRow γ))
    (games : List Game) : Prop where
  suits : ∀ game ∈ games, game.Suits p
  rows : rows = games.map Game.row
  ordered : games.Pairwise (fun a b => a.id < b.id)
  numbered : ∀ game ∈ games, 0 < game.id ∧ game.id ≤ last
  distinct : games.Pairwise (fun a b => ¬ a.Same b)

/-! ## Places in the order -/

theorem insertGame_of_forall_lt {new : Game} {games : List Game}
    (h : ∀ game ∈ games, game.id < new.id) : insertGame new games = games ++ [new] := by
  induction games with
  | nil => rfl
  | cons game rest ih =>
    have hlt := h game List.mem_cons_self
    have hrest := ih (fun other hother => h other (List.mem_cons_of_mem _ hother))
    unfold insertGame
    rw [if_neg (by omega), if_neg (by omega), hrest]
    rfl

/-- A game takes the place of the one that has its number. -/
theorem insertGame_of_mem {new old : Game} {games : List Game}
    (h : games.Pairwise (fun a b => a.id < b.id)) (hold : old ∈ games) (hid : old.id = new.id) :
    insertGame new games = games.map (fun game => if game.id = new.id then new else game) := by
  induction games with
  | nil => cases hold
  | cons game rest ih =>
    obtain ⟨hfirst, hrest⟩ := List.pairwise_cons.mp h
    unfold insertGame
    rcases List.mem_cons.mp hold with rfl | hold
    · have hsame : rest.map (fun game => if game.id = new.id then new else game) = rest := by
        refine (List.map_congr_left (fun other hother => ?_)).trans (List.map_id rest)
        have hlt := hfirst other hother
        exact if_neg (by omega)
      rw [if_neg (by omega), if_pos hid.symm, List.map_cons, if_pos hid, hsame]
    · have hlt := hfirst old hold
      rw [if_neg (by omega), if_neg (by omega), List.map_cons, if_neg (by omega), ih hrest hold]

theorem mem_insertGame_self (new : Game) (games : List Game) : new ∈ insertGame new games := by
  induction games with
  | nil => exact List.mem_cons_self
  | cons game rest ih =>
    unfold insertGame
    split
    · exact List.mem_cons_self
    · split
      · exact List.mem_cons_self
      · exact List.mem_cons_of_mem _ ih

theorem mem_or_eq_of_mem_insertGame {new game : Game} {games : List Game}
    (h : game ∈ insertGame new games) : game ∈ games ∨ game = new := by
  induction games with
  | nil => exact Or.inr (List.mem_singleton.mp h)
  | cons first rest ih =>
    unfold insertGame at h
    split at h
    · exact (List.mem_cons.mp h).symm
    · split at h
      · exact (List.mem_cons.mp h).symm.imp_left (List.mem_cons_of_mem _)
      · rcases List.mem_cons.mp h with rfl | h
        · exact Or.inl List.mem_cons_self
        · exact (ih h).imp_left (List.mem_cons_of_mem _)

theorem exists_insertGame (new : Game) {games : List Game} {old : Game} (h : old ∈ games) :
    ∃ kept ∈ insertGame new games, kept.id = old.id := by
  induction games with
  | nil => cases h
  | cons game rest ih =>
    unfold insertGame
    split
    · exact ⟨old, List.mem_cons_of_mem _ h, rfl⟩
    · split
      · next hid =>
        rcases List.mem_cons.mp h with rfl | h
        · exact ⟨new, List.mem_cons_self, hid⟩
        · exact ⟨old, List.mem_cons_of_mem _ h, rfl⟩
      · rcases List.mem_cons.mp h with rfl | h
        · exact ⟨old, List.mem_cons_self, rfl⟩
        · obtain ⟨kept, hkept, hid⟩ := ih h
          exact ⟨kept, List.mem_cons_of_mem _ hkept, hid⟩

theorem ordered_insertGame (new : Game) {games : List Game}
    (h : games.Pairwise (fun a b => a.id < b.id)) :
    (insertGame new games).Pairwise (fun a b => a.id < b.id) := by
  induction games with
  | nil => exact List.pairwise_singleton _ _
  | cons first rest ih =>
    obtain ⟨hfirst, hrest⟩ := List.pairwise_cons.mp h
    unfold insertGame
    split
    · next hlt =>
      refine List.pairwise_cons.mpr ⟨fun game hgame => ?_, h⟩
      rcases List.mem_cons.mp hgame with rfl | hgame
      · exact hlt
      · exact hlt.trans (hfirst game hgame)
    · split
      · next heq => exact List.pairwise_cons.mpr ⟨fun game hgame => heq ▸ hfirst game hgame, hrest⟩
      · refine List.pairwise_cons.mpr ⟨fun game hgame => ?_, ih hrest⟩
        rcases mem_or_eq_of_mem_insertGame hgame with hgame | rfl
        · exact hfirst game hgame
        · omega

namespace GamesMatch
variable {last : Nat} {rows : List (GameRow γ)} {games : List Game}
  (h : GamesMatch p last rows games)

theorem nil : GamesMatch p 0 ([] : List (GameRow γ)) [] :=
  ⟨fun _ hmem => absurd hmem List.not_mem_nil, rfl, List.Pairwise.nil,
    fun _ hmem => absurd hmem List.not_mem_nil, List.Pairwise.nil⟩

include h

theorem eq_of_id {a b : Game} (ha : a ∈ games) (hb : b ∈ games) (hid : a.id = b.id) : a = b := by
  have hne : games.Pairwise (fun a b => ¬ a.id = b.id) := h.ordered.imp (fun hlt => by omega)
  exact eq_of_pairwise_not (fun _ _ => Eq.symm) hne ha hb hid

/-- The areas of all rows can be read, so the query finds the row of the first game. -/
theorem rowAt?_eq [Column.ReadsTexts γ] {d : Database γ} (hrows : d.games = rows)
    (platform channel : String) :
    d.rowAt? platform channel =
      .ok ((games.find? (fun game => game.platform = platform ∧ game.areas.contains channel)).map
        Game.row) := by
  have hread : (d.games.any fun row => row.platform = platform ∧ row.covers? channel = none) =
      false := by
    rw [hrows, h.rows, List.any_map, List.any_eq_false]
    intro game _
    rw [Function.comp_apply, covers?_row]
    simp
  rw [Database.rowAt?, hread, hrows, h.rows, List.find?_map]
  refine congrArg (fun q => Except.ok ((games.find? q).map Game.row)) (funext fun game => ?_)
  refine decide_eq_decide.mpr ?_
  rw [covers?_row, Option.some.injEq]
  exact Iff.rfl

theorem find?_named (platform name : String) :
    rows.find? (fun row => row.platform = platform ∧ row.name = name) =
      (games.find? (fun game => game.platform = platform ∧ game.name = name)).map Game.row := by
  rw [h.rows, List.find?_map]
  rfl

theorem find?_id {old : Game} (hold : old ∈ games) :
    rows.find? (fun row => row.id = old.id) = some old.row := by
  have hfound : games.find? (fun game => game.id = old.id) = some old := by
    cases hfind : games.find? (fun game => game.id = old.id) with
    | none =>
      have hnone := List.find?_eq_none.mp hfind old hold
      simp at hnone
    | some other =>
      have hsome := List.find?_some hfind
      have hid : other.id = old.id := of_decide_eq_true hsome
      rw [h.eq_of_id (List.mem_of_find?_eq_some hfind) hold hid]
  rw [h.rows, List.find?_map]
  have hcomp : (fun row : GameRow γ => decide (row.id = old.id)) ∘ Game.row =
      (fun game : Game => decide (game.id = old.id)) := rfl
  rw [hcomp, hfound]
  rfl

/-- The name of a stored game is not in use by another one. -/
theorem not_in_use {old : Game} (hold : old ∈ games) :
    rows.any (fun row => row.platform = old.platform ∧ row.name = old.name ∧ row.id ≠ old.id) =
      false := by
  rw [h.rows, List.any_map, List.any_eq_false]
  intro other hother hall
  obtain ⟨hplatform, hname, hne⟩ := of_decide_eq_true hall
  have hsame : other.Same old := ⟨hplatform, hname⟩
  rw [eq_of_pairwise_not (fun _ _ => Game.Same.symm) h.distinct hother hold hsame] at hne
  exact hne rfl

/-! ### Changes -/

theorem append {new : Game} (hsuits : new.Suits p) (hid : new.id = (last + 1 : Nat))
    (hfresh : ∀ game ∈ games, ¬ game.Same new) :
    GamesMatch p (last + 1) (rows ++ [new.row]) (insertGame new games) := by
  have hlt : ∀ game ∈ games, game.id < new.id := by
    intro game hgame
    have hbound := (h.numbered game hgame).2
    omega
  rw [insertGame_of_forall_lt hlt]
  refine ⟨?_, by rw [h.rows, List.map_append]; rfl, ?_, ?_, ?_⟩
  · intro game hgame
    rcases List.mem_append.mp hgame with hgame | hgame
    · exact h.suits game hgame
    · rw [List.mem_singleton.mp hgame]
      exact hsuits
  · refine List.pairwise_append.mpr ⟨h.ordered, List.pairwise_singleton _ _, ?_⟩
    intro game hgame other hother
    rw [List.mem_singleton.mp hother]
    exact hlt game hgame
  · intro game hgame
    rcases List.mem_append.mp hgame with hgame | hgame
    · have hbound := h.numbered game hgame
      omega
    · rw [List.mem_singleton.mp hgame]
      omega
  · refine List.pairwise_append.mpr ⟨h.distinct, List.pairwise_singleton _ _, ?_⟩
    intro game hgame other hother
    rw [List.mem_singleton.mp hother]
    exact hfresh game hgame

theorem overwrite {new old : Game} (hsuits : new.Suits p) (hold : old ∈ games)
    (hid : old.id = new.id) (hsame : old.Same new) :
    GamesMatch p last (rows.map (fun row => if row.id = new.id then row.overwrite new else row))
      (insertGame new games) := by
  rw [insertGame_of_mem h.ordered hold hid]
  have hkeep : ∀ game ∈ games, (if game.id = new.id then new else game).id = game.id ∧
      (if game.id = new.id then new else game).platform = game.platform ∧
      (if game.id = new.id then new else game).name = game.name := by
    intro game hgame
    split
    · next heq =>
      have hgame := h.eq_of_id hgame hold (heq.trans hid.symm)
      subst hgame
      exact ⟨hid.symm, hsame.1.symm, hsame.2.symm⟩
    · exact ⟨rfl, rfl, rfl⟩
  refine ⟨?_, ?_, ?_, ?_, ?_⟩
  · refine List.forall_mem_map.mpr (fun game hgame => ?_)
    split
    · exact hsuits
    · exact h.suits game hgame
  · rw [h.rows]
    refine map_overwrite (fun game hgame heq => ?_)
    have hplatform := (hkeep game hgame).2.1
    rw [if_pos heq] at hplatform
    exact hplatform.symm
  · refine List.pairwise_map.mpr (h.ordered.imp_of_mem ?_)
    intro a b ha hb hlt
    rw [(hkeep a ha).1, (hkeep b hb).1]
    exact hlt
  · intro game hgame
    obtain ⟨other, hother, rfl⟩ := List.mem_map.mp hgame
    rw [(hkeep other hother).1]
    exact h.numbered other hother
  · refine List.pairwise_map.mpr (h.distinct.imp_of_mem ?_)
    intro a b ha hb hne
    rw [Game.Same, (hkeep a ha).2.1, (hkeep b hb).2.1, (hkeep a ha).2.2, (hkeep b hb).2.2]
    exact hne

theorem remove (id : Int) : GamesMatch p last (rows.filter (fun row => row.id ≠ id))
    (games.filter (fun game => game.id ≠ id)) := by
  refine ⟨fun game hgame => h.suits game (List.mem_filter.mp hgame).1, ?_,
    List.Pairwise.sublist List.filter_sublist h.ordered, ?_,
    List.Pairwise.sublist List.filter_sublist h.distinct⟩
  · rw [h.rows, List.filter_map]
    rfl
  · intro game hgame
    exact h.numbered game (List.mem_filter.mp hgame).1

end GamesMatch
end DiceHost
