import DiceHost.Proofs.KeyTable
import DiceHost.Proofs.Store.GameKeepers

/-! # Changes of games

A user or a channel is entered at the end of a list that does not have it, and leaves a list where
it stood, so a list never has one twice. Everything else in a game stays where it is.
-/
namespace DiceHost

/-- No user and no channel is listed twice. -/
structure Game.Distinct (game : Game) : Prop where
  masters : game.masters.Nodup
  players : game.players.Nodup
  observers : game.observers.Nodup
  areas : game.areas.Nodup

/-! ## Lists of users and channels -/

/-- An item that was not there is at the end of the list. -/
def Entered (item : String) (before after : List String) : Prop :=
  item ∉ before ∧ after = before ++ [item]

/-- An item has left the list, and the others stand as they stood. -/
def Departed (item : String) (before after : List String) : Prop :=
  ∃ front back, before = front ++ item :: back ∧ after = front ++ back ∧ item ∉ after

theorem entered_of_enter {items more : List String} {item : String}
    (h : Game.enter items item = some more) : Entered item items more := by
  unfold Game.enter at h
  split at h
  · cases h
  · next hnew =>
    cases h
    exact ⟨by simpa using hnew, rfl⟩

theorem departed_of_leave {items fewer : List String} {item : String}
    (h : Game.leave items item = some fewer) (hitems : items.Nodup) :
    Departed item items fewer := by
  unfold Game.leave at h
  split at h
  · next hthere =>
    cases h
    obtain ⟨front, back, rfl⟩ := List.append_of_mem (List.contains_iff_mem.mp hthere)
    -- the item is there once, so nothing else is left out with it
    obtain ⟨hnot, -⟩ := List.nodup_cons.mp (List.nodup_middle.mp hitems)
    have hfilter : (front ++ item :: back).filter (· != item) = front ++ back := by
      have hkeep : (front ++ back).filter (· != item) = front ++ back := by
        refine List.filter_eq_self.mpr (fun other hother => ?_)
        have hne : other ≠ item := fun heq => hnot (heq ▸ hother)
        simpa using hne
      rw [List.filter_append] at hkeep ⊢
      rw [List.filter_cons_of_neg (by simp), hkeep]
    rw [hfilter]
    exact ⟨front, back, rfl, rfl, hnot⟩
  · cases h

theorem Entered.nodup {item : String} {before after : List String} (h : Entered item before after)
    (hbefore : before.Nodup) : after.Nodup := by
  obtain ⟨hnew, rfl⟩ := h
  rw [List.nodup_append_comm]
  exact List.nodup_cons.mpr ⟨hnew, hbefore⟩

theorem Departed.nodup {item : String} {before after : List String}
    (h : Departed item before after) (hbefore : before.Nodup) : after.Nodup := by
  obtain ⟨front, back, rfl, rfl, -⟩ := h
  exact (List.nodup_cons.mp (List.nodup_middle.mp hbefore)).2

/-! ## Settings -/

/-- A value stands under the key, and the other entries stand as they stood. -/
structure Placed {α : Type} (key : String) (value : α) (before after : KeyTable α) : Prop where
  found : ∀ other, KeyTable.find? after other =
    if other = key then some value else KeyTable.find? before other
  places : ∃ front back, after = front ++ (key, value) :: back ∧
    (before = front ++ back ∨ ∃ old, before = front ++ (key, old) :: back)

theorem placed_insert {α : Type} (key : String) (value : α) (table : KeyTable α) :
    Placed key value table (KeyTable.insert key value table) := by
  refine ⟨fun other => KeyTable.find?_insert key other value table, ?_⟩
  induction table with
  | nil => exact ⟨[], [], rfl, Or.inl rfl⟩
  | cons entry rest ih =>
    unfold KeyTable.insert
    split
    · exact ⟨[], entry :: rest, rfl, Or.inl rfl⟩
    · split
      · next heq => exact ⟨[], rest, rfl, Or.inr ⟨entry.2, by rw [heq]; rfl⟩⟩
      · obtain ⟨front, back, hinsert, hrest⟩ := ih
        refine ⟨entry :: front, back, by rw [hinsert]; rfl, ?_⟩
        rcases hrest with hrest | ⟨old, hrest⟩
        · exact Or.inl (congrArg (entry :: ·) hrest)
        · exact Or.inr ⟨old, congrArg (entry :: ·) hrest⟩

/-! ## Changes -/

/-- What is changed in a game is what was asked for. -/
inductive GameChange.Made (before : Game) : GameChange → Game → Prop
  | addUser {role : Role} {user : String} {users : List String}
      (h : Entered user (before.usersIn role) users) :
      Made before (.addUser role user) (before.setUsersIn role users)
  | removeUser {role : Role} {user : String} {users : List String}
      (h : Departed user (before.usersIn role) users) :
      Made before (.removeUser role user) (before.setUsersIn role users)
  | addArea {channel : String} {areas : List String} (h : Entered channel before.areas areas) :
      Made before (.addArea channel) { before with areas := areas }
  | removeArea {channel : String} {areas : List String} (h : Departed channel before.areas areas) :
      Made before (.removeArea channel) { before with areas := areas }
  | configure {key : String} {value : Json} {config : Fields}
      (h : Placed key value before.config config) :
      Made before (.configure key value) { before with config := config }
  | setRoulette {face : Nat} {data : Json} {roulette : Fields}
      (h : Placed (toString face) data before.roulette roulette) :
      Made before (.setRoulette face data) { before with roulette := roulette }
  | clearRoulette : Made before .clearRoulette { before with roulette := [] }
  | setLogging {enabled : Bool} :
      Made before (.setLogging enabled) { before with logging := enabled }

namespace Game.Distinct
variable {game : Game}

theorem usersIn (h : game.Distinct) (role : Role) : (game.usersIn role).Nodup := by
  cases role with
  | master => exact h.masters
  | player => exact h.players
  | observer => exact h.observers

theorem setUsersIn (h : game.Distinct) (role : Role) {users : List String} (husers : users.Nodup) :
    (game.setUsersIn role users).Distinct := by
  cases role with
  | master => exact { h with masters := husers }
  | player => exact { h with players := husers }
  | observer => exact { h with observers := husers }

end Game.Distinct

theorem GameChange.made_of_apply {change : GameChange} {before after : Game}
    (h : change.apply before = some after) (hbefore : before.Distinct) :
    change.Made before after := by
  cases change with
  | addUser role user =>
    obtain ⟨users, husers, rfl⟩ := Option.map_eq_some_iff.mp h
    exact .addUser (entered_of_enter husers)
  | removeUser role user =>
    obtain ⟨users, husers, rfl⟩ := Option.map_eq_some_iff.mp h
    exact .removeUser (departed_of_leave husers (hbefore.usersIn role))
  | addArea channel =>
    obtain ⟨areas, hareas, rfl⟩ := Option.map_eq_some_iff.mp h
    exact .addArea (entered_of_enter hareas)
  | removeArea channel =>
    obtain ⟨areas, hareas, rfl⟩ := Option.map_eq_some_iff.mp h
    exact .removeArea (departed_of_leave hareas hbefore.areas)
  | configure key value =>
    cases h
    exact .configure (placed_insert key value before.config)
  | setRoulette face data =>
    cases h
    exact .setRoulette (placed_insert (toString face) data before.roulette)
  | clearRoulette =>
    cases h
    exact .clearRoulette
  | setLogging enabled =>
    cases h
    exact .setLogging

theorem GameChange.Made.distinct {change : GameChange} {before after : Game}
    (h : change.Made before after) (hbefore : before.Distinct) : after.Distinct := by
  cases h with
  | addUser h => exact hbefore.setUsersIn _ (h.nodup (hbefore.usersIn _))
  | removeUser h => exact hbefore.setUsersIn _ (h.nodup (hbefore.usersIn _))
  | addArea h => exact { hbefore with areas := h.nodup hbefore.areas }
  | removeArea h => exact { hbefore with areas := h.nodup hbefore.areas }
  | configure _ => exact ⟨hbefore.masters, hbefore.players, hbefore.observers, hbefore.areas⟩
  | setRoulette _ => exact ⟨hbefore.masters, hbefore.players, hbefore.observers, hbefore.areas⟩
  | clearRoulette => exact ⟨hbefore.masters, hbefore.players, hbefore.observers, hbefore.areas⟩
  | setLogging => exact ⟨hbefore.masters, hbefore.players, hbefore.observers, hbefore.areas⟩

theorem Game.distinct_fresh (name platform origin : String) :
    (Game.fresh name platform origin).Distinct :=
  ⟨List.nodup_nil, List.nodup_nil, List.nodup_nil, List.nodup_singleton origin⟩

/-! ## Games as they are read -/

theorem Game.Mirrors.label {game kept : Game} (h : game.Mirrors kept) :
    game.label = kept.label := by
  unfold Game.Mirrors at h
  rw [← h]
  rfl

theorem Game.Mirrors.distinct {game kept : Game} (h : game.Mirrors kept) (hkept : kept.Distinct) :
    game.Distinct := by
  unfold Game.Mirrors at h
  rw [← h]
  exact ⟨hkept.masters, hkept.players, hkept.observers, hkept.areas⟩

end DiceHost
