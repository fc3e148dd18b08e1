import DiceHost.Proofs.Store.GameLaws
import DiceHost.Proofs.Store.Services

/-! # Changes that are not saved

A change is made to the handle before it is saved, and when the save fails the handle keeps it.
What is stored is as it was. But a handle that already lists a user or a channel has nothing to
enter there, so the same request is never saved through it again; only a setting is.
-/
namespace DiceHost

/-! ## A change made twice -/

theorem Game.usersIn_setUsersIn (game : Game) (role : Role) (users : List String) :
    (game.setUsersIn role users).usersIn role = users := by
  cases role <;> rfl

theorem Game.enter_enter {items more : List String} {item : String}
    (h : Game.enter items item = some more) : Game.enter more item = none := by
  unfold Game.enter at h
  split at h
  · cases h
  · cases h
    simp [Game.enter]

theorem Game.leave_leave {items fewer : List String} {item : String}
    (h : Game.leave items item = some fewer) : Game.leave fewer item = none := by
  unfold Game.leave at h
  split at h
  · cases h
    simp [Game.leave]
  · cases h

/-- A setting is put to a value whatever it was. -/
def GameChange.isSetting : GameChange → Bool
  | .addUser .. | .removeUser .. | .addArea _ | .removeArea _ => false
  | .configure .. | .setRoulette .. | .clearRoulette | .setLogging _ => true

/-- A setting can be made again, with nothing new; what is entered or left cannot. -/
theorem GameChange.apply_again {change : GameChange} {game changed : Game}
    (h : change.apply game = some changed) :
    change.apply changed = if change.isSetting then some changed else none := by
  cases change with
  | addUser role user =>
    obtain ⟨users, husers, rfl⟩ := Option.map_eq_some_iff.mp h
    simp [apply, isSetting, Game.usersIn_setUsersIn, Game.enter_enter husers]
  | removeUser role user =>
    obtain ⟨users, husers, rfl⟩ := Option.map_eq_some_iff.mp h
    simp [apply, isSetting, Game.usersIn_setUsersIn, Game.leave_leave husers]
  | addArea channel =>
    obtain ⟨areas, hareas, rfl⟩ := Option.map_eq_some_iff.mp h
    simp [apply, isSetting, Game.enter_enter hareas]
  | removeArea channel =>
    obtain ⟨areas, hareas, rfl⟩ := Option.map_eq_some_iff.mp h
    simp [apply, isSetting, Game.leave_leave hareas]
  | configure key value =>
    cases h
    simp [apply, isSetting, KeyTable.insert_insert]
  | setRoulette face data =>
    cases h
    simp [apply, isSetting, KeyTable.insert_insert]
  | clearRoulette =>
    cases h
    rfl
  | setLogging enabled =>
    cases h
    rfl

/-! ## Saves that fail -/

section Failing
variable {σ : Type} [Store σ]

/-- What a request for a change gives, and the store after it. -/
abbrev Game.attempt (game : Game) (change : GameChange) (s : σ) :
    (Game × Except Failure Bool) × σ :=
  (Game.update game change : StateM σ (Game × Except Failure Bool)) s

/-- The request on a handle that keeps the change. -/
theorem attempt_again {change : GameChange} {game changed : Game}
    (h : change.apply game = some changed) (s : σ) :
    changed.attempt change s =
      if change.isSetting then game.attempt change s else ((changed, .ok false), s) := by
  have hagain := GameChange.apply_again h
  cases hsetting : change.isSetting with
  | false =>
    rw [hsetting] at hagain
    exact run_update_none hagain s
  | true =>
    rw [hsetting] at hagain
    unfold Game.attempt
    rw [run_update_some hagain rfl, run_update_some h rfl]
    rfl

/-- A save that fails leaves the store as it was. -/
def SavesWhole (σ : Type) [Store σ] : Prop :=
  ∀ (game : Game) (s : σ), Atomic (Store.saveGame game) s (fun _ _ => True)

theorem savesWhole_memory : SavesWhole Memory := fun _ _ => trivial

theorem savesWhole_tables {γ : Type} [Column γ] : SavesWhole (Database γ) := by
  intro game d
  by_cases hid : game.id = 0
  · exact (Database.atomic_saveGame_new hid).mono (fun _ _ _ => trivial)
  · exact (GameStore.saveGame_same d hid).mono (fun _ _ _ => trivial)

theorem inner_of_failed_save (hwhole : SavesWhole σ) {s : Faulty σ} {game : Game}
    {failure : Failure}
    (h : ((Store.saveGame game : Action (Faulty σ) Game) s).1 = .error failure) :
    ((Store.saveGame game : Action (Faulty σ) Game) s).2.inner = s.inner := by
  have hsettles : Settles s.inner (Store.saveGame game) s (fun _ _ => True) :=
    settles_attempt rfl (hwhole game s.inner)
  unfold Settles at hsettles
  split at hsettles
  · next saved s' heq =>
    rw [heq] at h
    cases h
  · next other s' heq =>
    rw [heq]
    exact hsettles

/-- A request whose save fails, whether the store fails by itself or is made to: nothing is stored
and the failure is answered, but the handle keeps the change. Repeated on that handle, whatever
happened to the store since, a setting is saved as it would have been; of a user or a channel the
answer is that there is nothing to change, and nothing is saved. -/
theorem attempt_failed (hwhole : SavesWhole σ) {s : Faulty σ} {game : Game} {change : GameChange}
    (hfails : ∀ changed, change.apply game = some changed →
      ∃ failure, ((Store.saveGame changed : Action (Faulty σ) Game) s).1 = .error failure) :
    (game.attempt change s).2.inner = s.inner ∧
    match change.apply game with
    | none => game.attempt change s = ((game, .ok false), s)
    | some changed =>
      (∃ failure, ((Store.saveGame changed : Action (Faulty σ) Game) s).1 = .error failure ∧
        (game.attempt change s).1 = (changed, .error failure)) ∧
      ∀ later : Faulty σ, changed.attempt change later =
        if change.isSetting then game.attempt change later else ((changed, .ok false), later) := by
  cases hchange : change.apply game with
  | none =>
    have hnone : game.attempt change s = ((game, .ok false), s) := run_update_none hchange s
    exact ⟨by rw [hnone], hnone⟩
  | some changed =>
    obtain ⟨failure, hfailure⟩ := hfails changed hchange
    have hinner := inner_of_failed_save hwhole hfailure
    have hattempt : game.attempt change s =
        ((changed, .error failure), ((Store.saveGame changed : Action (Faulty σ) Game) s).2) :=
      run_update_some hchange (Prod.ext hfailure rfl)
    rw [hattempt]
    exact ⟨hinner, ⟨failure, hfailure, rfl⟩, attempt_again hchange⟩

end Failing

/-! ## A user who is not entered -/

def night : Game := { Game.fresh "night" "qq" "hall" with id := 1 }

/-- The first operation is refused, and no other. -/
def refusingFirst : Faulty Memory where
  inner := { lastGame := 1, games := [night] }
  refusal calls _ := if calls = 0 then some (.store "disk full") else none

/-- The same in tables. -/
def refusingFirstRow : Faulty (Database JsonText) where
  inner := { lastGame := 1, games := [night.row] }
  refusal := refusingFirst.refusal

theorem attempt_failed_night :
    let joined : Game := { night with players := ["ann"] }
    let change : GameChange := .addUser .player "ann"
    ((SavesWhole Memory ∧ ∀ changed, change.apply night = some changed →
        ∃ failure, ((Store.saveGame changed : Action (Faulty Memory) Game) refusingFirst).1 =
          .error failure) ∧
      (night.attempt change refusingFirst).2.inner.games = [night] ∧
      (night.attempt change refusingFirst).1.1 = joined ∧
      joined.attempt change (night.attempt change refusingFirst).2 =
        ((joined, .ok false), (night.attempt change refusingFirst).2)) ∧
    (SavesWhole (Database JsonText) ∧ ∀ changed, change.apply night = some changed →
        ∃ failure, ((Store.saveGame changed : Action (Faulty (Database JsonText)) Game)
          refusingFirstRow).1 = .error failure) ∧
      (night.attempt change refusingFirstRow).2.inner.games = [night.row] ∧
      (night.attempt change refusingFirstRow).1.1 = joined ∧
      joined.attempt change (night.attempt change refusingFirstRow).2 =
        ((joined, .ok false), (night.attempt change refusingFirstRow).2) := by
  intro joined change
  have hfails : ∀ changed, change.apply night = some changed →
      ∃ failure, ((Store.saveGame changed : Action (Faulty Memory) Game) refusingFirst).1 =
        .error failure := fun _ _ => ⟨_, rfl⟩
  have hfailsRow : ∀ changed, change.apply night = some changed →
      ∃ failure, ((Store.saveGame changed : Action (Faulty (Database JsonText)) Game)
        refusingFirstRow).1 = .error failure := fun _ _ => ⟨_, rfl⟩
  obtain ⟨hinner, ⟨failure, -, hattempt⟩, hagain⟩ := attempt_failed savesWhole_memory hfails
  obtain ⟨hinnerRow, ⟨failureRow, -, hattemptRow⟩, hagainRow⟩ :=
    attempt_failed savesWhole_tables hfailsRow
  refine ⟨⟨⟨savesWhole_memory, hfails⟩, ?_, ?_, hagain _⟩, ⟨savesWhole_tables, hfailsRow⟩, ?_, ?_,
    hagainRow _⟩
  · rw [hinner]
    rfl
  · rw [hattempt]
    rfl
  · rw [hinnerRow]
    rfl
  · rw [hattemptRow]
    rfl

/-- The store works again, and the handle that failed has nothing to save where the game as it was
stored has. -/
theorem unsaved_user_lost :
    let change : GameChange := .addUser .player "ann"
    let failed := night.attempt change refusingFirst
    let again := failed.1.1.attempt change failed.2
    let unharmed := night.attempt change failed.2
    failed.1.2 = .error (.store "disk full") ∧ failed.1.1 ≠ night ∧
    again.1.2 = .ok false ∧ again.2.inner.games = [night] ∧
    unharmed.1.2 = .ok true ∧ unharmed.2.inner.games = [{ night with players := ["ann"] }] := by
  decide

end DiceHost
