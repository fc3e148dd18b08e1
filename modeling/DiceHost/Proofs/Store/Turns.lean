import DiceHost.Proofs.Store.Clients
import DiceHost.Proofs.Store.GameKeepers

/-! # What one request does to games

Whatever a store refuses, a request leaves the games as they are, opens one, saves a change that was
made to a handle, or removes one. A change that was not saved stays with the handle.
-/
namespace DiceHost

theorem Memory.removeGame_of_gone {m : Memory} {id : Int} (h : (m.removeGame id).1 = false) :
    (m.removeGame id).2 = m := by
  have hgone : ∀ game ∈ m.games, decide (game.id ≠ id) = true := by
    intro game hgame
    simpa using List.any_eq_false.mp h game hgame
  unfold Memory.removeGame
  rw [List.filter_eq_self.mpr hgone]

namespace Request

/-- The numbers of the games that a request has destroyed, by its answer. -/
def destroys (handles : List Game) (request : Request) : Answer → List Int
  | .changed (.ok true) => request.closes handles
  | _ => []

/-- The answer to a request with the counter after it, and the games after it. -/
inductive Turn (counter : UInt32) (handles : List Game) (m : Memory) :
    Request → UInt32 × Answer → Memory → Prop
  | quiet {request : Request} {next : UInt32} {answer : Answer}
      (hcounter : next = request.counterAfter counter)
      (hgiven : ∀ game ∈ answer.handle?, game ∈ handles ∨ ∃ kept ∈ m.games, game.Mirrors kept)
      (hunsaved : ∀ game, answer ≠ .updated game (.ok true))
      (hdestroys : request.destroys handles answer = []) :
      Turn counter handles m request (next, answer) m
  | opened {platform channel : String} {name : Option String} {kept : Game} {m' : Memory}
      (hsaved : m.saveGame (Game.fresh (title counter name) platform channel) = (kept, m')) :
      Turn counter handles m (.createGame platform channel name)
        (counted counter name, .game (.ok kept)) m'
  | unsaved {handle : Nat} {change : GameChange} {before changed : Game} {failure : Failure}
      (hhandle : handles[handle]? = some before) (hchange : change.apply before = some changed) :
      Turn counter handles m (.updateGame handle change)
        (counter, .updated changed (.error failure)) m
  | saved {handle : Nat} {change : GameChange} {before changed : Game} {m' : Memory}
      (hhandle : handles[handle]? = some before) (hchange : change.apply before = some changed)
      (hput : m' = { m with games := insertGame changed m.games } ∨
        m' = m ∧ ∀ old ∈ m.games, old.id ≠ changed.id) :
      Turn counter handles m (.updateGame handle change) (counter, .updated changed (.ok true)) m'
  | removed {handle : Nat} {game : Game} (hhandle : handles[handle]? = some game) :
      Turn counter handles m (.destroyGame handle) (counter, .changed (.ok true))
        (m.removeGame game.id).2

open GameKeeper (Keeps)
variable {σ α : Type} [Store σ] [GameStore σ] [GameKeeper σ]

/-- The request as it is run takes one of these turns. -/
def TakesTurn (counter : UInt32) (handles : List Game) (m : Memory) (s : Faulty σ)
    (request : Request) : Prop :=
  let result := request.run counter handles s
  ∃ m', request.Turn counter handles m result.1 m' ∧ Keeps result.2.inner m'

section Single
variable {counter : UInt32} {handles : List Game} {m : Memory} {s : Faulty σ}

theorem takesTurn_of_run {request : Request} {result : UInt32 × Answer} {s' : Faulty σ}
    {m' : Memory} (hrun : request.run counter handles s = (result, s'))
    (hturn : request.Turn counter handles m result m') (hkeeps : Keeps s'.inner m') :
    request.TakesTurn counter handles m s := by
  unfold TakesTurn
  rw [hrun]
  exact ⟨m', hturn, hkeeps⟩

variable (h : Keeps s.inner m)
include h

theorem takesTurn_of_same {request : Request} {next : UInt32} {answer : Answer} {s' : Faulty σ}
    (hrun : request.run counter handles s = ((next, answer), s'))
    (hcounter : next = request.counterAfter counter) (hgives : answer.handle? = none)
    (hdestroys : request.destroys handles answer = []) (hsame : s'.inner = s.inner) :
    request.TakesTurn counter handles m s := by
  refine takesTurn_of_run hrun (.quiet hcounter ?_ ?_ hdestroys) (hsame ▸ h)
  · intro game hgame
    rw [hgives] at hgame
    cases hgame
  · rintro game rfl
    cases hgives

theorem takesTurn_of_quiet {request : Request} (hquiet : request.isQuiet = true) :
    request.TakesTurn counter handles m s := by
  have hpasses : request.Passes (fun s : Faulty σ => Keeps s.inner) counter handles s :=
    (GameKeeper.quiet.faulty).passes hquiet
  have hdestroys (answer : Answer) : request.destroys handles answer = [] := by
    unfold destroys
    rw [hpasses.closes]
    split <;> rfl
  refine ⟨m, .quiet (hpasses.uncounted.trans (counterAfter_of_quiet hquiet counter).symm) ?_ ?_
    (hdestroys _), ?_⟩
  · intro game hgame
    rw [hpasses.gives] at hgame
    cases hgame
  · intro game hanswer
    have hgives := hpasses.gives
    rw [hanswer] at hgives
    cases hgives
  · rw [hpasses.spares]
    exact h

theorem takesTurn_of_found {request : Request} {operation : Store.Operation}
    {x : Action σ (Option Game)}
    (hx : Atomic x s.inner (fun found s' => s' = s.inner ∧
      ∀ game ∈ found, ∃ kept ∈ m.games, game.Mirrors kept))
    (hrun : request.run counter handles s =
      answering counter .gameIfAny (Faulty.attempt operation x) s)
    (hcounter : request.counterAfter counter = counter)
    (hdestroys : ∀ outcome, request.destroys handles (.gameIfAny outcome) = []) :
    request.TakesTurn counter handles m s := by
  have hfound : Settles s.inner (Faulty.attempt operation x) s _ := settles_attempt rfl hx
  unfold Settles at hfound
  cases hread : Faulty.attempt operation x s with
  | mk outcome s' =>
    rw [hread] at hfound
    have hanswer := hrun.trans (run_bind hread)
    cases outcome with
    | error failure => exact takesTurn_of_same h hanswer hcounter.symm rfl (hdestroys _) hfound
    | ok found =>
      obtain ⟨hsame, hshown⟩ := hfound
      refine takesTurn_of_run hanswer (.quiet hcounter.symm ?_ ?_ (hdestroys _)) (hsame ▸ h)
      · intro game hgame
        exact Or.inr (hshown game hgame)
      · intro game hanswer
        cases hanswer

theorem takesTurn_createGame (hnumbered : m.shelf.Numbered) (platform channel : String)
    (name : Option String) :
    (createGame platform channel name).TakesTurn counter handles m s := by
  have hopen : Settles s.inner (Game.openNamed platform channel (title counter name)) s
      (fun kept inner => ∃ m',
        m.saveGame (Game.fresh (title counter name) platform channel) = (kept, m') ∧
        Keeps inner m') := by
    refine (settles_attempt rfl (GameKeeper.gameNamed? h platform _)).bind ?_
    rintro found s' ⟨hinner, -⟩
    cases found with
    | some game => exact settles_throw hinner
    | none =>
      refine (settles_attempt hinner (GameKeeper.saveGame_new h hnumbered rfl)).mono ?_
      rintro kept inner ⟨rfl, hkeeps⟩
      exact ⟨_, rfl, hkeeps⟩
  unfold Settles at hopen
  cases hx : (Game.openNamed platform channel (title counter name) : Action (Faulty σ) Game) s with
  | mk outcome s' =>
    rw [hx] at hopen
    have hrun : (createGame platform channel name).run counter handles s = _ := run_createGame hx
    cases outcome with
    | ok kept =>
      obtain ⟨m', hsaved, hkeeps⟩ := hopen
      exact takesTurn_of_run hrun (.opened hsaved) hkeeps
    | error failure => exact takesTurn_of_same h hrun rfl rfl rfl hopen

theorem takesTurn_updateGame (hnumbered : m.shelf.Numbered)
    (hhandles : ∀ game ∈ handles, game.id ≠ 0 ∧
      ∀ old ∈ m.games, old.id = game.id → old.label = game.label)
    (handle : Nat) (change : GameChange) :
    (updateGame handle change).TakesTurn counter handles m s := by
  cases hhandle : handles[handle]? with
  | none =>
    have hrun : (updateGame handle change).run counter handles s = ((counter, .noHandle), s) := by
      rw [run, hhandle]
      rfl
    exact takesTurn_of_same h hrun rfl rfl rfl rfl
  | some before =>
    have hmem := List.mem_of_getElem? hhandle
    cases hchange : change.apply before with
    | none =>
      have hrun : (updateGame handle change).run counter handles s =
          ((counter, .updated before (.ok false)), s) := by
        rw [run, hhandle]
        exact run_bind (run_update_none hchange s)
      refine takesTurn_of_run hrun (.quiet rfl ?_ ?_ rfl) h
      · intro game hgame
        cases hgame
        exact Or.inl hmem
      · intro game hanswer
        cases hanswer
    | some changed =>
      -- the handle may be an old one, but the stored game of its number is called the same
      have hlabel := GameChange.label_of_apply hchange
      have hid : changed.id = before.id := congrArg Label.id hlabel
      obtain ⟨hpositive, hlabels⟩ := hhandles before hmem
      rw [← hid] at hpositive
      rw [← hlabel, ← hid] at hlabels
      have hsave : Settles s.inner (Store.saveGame changed : Action (Faulty σ) Game) s _ :=
        settles_attempt rfl (GameKeeper.saveGame_old h hnumbered hpositive hlabels)
      unfold Settles at hsave
      cases hx : (Store.saveGame changed : Action (Faulty σ) Game) s with
      | mk outcome s' =>
        rw [hx] at hsave
        cases outcome with
        | error failure =>
          have hrun : (updateGame handle change).run counter handles s =
              ((counter, .updated changed (.error failure)), s') := by
            rw [run, hhandle]
            exact run_bind (run_update_some hchange hx)
          exact takesTurn_of_run hrun (.unsaved hhandle hchange) (hsave ▸ h)
        | ok kept =>
          have hrun : (updateGame handle change).run counter handles s =
              ((counter, .updated kept (.ok true)), s') := by
            rw [run, hhandle]
            exact run_bind (run_update_some hchange hx)
          obtain ⟨rfl, hkeeps | ⟨hkeeps, hgone⟩⟩ := hsave
          · rw [Memory.saveGame_old hpositive] at hkeeps
            exact takesTurn_of_run hrun (.saved hhandle hchange (Or.inl rfl)) hkeeps
          · exact takesTurn_of_run hrun (.saved hhandle hchange (Or.inr ⟨rfl, hgone⟩)) hkeeps

theorem takesTurn_destroyGame (handle : Nat) :
    (destroyGame handle).TakesTurn counter handles m s := by
  cases hhandle : handles[handle]? with
  | none =>
    have hrun : (destroyGame handle).run counter handles s = ((counter, .noHandle), s) := by
      rw [run, hhandle]
      rfl
    exact takesTurn_of_same h hrun rfl rfl rfl rfl
  | some game =>
    have hremove : Settles s.inner (Store.removeGame game.id : Action (Faulty σ) Bool) s _ :=
      settles_attempt rfl (GameKeeper.removeGame h game.id)
    unfold Settles at hremove
    cases hx : (Store.removeGame game.id : Action (Faulty σ) Bool) s with
    | mk outcome s' =>
      rw [hx] at hremove
      have hrun : (destroyGame handle).run counter handles s =
          ((counter, .changed outcome), s') := by
        rw [run, hhandle]
        exact run_bind hx
      cases outcome with
      | error failure => exact takesTurn_of_same h hrun rfl rfl rfl hremove
      | ok found =>
        obtain ⟨hfound, hkeeps⟩ := hremove
        cases found with
        | true => exact takesTurn_of_run hrun (.removed hhandle) hkeeps
        | false =>
          -- there was no such game, so nothing is destroyed
          rw [Memory.removeGame_of_gone hfound.symm] at hkeeps
          refine takesTurn_of_run hrun (.quiet rfl ?_ ?_ rfl) hkeeps
          · intro other hother
            cases hother
          · intro other hanswer
            cases hanswer

/-- Every request takes one of the turns. -/
theorem takesTurn (hnumbered : m.shelf.Numbered)
    (hhandles : ∀ game ∈ handles, game.id ≠ 0 ∧
      ∀ old ∈ m.games, old.id = game.id → old.label = game.label)
    (request : Request) : request.TakesTurn counter handles m s := by
  by_cases hquiet : request.isQuiet = true
  · exact takesTurn_of_quiet h hquiet
  cases request with
  | gameAt platform channel =>
    exact takesTurn_of_found h (GameKeeper.gameAt? h platform channel) rfl rfl (fun _ => rfl)
  | gameNamed platform name =>
    exact takesTurn_of_found h (GameKeeper.gameNamed? h platform name) rfl rfl (fun _ => rfl)
  | createGame platform channel name => exact takesTurn_createGame h hnumbered platform channel name
  | updateGame handle change => exact takesTurn_updateGame h hnumbered hhandles handle change
  | destroyGame handle => exact takesTurn_destroyGame h handle
  | _ => exact absurd rfl hquiet

end Single
end Request
end DiceHost
