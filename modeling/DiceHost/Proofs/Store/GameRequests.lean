import DiceHost.Proofs.Store.Clients
import DiceHost.Proofs.Store.GameLaws

/-! # What requests do to games

A request to a store that keeps a shelf does one of four things: it leaves the shelf as it is, opens
a game under a free name, saves a changed game under its old label, or takes down the games of one
number.
-/
namespace DiceHost
open GameStore (shelf)
variable {σ α : Type} [Store σ] [GameStore σ]

theorem quiet_shelf [CardStore σ] : Quiet (shelf : σ → Shelf) where
  card? owner name := (steady_self.card? owner name).of_same
  activeCard? owner := (steady_self.activeCard? owner).of_same
  binding? owner group := (steady_self.binding? owner group).of_same
  gameAt? platform channel := (steady_self.gameAt? platform channel).of_same
  value? scope id key := (steady_self.value? scope id key).of_same
  values scope id := (steady_self.values scope id).of_same
  cards owner := by
    intro s
    rw [(CardStore.cards s owner).same (fun _ _ h => h.1)]
  gameNamed? platform name := by
    intro s
    rw [(GameStore.gameNamed? s platform name).same (fun _ _ h => h.1)]
  createCard := GameStore.createCard
  setAttributes := GameStore.setAttributes
  activate := GameStore.activate
  removeCard := GameStore.removeCard
  setBinding := GameStore.setBinding
  removeBinding := GameStore.removeBinding
  setValue := GameStore.setValue

/-! ## Single requests -/

theorem atomic_openNamed {s : σ} (h : (shelf s).Numbered) (platform channel name : String) :
    Atomic (Game.openNamed platform channel name) s (fun kept s' =>
      (shelf s).Free platform name ∧
      kept.label = ⟨((shelf s).last + 1 : Nat), platform, name⟩ ∧
      shelf s' = (shelf s).add platform name) := by
  refine (GameStore.gameNamed? s platform name).bind_read ?_
  rintro found ⟨-, hfree⟩
  cases found with
  | some game => rfl
  | none =>
    refine (GameStore.saveGame_new s h rfl).mono ?_
    rintro kept s' ⟨hkept, hadded⟩
    exact ⟨hfree rfl, hkept, hadded⟩

namespace Request

/-- What a request does, together with the game it gives. -/
inductive Effect (handles : List Game) (s : σ) (request : Request) : Option Game → σ → Prop
  | quiet {given : Option Game} {s' : σ} (hcloses : request.closes handles = [])
      (hshelf : shelf s' = shelf s)
      (hgiven : ∀ game ∈ given, game ∈ handles ∨ game.label ∈ (shelf s).labels) :
      Effect handles s request given s'
  | opened {kept : Game} {s' : σ} {platform name : String}
      (hcloses : request.closes handles = []) (hfree : (shelf s).Free platform name)
      (hlabel : kept.label = ⟨((shelf s).last + 1 : Nat), platform, name⟩)
      (hshelf : shelf s' = (shelf s).add platform name) : Effect handles s request (some kept) s'
  | saved {handle : Nat} {change : GameChange} {game changed : Game}
      (hrequest : request = .updateGame handle change) (hgame : handles[handle]? = some game)
      (hlabel : changed.label = game.label) :
      Effect handles s request (some changed) ((Store.saveGame changed : Action σ Game) s).2
  | closed {handle : Nat} {game : Game} {s' : σ} (hrequest : request = .destroyGame handle)
      (hgame : handles[handle]? = some game) (hshelf : shelf s' = (shelf s).without game.id) :
      Effect handles s request none s'

/-- The effect of a request as it is run. -/
def HasEffect (counter : UInt32) (handles : List Game) (s : σ) (request : Request) : Prop :=
  let result := request.run counter handles s
  request.Effect handles s result.1.2.handle? result.2

section Effect
variable {counter : UInt32} {handles : List Game} {s : σ}

theorem hasEffect_of_run {request : Request} {result : UInt32 × Answer} {s' : σ}
    (hrun : request.run counter handles s = (result, s'))
    (heffect : request.Effect handles s result.2.handle? s') :
    request.HasEffect counter handles s := by
  unfold HasEffect
  rw [hrun]
  exact heffect

/-- A request that gives no game and leaves the games alone. -/
theorem effect_of_same {request : Request} {result : UInt32 × Answer} {s' : σ}
    (hrun : request.run counter handles s = (result, s')) (hcloses : request.closes handles = [])
    (hhandle : result.2.handle? = none) (hshelf : shelf s' = shelf s) :
    request.HasEffect counter handles s := by
  refine hasEffect_of_run hrun (.quiet hcloses hshelf (fun game hgame => ?_))
  rw [hhandle] at hgame
  cases hgame

theorem effect_of_passes {request : Request} (h : request.Passes shelf counter handles s) :
    request.HasEffect counter handles s := by
  have hrun : request.run counter handles s =
      ((request.run counter handles s).1, (request.run counter handles s).2) := rfl
  exact effect_of_same hrun h.closes h.gives h.spares

theorem effect_of_found {request : Request} {x : Action σ (Option Game)}
    (hx : Atomic x s (fun found s' => s' = s ∧ ∀ game ∈ found, game.label ∈ (shelf s).labels))
    (hrun : request.run counter handles s = answering counter .gameIfAny x s)
    (hcloses : request.closes handles = []) : request.HasEffect counter handles s := by
  unfold Atomic at hx
  cases hread : x s with
  | mk outcome s' =>
    rw [hread] at hx
    have hanswer := hrun.trans (run_bind hread)
    cases outcome with
    | error failure => exact effect_of_same hanswer hcloses rfl (congrArg shelf hx)
    | ok found =>
      obtain ⟨rfl, hfound⟩ := hx
      cases found with
      | none => exact effect_of_same hanswer hcloses rfl rfl
      | some game =>
        refine hasEffect_of_run hanswer (.quiet hcloses rfl (fun other hother => ?_))
        exact Or.inr (hfound other hother)

theorem effect_noHandle {request : Request}
    (hrun : request.run counter handles s = ((counter, .noHandle), s))
    (hcloses : request.closes handles = []) : request.HasEffect counter handles s :=
  effect_of_same hrun hcloses rfl rfl

theorem effect_createGame (h : (shelf s).Numbered) (platform channel : String)
    (name : Option String) :
    (createGame platform channel name).HasEffect counter handles s := by
  have hopen := atomic_openNamed h platform channel (title counter name)
  unfold Atomic at hopen
  cases hx : (Game.openNamed platform channel (title counter name) : Action σ Game) s with
  | mk outcome s' =>
    rw [hx] at hopen
    have hrun : (createGame platform channel name).run counter handles s = _ := run_createGame hx
    cases outcome with
    | error failure => exact effect_of_same hrun rfl rfl (congrArg shelf hopen)
    | ok kept =>
      obtain ⟨hfree, hlabel, hshelf⟩ := hopen
      exact hasEffect_of_run hrun (.opened rfl hfree hlabel hshelf)

/-- A change is saved through a handle, and a handle has the number of a game that was kept. -/
theorem effect_updateGame (hhandles : ∀ game ∈ handles, game.id ≠ 0) (handle : Nat)
    (change : GameChange) : (updateGame handle change).HasEffect counter handles s := by
  cases hgame : handles[handle]? with
  | none => exact effect_noHandle (by rw [run, hgame]; rfl) rfl
  | some game =>
    have hmem := List.mem_of_getElem? hgame
    cases hchange : change.apply game with
    | none =>
      have hrun : (updateGame handle change).run counter handles s =
          ((counter, .updated game (.ok false)), s) := by
        rw [run, hgame]
        exact run_bind (run_update_none hchange s)
      refine hasEffect_of_run hrun (.quiet rfl rfl (fun other hother => ?_))
      cases hother
      exact Or.inl hmem
    | some changed =>
      have hlabel := GameChange.label_of_apply hchange
      have hid : changed.id = game.id := congrArg Label.id hlabel
      have hsaved := GameStore.saveGame_same s (hid ▸ hhandles game hmem)
      unfold Atomic at hsaved
      have heffect : (updateGame handle change).Effect handles s (some changed)
          ((Store.saveGame changed : Action σ Game) s).2 := .saved rfl hgame hlabel
      cases hx : (Store.saveGame changed : Action σ Game) s with
      | mk outcome s' =>
        rw [hx] at hsaved heffect
        have hupdate := run_update_some hchange hx
        cases outcome with
        | ok kept =>
          subst hsaved
          refine @hasEffect_of_run _ _ _ _ _ _ _ (counter, .updated kept (.ok true)) s' ?_ heffect
          rw [run, hgame]
          exact run_bind hupdate
        | error failure =>
          refine @hasEffect_of_run _ _ _ _ _ _ _ (counter, .updated changed (.error failure)) s'
            ?_ heffect
          rw [run, hgame]
          exact run_bind hupdate

theorem effect_destroyGame (handle : Nat) : (destroyGame handle).HasEffect counter handles s := by
  cases hgame : handles[handle]? with
  | none =>
    refine effect_noHandle (by rw [run, hgame]; rfl) ?_
    rw [closes, hgame]
    rfl
  | some game =>
    have hrun : (destroyGame handle).run counter handles s =
        ((counter, .changed ((Store.removeGame game.id : Action σ Bool) s).1),
          ((Store.removeGame game.id : Action σ Bool) s).2) := by
      rw [run, hgame]
      rfl
    exact hasEffect_of_run hrun (.closed rfl hgame (GameStore.removeGame s game.id))

/-- Every request has one of the four effects. -/
theorem hasEffect [CardStore σ] (h : (shelf s).Numbered) (hhandles : ∀ game ∈ handles, game.id ≠ 0)
    (request : Request) : request.HasEffect counter handles s := by
  by_cases hquiet : request.isQuiet = true
  · exact effect_of_passes (quiet_shelf.passes hquiet)
  cases request with
  | gameAt platform channel =>
    exact effect_of_found (GameStore.gameAt? s platform channel) rfl rfl
  | gameNamed platform name =>
    refine effect_of_found ((GameStore.gameNamed? s platform name).mono ?_) rfl rfl
    rintro found s' ⟨hsame, hfound, -⟩
    exact ⟨hsame, hfound⟩
  | createGame platform channel name => exact effect_createGame h platform channel name
  | updateGame handle change => exact effect_updateGame hhandles handle change
  | destroyGame handle => exact effect_destroyGame handle
  | _ => exact absurd rfl hquiet

end Effect
end Request
end DiceHost
