import DiceHost.Proofs.Store.CardHistory
import DiceHost.Proofs.Store.GameRequests

/-! # Games through any history

A client keeps the games it is given as handles, also when they are destroyed. In a store of
tables two games never share a name on a platform, and a number that was destroyed is not found
again. In memory a change through a handle of a destroyed game puts the game back, beside a game
that may have taken its name; without such a change the same holds there.
-/
namespace DiceHost
open GameStore (shelf)

namespace Shelf

/-! ## Shelves and handles -/

section Numbered
variable {shelf : Shelf}

theorem mem_add {platform name : String} {label : Label}
    (h : label ∈ (shelf.add platform name).labels) :
    label ∈ shelf.labels ∨ label = ⟨(shelf.last + 1 : Nat), platform, name⟩ :=
  (List.mem_append.mp h).imp_right List.mem_singleton.mp

theorem mem_without {id : Int} {label : Label} :
    label ∈ (shelf.without id).labels ↔ label ∈ shelf.labels ∧ label.id ≠ id := by
  unfold Shelf.without
  rw [List.mem_filter, decide_eq_true_iff]

theorem Numbered.add (h : shelf.Numbered) (platform name : String) :
    (shelf.add platform name).Numbered := by
  have hlast : (shelf.add platform name).last = shelf.last + 1 := rfl
  refine ⟨?_, fun label hlabel => ?_⟩
  · refine List.pairwise_append.mpr ⟨h.ordered, List.pairwise_singleton _ _, ?_⟩
    intro label hlabel new hnew
    have hbound := (h.given label hlabel).2
    rw [List.mem_singleton.mp hnew]
    dsimp only
    omega
  · rw [hlast]
    rcases mem_add hlabel with hlabel | rfl
    · have hbound := h.given label hlabel
      omega
    · dsimp only
      omega

theorem Numbered.without (h : shelf.Numbered) (id : Int) : (shelf.without id).Numbered :=
  ⟨h.ordered.filter _, fun label hlabel => h.given label (mem_without.mp hlabel).1⟩

end Numbered

/-- All numbers were given by the store, also those of the handles. -/
structure Bounded (handles : List Game) (shelf : Shelf) : Prop where
  numbered : shelf.Numbered
  handles : ∀ game ∈ handles, 0 < game.id ∧ game.id ≤ shelf.last

/-- The number is not new, and there is no game of it. -/
structure Lacks (shelf : Shelf) (id : Int) : Prop where
  old : id ≤ shelf.last
  gone : ∀ label ∈ shelf.labels, label.id ≠ id

/-- No two games have one name on a platform, the closed ones are gone for good, and the handles
are those of closed games and of games on the shelf. -/
structure Sound (handles : List Game) (closed : List Int) (shelf : Shelf) : Prop where
  numbered : shelf.Numbered
  distinct : shelf.labels.Pairwise (fun a b => ¬ (a.platform = b.platform ∧ a.name = b.name))
  gone : ∀ id ∈ closed, 0 < id ∧ shelf.Lacks id
  known : ∀ game ∈ handles, game.id ∈ closed ∨ game.label ∈ shelf.labels

theorem Lacks.add {shelf : Shelf} {id : Int} (h : shelf.Lacks id) (platform name : String) :
    (shelf.add platform name).Lacks id := by
  have hlast : (shelf.add platform name).last = shelf.last + 1 := rfl
  have hold := h.old
  refine ⟨by omega, fun label hlabel => ?_⟩
  rcases mem_add hlabel with hlabel | rfl
  · exact h.gone label hlabel
  · dsimp only
    omega

theorem Lacks.without {shelf : Shelf} {id : Int} (h : shelf.Lacks id) (other : Int) :
    (shelf.without other).Lacks id :=
  ⟨h.old, fun label hlabel => h.gone label (mem_without.mp hlabel).1⟩

theorem lacks_without {shelf : Shelf} {id : Int} (h : id ≤ shelf.last) :
    (shelf.without id).Lacks id := ⟨h, fun _ hlabel => (mem_without.mp hlabel).2⟩

theorem Bounded.give {handles : List Game} {shelf : Shelf} (h : shelf.Bounded handles)
    {given : Option Game} (hgiven : ∀ game ∈ given, 0 < game.id ∧ game.id ≤ shelf.last) :
    shelf.Bounded (handles ++ given.toList) := by
  refine ⟨h.numbered, fun game hgame => ?_⟩
  rcases List.mem_append.mp hgame with hgame | hgame
  · exact h.handles game hgame
  · exact hgiven game (Option.mem_toList.mp hgame)

theorem sound_empty : Sound [] [] ⟨0, []⟩ where
  numbered := ⟨List.Pairwise.nil, fun _ hmem => absurd hmem List.not_mem_nil⟩
  distinct := List.Pairwise.nil
  gone _ hmem := absurd hmem List.not_mem_nil
  known _ hmem := absurd hmem List.not_mem_nil

namespace Sound
variable {handles : List Game} {closed : List Int} {shelf : Shelf}
  (h : shelf.Sound handles closed)
include h

theorem bounded : shelf.Bounded handles := by
  refine ⟨h.numbered, fun game hgame => ?_⟩
  rcases h.known game hgame with hclosed | hlabel
  · exact ⟨(h.gone _ hclosed).1, (h.gone _ hclosed).2.old⟩
  · exact h.numbered.given _ hlabel

theorem give {given : Option Game}
    (hgiven : ∀ game ∈ given, game.id ∈ closed ∨ game.label ∈ shelf.labels) :
    shelf.Sound (handles ++ given.toList) closed := by
  refine { h with known := fun game hgame => ?_ }
  rcases List.mem_append.mp hgame with hgame | hgame
  · exact h.known game hgame
  · exact hgiven game (Option.mem_toList.mp hgame)

theorem add {platform name : String} (hfree : shelf.Free platform name) :
    (shelf.add platform name).Sound handles closed where
  numbered := h.numbered.add platform name
  distinct := by
    refine List.pairwise_append.mpr ⟨h.distinct, List.pairwise_singleton _ _, ?_⟩
    intro label hlabel new hnew
    rw [List.mem_singleton.mp hnew]
    exact hfree label hlabel
  gone id hid := ⟨(h.gone id hid).1, (h.gone id hid).2.add platform name⟩
  known game hgame := (h.known game hgame).imp_right (List.mem_append_left _)

theorem without {game : Game} (hgame : game ∈ handles) :
    (shelf.without game.id).Sound handles (closed ++ [game.id]) := by
  obtain ⟨hpositive, hold⟩ := h.bounded.handles game hgame
  refine ⟨h.numbered.without _, h.distinct.filter _, fun id hid => ?_, fun other hother => ?_⟩
  · rcases List.mem_append.mp hid with hid | hid
    · exact ⟨(h.gone id hid).1, (h.gone id hid).2.without _⟩
    · rw [List.mem_singleton.mp hid]
      exact ⟨hpositive, lacks_without hold⟩
  · by_cases hid : other.id = game.id
    · exact Or.inl (List.mem_append_right _ (List.mem_singleton.mpr hid))
    · exact (h.known other hother).imp (List.mem_append_left _) (fun hlabel =>
        mem_without.mpr ⟨hlabel, hid⟩)

end Sound
end Shelf

variable {σ : Type} [Store σ] [GameStore σ] {handles : List Game} {closed : List Int}

/-! ## One request -/

section Step
variable {request : Request} {given : Option Game}

/-- A firm store keeps its shelf sound, and any other one as long as no game is changed that was
destroyed. -/
theorem Shelf.Sound.step {s s' : σ} (h : (shelf s).Sound handles closed)
    (heffect : request.Effect handles s given s')
    (hallowed : Firm σ ∨ request.Allowed handles closed) :
    (shelf s').Sound (handles ++ given.toList) (closed ++ request.closes handles) := by
  cases heffect with
  | quiet hcloses hshelf hgiven =>
    rw [hcloses, List.append_nil, hshelf]
    refine h.give (fun game hgame => ?_)
    rcases hgiven game hgame with hhandle | hlabel
    · exact h.known game hhandle
    · exact Or.inr hlabel
  | opened hcloses hfree hlabel hshelf =>
    rw [hcloses, List.append_nil, hshelf]
    refine (h.add hfree).give (fun game hgame => Or.inr ?_)
    cases hgame
    rw [hlabel]
    exact List.mem_append_right _ List.mem_cons_self
  | @saved handle change game changed hrequest hgame hlabel =>
    subst hrequest
    have hcloses : (Request.updateGame handle change).closes handles = [] := rfl
    have hid : changed.id = game.id := congrArg Label.id hlabel
    have hknown := h.known game (List.mem_of_getElem? hgame)
    rw [← hid, ← hlabel] at hknown
    have hshelf : shelf ((Store.saveGame changed : Action σ Game) s).2 = shelf s := by
      refine Atomic.view_eq ?_
      rcases hknown with hclosed | hstored
      · -- the game was destroyed, and the store does not take it back
        have hfirm : Firm σ := by
          refine hallowed.resolve_right (fun hallowed => ?_)
          exact hallowed handle rfl game hgame (hid ▸ hclosed)
        obtain ⟨hpositive, hlacks⟩ := h.gone _ hclosed
        exact hfirm s changed h.numbered (by omega) hlacks.gone
      · exact GameStore.saveGame_stored s h.numbered hstored
    rw [hcloses, List.append_nil, hshelf]
    refine h.give (fun other hother => ?_)
    cases hother
    exact hknown
  | @closed handle game s' hrequest hgame hshelf =>
    subst hrequest
    have hcloses : (Request.destroyGame handle).closes handles = [game.id] := by
      rw [Request.closes, hgame]
      rfl
    rw [hcloses, hshelf, Option.toList_none, List.append_nil]
    exact h.without (List.mem_of_getElem? hgame)

variable {m m' : Memory}

/-- A store in memory may put games back, but under numbers that it has given. -/
theorem Shelf.Bounded.step (h : m.shelf.Bounded handles)
    (heffect : request.Effect handles m given m') :
    m'.shelf.Bounded (handles ++ given.toList) := by
  cases heffect with
  | quiet hcloses hshelf hgiven =>
    rw [show m'.shelf = m.shelf from hshelf]
    refine h.give (fun game hgame => ?_)
    rcases hgiven game hgame with hhandle | hlabel
    · exact h.handles game hhandle
    · exact h.numbered.given _ hlabel
  | @opened kept s' platform name hcloses hfree hlabel hshelf =>
    rw [show m'.shelf = m.shelf.add platform name from hshelf]
    have hlast : (m.shelf.add platform name).last = m.shelf.last + 1 := rfl
    have hbounded : (m.shelf.add platform name).Bounded handles := by
      refine ⟨h.numbered.add platform name, fun game hgame => ?_⟩
      have hbound := h.handles game hgame
      omega
    refine hbounded.give (fun game hgame => ?_)
    cases hgame
    have hid : kept.id = (m.shelf.last + 1 : Nat) := congrArg Label.id hlabel
    omega
  | @saved handle change game changed hrequest hgame hlabel =>
    have hid : changed.id = game.id := congrArg Label.id hlabel
    have hgiven := h.handles game (List.mem_of_getElem? hgame)
    rw [← hid] at hgiven
    obtain ⟨hnumbered, hlast, -⟩ := Memory.shelf_saveGame_given h.numbered hgiven
    have hbounded : (m.saveGame changed).2.shelf.Bounded handles :=
      ⟨hnumbered, fun other hother => hlast ▸ h.handles other hother⟩
    refine hbounded.give (fun other hother => ?_)
    cases hother
    exact hlast ▸ hgiven
  | @closed handle game s' hrequest hgame hshelf =>
    rw [show m'.shelf = m.shelf.without game.id from hshelf, Option.toList_none, List.append_nil]
    exact ⟨h.numbered.without _, h.handles⟩

/-- A game that is gone stays away as long as it is not changed through a handle of its own. -/
theorem Shelf.Lacks.step {id : Int} (h : m.shelf.Lacks id) (hbounded : m.shelf.Bounded handles)
    (heffect : request.Effect handles m given m') (hallowed : request.Allowed handles [id]) :
    m'.shelf.Lacks id := by
  cases heffect with
  | quiet hcloses hshelf hgiven =>
    rw [show m'.shelf = m.shelf from hshelf]
    exact h
  | @opened kept s' platform name hcloses hfree hlabel hshelf =>
    rw [show m'.shelf = m.shelf.add platform name from hshelf]
    exact h.add platform name
  | @saved handle change game changed hrequest hgame hlabel =>
    subst hrequest
    have hid : changed.id = game.id := congrArg Label.id hlabel
    have hgiven := hbounded.handles game (List.mem_of_getElem? hgame)
    rw [← hid] at hgiven
    obtain ⟨-, hlast, hlabels⟩ := Memory.shelf_saveGame_given hbounded.numbered hgiven
    have hother : game.id ≠ id := fun heq =>
      hallowed handle rfl game hgame (List.mem_singleton.mpr heq)
    refine ⟨hlast ▸ h.old, fun label hmem => ?_⟩
    rcases hlabels label hmem with hmem | rfl
    · exact h.gone label hmem
    · exact fun heq => hother (hid.symm.trans heq)
  | @closed handle game s' hrequest hgame hshelf =>
    rw [show m'.shelf = m.shelf.without game.id from hshelf]
    exact h.without game.id

end Step

/-! ## Histories -/

namespace Client

/-- The client finds a game of this number, by a channel or by a name. -/
def Finds (client : Client σ) (id : Int) : Prop :=
  ∃ game : Game, game.id = id ∧ ∃ request platform key,
    (request = .gameAt platform key ∨ request = .gameNamed platform key) ∧
      (client.ask request).1 = .gameIfAny (.ok (some game))

/-- No game is changed through a handle of this number. -/
def Leaves (client : Client σ) (id : Int) : List Request → Prop
  | [] => True
  | request :: rest =>
    request.Allowed client.handles [id] ∧ (client.ask request).2.Leaves id rest

theorem not_finds_of_lacks {client : Client σ} {id : Int} (h : (shelf client.store).Lacks id) :
    ¬ client.Finds id := by
  rintro ⟨game, rfl, request, platform, key, hrequest, hanswer⟩
  have hlabel : game.label ∈ (shelf client.store).labels := by
    rcases hrequest with rfl | rfl
    · have hfound := (GameStore.gameAt? client.store platform key).of_ok
        (Answer.gameIfAny.inj hanswer)
      exact hfound.2 game rfl
    · have hfound := (GameStore.gameNamed? client.store platform key).of_ok
        (Answer.gameIfAny.inj hanswer)
      exact hfound.2.1 game rfl
  exact h.gone game.label hlabel rfl

omit [GameStore σ] in
theorem closed_after {client : Client σ} {id : Int} (h : id ∈ client.closed)
    (requests : List Request) : id ∈ (client.after requests).closed := by
  induction requests generalizing client with
  | nil => exact h
  | cons request rest ih => exact ih (List.mem_append_left _ h)

variable [CardStore σ]

theorem effect_ask {client : Client σ} (h : (shelf client.store).Bounded client.handles)
    (request : Request) :
    request.Effect client.handles client.store (client.ask request).1.handle?
      (client.ask request).2.store := by
  refine Request.hasEffect h.numbered (fun game hgame => ?_) request
  have hgiven := h.handles game hgame
  omega

/-- The shelf is sound for the handles and the closed numbers of the client. -/
def Sound (client : Client σ) : Prop := (shelf client.store).Sound client.handles client.closed

theorem Sound.after {client : Client σ} (h : client.Sound) {requests : List Request}
    (hcareful : Firm σ ∨ client.Careful requests) : (client.after requests).Sound := by
  induction requests generalizing client with
  | nil => exact h
  | cons request rest ih =>
    have hstep : (client.ask request).2.Sound :=
      Shelf.Sound.step h (effect_ask h.bounded request) (hcareful.imp_right And.left)
    exact ih hstep (hcareful.imp_right And.right)

/-- In a firm store a game that is destroyed is not found again. -/
theorem Sound.not_finds {client : Client σ} (h : client.Sound) (hfirm : Firm σ) {handle : Nat}
    {game : Game} (hgame : client.handles[handle]? = some game) (later : List Request) :
    ¬ (client.after (.destroyGame handle :: later)).Finds game.id := by
  have hclosed : game.id ∈ (client.ask (.destroyGame handle)).2.closed := by
    refine List.mem_append_right _ ?_
    rw [Request.closes, hgame]
    exact List.mem_cons_self
  exact not_finds_of_lacks ((h.after (Or.inl hfirm)).gone _ (closed_after hclosed later)).2

section Memory
variable {client : Client Memory}

theorem bounded_after (h : client.store.shelf.Bounded client.handles) (requests : List Request) :
    (client.after requests).store.shelf.Bounded (client.after requests).handles := by
  induction requests generalizing client with
  | nil => exact h
  | cons request rest ih => exact ih (h.step (effect_ask h request))

theorem lacks_after {id : Int} (hbounded : client.store.shelf.Bounded client.handles)
    (h : client.store.shelf.Lacks id) {requests : List Request}
    (hleaves : client.Leaves id requests) : (client.after requests).store.shelf.Lacks id := by
  induction requests generalizing client with
  | nil => exact h
  | cons request rest ih =>
    have heffect := effect_ask hbounded request
    exact ih (hbounded.step heffect) (h.step hbounded heffect hleaves.1) hleaves.2

/-- In memory a game that is destroyed is not found again until it is changed. -/
theorem not_finds_of_leaves (h : client.store.shelf.Bounded client.handles) {handle : Nat}
    {game : Game} {later : List Request} (hgame : client.handles[handle]? = some game)
    (hleaves : (client.ask (.destroyGame handle)).2.Leaves game.id later) :
    ¬ (client.after (.destroyGame handle :: later)).Finds game.id := by
  have hbounded := h.step (effect_ask h (.destroyGame handle))
  have hshelf : (client.ask (.destroyGame handle)).2.store.shelf =
      client.store.shelf.without game.id := by
    unfold ask
    rw [Request.run, hgame]
    exact GameStore.removeGame client.store game.id
  have hold := (h.handles game (List.mem_of_getElem? hgame)).2
  have hlacks := Shelf.lacks_without hold
  rw [← hshelf] at hlacks
  exact not_finds_of_lacks (lacks_after hbounded hlacks hleaves)

end Memory

/-- From an empty store: in tables no two games ever have one name on a platform, and a game that
is destroyed is not found again, whatever is asked for and through whichever handles. In memory two
games have one name only after a game was changed that was destroyed, and a game that is destroyed
is not found again until it is changed. -/
theorem names_apart_and_destroyed_gone (requests : List Request) :
    (∀ (γ : Type) [Column γ],
      let tables : Client (Database γ) := after { store := ({} : Database γ).upToDate } requests
      tables.store.games.Pairwise (fun a b => ¬ (a.platform = b.platform ∧ a.name = b.name)) ∧
        ∀ handle game later, tables.handles[handle]? = some game →
          ¬ (tables.after (.destroyGame handle :: later)).Finds game.id) ∧
    let memory : Client Memory := after { store := {} } requests
    (Careful { store := ({} : Memory) } requests →
      memory.store.games.Pairwise (fun a b => ¬ (a.platform = b.platform ∧ a.name = b.name))) ∧
    ∀ handle game later, memory.handles[handle]? = some game →
      (memory.ask (.destroyGame handle)).2.Leaves game.id later →
        ¬ (memory.after (.destroyGame handle :: later)).Finds game.id := by
  refine ⟨fun γ _ => ?_, ?_⟩
  · intro tables
    have hstart : Sound { store := ({} : Database γ).upToDate } := Shelf.sound_empty
    have htables : tables.Sound := hstart.after (Or.inl firm_tables)
    refine ⟨List.pairwise_map.mp htables.distinct, fun handle game later hgame => ?_⟩
    exact htables.not_finds firm_tables hgame later
  · intro memory
    have hstart : Sound { store := ({} : Memory) } := Shelf.sound_empty
    refine ⟨fun hcareful => ?_, fun handle game later hgame hleaves => ?_⟩
    · have hmemory : memory.Sound := hstart.after (Or.inr hcareful)
      exact List.pairwise_map.mp hmemory.distinct
    · exact not_finds_of_leaves (bounded_after hstart.bounded requests) hgame hleaves

/-- A game is opened and joined, so that there are two handles of it. -/
def opening : List Request :=
  [.createGame "qq" "hall" (some "night"), .updateGame 0 (.addUser .player "ann")]

/-- After it is gone another game takes its name and is changed. -/
def succession : List Request :=
  [.createGame "qq" "den" (some "night"), .updateGame 2 (.setLogging true)]

theorem names_apart_and_destroyed_gone_opening :
    let tables : Client (Database Verbatim) :=
      after { store := ({} : Database Verbatim).upToDate } opening
    let memory : Client Memory := after { store := {} } opening
    tables.handles.map Game.id = [1, 1] ∧
    ¬ (tables.after (.destroyGame 1 :: .updateGame 0 .clearRoulette :: succession)).Finds 1 ∧
    memory.handles.map Game.id = [1, 1] ∧
    memory.store.games.Pairwise (fun a b => ¬ (a.platform = b.platform ∧ a.name = b.name)) ∧
    ¬ (memory.after (.destroyGame 1 :: succession)).Finds 1 := by
  intro tables memory
  obtain ⟨htables, hdistinct, hmemory⟩ := names_apart_and_destroyed_gone opening
  obtain ⟨game, hgame, hid⟩ : ∃ game, memory.handles[1]? = some game ∧ game.id = 1 :=
    ⟨_, rfl, rfl⟩
  obtain ⟨other, hother, hotherId⟩ : ∃ game, tables.handles[1]? = some game ∧ game.id = 1 :=
    ⟨_, rfl, rfl⟩
  have hleaves : (memory.ask (.destroyGame 1)).2.Leaves 1 succession :=
    ⟨by decide, by decide, trivial⟩
  refine ⟨by decide, ?_, by decide, hdistinct (by decide), ?_⟩
  · rw [← hotherId]
    exact (htables Verbatim).2 1 other _ hother
  · rw [← hid] at hleaves ⊢
    exact hmemory 1 game _ hgame hleaves

/-- In memory a change through a handle of a destroyed game puts it back, beside the game that has
taken its name. -/
theorem stale_change_puts_back :
    let memory : Client Memory := after { store := {} } [.createGame "qq" "hall" (some "night")]
    let changed : Client Memory := memory.after [.destroyGame 0,
      .createGame "qq" "den" (some "night"), .updateGame 0 (.setLogging true)]
    (memory.ask (.destroyGame 0)).1 = .changed (.ok true) ∧
    memory.handles.map Game.id = [1] ∧ changed.Finds 1 ∧
    changed.store.games.map Game.label = [⟨1, "qq", "night"⟩, ⟨2, "qq", "night"⟩] := by
  intro memory changed
  refine ⟨by decide, by decide, ?_, by decide⟩
  let night : Game := { Game.fresh "night" "qq" "hall" with id := 1, logging := true }
  exact ⟨night, rfl, .gameAt "qq" "hall", "qq", "hall", Or.inl rfl, by decide⟩

end Client
end DiceHost
