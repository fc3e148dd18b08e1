import DiceHost.Proofs.Store.Changes
import DiceHost.Proofs.Store.GameHistory
import DiceHost.Proofs.Store.Turns

/-! # Rosters through any history

A change is made to a handle, which may be an old one or keep a change that was never saved, and the
whole game is then written over the stored one. So the stored games and all handles are looked at
together: each is the copy of an earlier one or a change of it, and no list of it has a user or a
channel twice.
-/
namespace DiceHost
open GameKeeper (Keeps)

/-! ## Where games come from -/

/-- The game under a number. -/
def Game.numbered (game : Game) (number : Nat) : Game := { game with id := number }

theorem Game.Distinct.numbered {game : Game} (h : game.Distinct) (number : Nat) :
    (game.numbered number).Distinct := ⟨h.masters, h.players, h.observers, h.areas⟩

/-- The game has the label of an earlier one, and lists nothing twice that this one does not. -/
def Game.Descends (games : List Game) (game : Game) : Prop :=
  ∃ old ∈ games, game.label = old.label ∧ (old.Distinct → game.Distinct)

theorem Game.descends_of_mem {games : List Game} {game : Game} (h : game ∈ games) :
    game.Descends games := ⟨game, h, rfl, fun hdistinct => hdistinct⟩

theorem GameChange.descends_of_apply {change : GameChange} {handle : Nat} {handles : List Game}
    {before changed : Game} (hhandle : handles[handle]? = some before)
    (h : change.apply before = some changed) (stored : List Game) :
    changed.Descends (stored ++ handles) := by
  have hbefore := List.mem_append_right stored (List.mem_of_getElem? hhandle)
  exact ⟨before, hbefore, label_of_apply h,
    fun hdistinct => (made_of_apply h hdistinct).distinct hdistinct⟩

theorem Memory.self_mem_saveGame (m : Memory) (game : Game) :
    (m.saveGame game).1 ∈ (m.saveGame game).2.games := by
  unfold Memory.saveGame
  split
  · exact mem_insertGame_self _ _
  · exact mem_insertGame_self _ _

theorem Memory.mem_saveGame {m : Memory} {game other : Game}
    (h : other ∈ (m.saveGame game).2.games) : other ∈ m.games ∨ other = (m.saveGame game).1 := by
  unfold Memory.saveGame at h ⊢
  split at h
  · next hid =>
    rw [if_pos hid]
    exact mem_or_eq_of_mem_insertGame h
  · next hid =>
    rw [if_neg hid]
    exact mem_or_eq_of_mem_insertGame h

namespace Request
variable {counter : UInt32} {handles : List Game} {m m' : Memory} {request : Request}
  {result : UInt32 × Answer}

/-- The game is opened by the request, under the next number. -/
inductive Opens (counter next : UInt32) (m m' : Memory) (game : Game) : Request → Prop
  | intro {platform channel : String} {name : Option String} (hnext : next = counted counter name)
      (hgame : game = (Game.fresh (title counter name) platform channel).numbered (m.lastGame + 1))
      (hstored : game ∈ m'.games) (hlast : m'.lastGame = m.lastGame + 1) :
      Opens counter next m m' game (.createGame platform channel name)

namespace Turn
variable (h : request.Turn counter handles m result m') {game : Game}
include h

theorem stored (hgame : game ∈ m'.games) :
    game.Descends (m.games ++ handles) ∨ request.Opens counter result.1 m m' game := by
  have hkept {old : Game} (hold : old ∈ m.games) : old.Descends (m.games ++ handles) :=
    Game.descends_of_mem (List.mem_append_left _ hold)
  cases h with
  | quiet hcounter hgiven hunsaved hdestroys => exact Or.inl (hkept hgame)
  | unsaved hhandle hchange => exact Or.inl (hkept hgame)
  | removed hhandle => exact Or.inl (hkept (List.mem_filter.mp hgame).1)
  | @opened platform channel name new _ hsaved =>
    have hmem : game ∈ (m.saveGame (Game.fresh (title counter name) platform channel)).2.games := by
      rw [hsaved]
      exact hgame
    rcases Memory.mem_saveGame hmem with hold | rfl
    · exact Or.inl (hkept hold)
    · exact Or.inr (.intro rfl rfl hgame (congrArg (·.2.lastGame) hsaved.symm))
  | saved hhandle hchange hput =>
    rcases hput with rfl | ⟨rfl, -⟩
    · rcases mem_or_eq_of_mem_insertGame hgame with hgame | rfl
      · exact Or.inl (hkept hgame)
      · exact Or.inl (GameChange.descends_of_apply hhandle hchange m.games)
    · exact Or.inl (hkept hgame)

theorem given (hgame : game ∈ result.2.handle?) :
    game.Descends (m.games ++ handles) ∨ request.Opens counter result.1 m m' game := by
  cases h with
  | quiet hcounter hgiven hunsaved hdestroys =>
    rcases hgiven game hgame with hhandle | ⟨kept, hkept, hmirrors⟩
    · exact Or.inl (Game.descends_of_mem (List.mem_append_right _ hhandle))
    · exact Or.inl ⟨kept, List.mem_append_left _ hkept, hmirrors.label, hmirrors.distinct⟩
  | removed hhandle => cases hgame
  | @opened platform channel name new _ hsaved =>
    cases hgame
    have hstored := Memory.self_mem_saveGame m
      (Game.fresh (title counter name) platform channel)
    rw [hsaved] at hstored
    exact Or.inr (.intro rfl (congrArg Prod.fst hsaved.symm) hstored
      (congrArg (·.2.lastGame) hsaved.symm))
  | unsaved hhandle hchange =>
    cases hgame
    exact Or.inl (GameChange.descends_of_apply hhandle hchange m.games)
  | saved hhandle hchange hput =>
    cases hgame
    exact Or.inl (GameChange.descends_of_apply hhandle hchange m.games)

/-- Every game that is stored or held after a request comes from one before it, or is opened. -/
theorem origin (hgame : game ∈ m'.games ++ (handles ++ result.2.handle?.toList)) :
    game.Descends (m.games ++ handles) ∨ request.Opens counter result.1 m m' game := by
  rcases List.mem_append.mp hgame with hgame | hgame
  · exact h.stored hgame
  · rcases List.mem_append.mp hgame with hgame | hgame
    · exact Or.inl (Game.descends_of_mem (List.mem_append_right _ hgame))
    · exact h.given (Option.mem_toList.mp hgame)

theorem last_le : m.lastGame ≤ m'.lastGame := by
  cases h with
  | quiet hcounter hgiven hunsaved hdestroys => exact le_rfl
  | unsaved hhandle hchange => exact le_rfl
  | removed hhandle => exact le_rfl
  | opened hsaved =>
    have hlast := congrArg (·.2.lastGame) hsaved
    exact (Nat.le_succ _).trans hlast.le
  | saved hhandle hchange hput =>
    rcases hput with rfl | ⟨rfl, -⟩
    · exact le_rfl
    · exact le_rfl

theorem counter_eq : result.1 = request.counterAfter counter := by
  cases h with
  | quiet hcounter hgiven hunsaved hdestroys => exact hcounter
  | _ => rfl

end Turn
end Request

/-! ## Games and handles together -/

/-- The numbers of the games and of their handles were given, and those of one number have one
name; no list has a user or a channel twice; and a handle belongs to a stored game or to one that
was destroyed. -/
structure Memory.Tidy (m : Memory) (handles : List Game) (destroyed : List Int) : Prop where
  numbered : m.shelf.Numbered
  given : ∀ game ∈ m.games ++ handles, 0 < game.id ∧ game.id ≤ m.lastGame
  alike : ∀ a ∈ m.games ++ handles, ∀ b ∈ m.games ++ handles, a.id = b.id → a.label = b.label
  distinct : ∀ game ∈ m.games ++ handles, game.Distinct
  known : ∀ game ∈ handles, game.id ∈ destroyed ∨ ∃ kept ∈ m.games, kept.id = game.id

namespace Memory.Tidy
variable {m m' : Memory} {handles : List Game} {destroyed : List Int} {counter : UInt32}
  {request : Request} {result : UInt32 × Answer} (h : m.Tidy handles destroyed)

theorem empty : Memory.Tidy {} [] [] where
  numbered := ⟨List.Pairwise.nil, fun _ hlabel => absurd hlabel List.not_mem_nil⟩
  given _ hgame := absurd hgame List.not_mem_nil
  alike _ hgame := absurd hgame List.not_mem_nil
  distinct _ hgame := absurd hgame List.not_mem_nil
  known _ hgame := absurd hgame List.not_mem_nil

include h

theorem handle_ready : ∀ game ∈ handles, game.id ≠ 0 ∧
    ∀ old ∈ m.games, old.id = game.id → old.label = game.label := by
  intro game hgame
  have hheld := List.mem_append_right m.games hgame
  refine ⟨(h.given game hheld).1.ne', fun old hold hid => ?_⟩
  exact h.alike old (List.mem_append_left _ hold) game hheld hid

theorem bounds_of_descends {game : Game} (hgame : game.Descends (m.games ++ handles)) :
    0 < game.id ∧ game.id ≤ m.lastGame := by
  obtain ⟨old, hold, hlabel, -⟩ := hgame
  have hid : game.id = old.id := congrArg Label.id hlabel
  rw [hid]
  exact h.given old hold

variable (hturn : request.Turn counter handles m result m')
include hturn

theorem numbered_after : m'.shelf.Numbered := by
  cases hturn with
  | quiet hcounter hgiven hunsaved hdestroys => exact h.numbered
  | unsaved hhandle hchange => exact h.numbered
  | @removed handle game hhandle =>
    have hshelf : (m.removeGame game.id).2.shelf = m.shelf.without game.id :=
      GameStore.removeGame m game.id
    rw [hshelf]
    exact h.numbered.without _
  | @opened platform channel name kept m' hsaved =>
    have hid : (Game.fresh (Request.title counter name) platform channel).id = 0 := rfl
    have hshelf := (Memory.shelf_saveGame_new h.numbered hid).2
    rw [hsaved] at hshelf
    rw [hshelf]
    exact h.numbered.add _ _
  | @saved handle change before changed m' hhandle hchange hput =>
    rcases hput with rfl | ⟨rfl, -⟩
    · have hbounds :=
        h.bounds_of_descends (GameChange.descends_of_apply hhandle hchange m.games)
      have hnumbered := (Memory.shelf_saveGame_given h.numbered hbounds).1
      rw [Memory.saveGame_old hbounds.1.ne'] at hnumbered
      exact hnumbered
    · exact h.numbered

theorem given_after {game : Game}
    (hgame : game ∈ m'.games ++ (handles ++ result.2.handle?.toList)) :
    0 < game.id ∧ game.id ≤ m'.lastGame := by
  have hlast := hturn.last_le
  rcases hturn.origin hgame with hold | ⟨-, rfl, hstored, hnew⟩
  · have hbounds := h.bounds_of_descends hold
    omega
  · unfold Game.numbered
    dsimp only
    omega

theorem alike_after {a b : Game} (ha : a ∈ m'.games ++ (handles ++ result.2.handle?.toList))
    (hb : b ∈ m'.games ++ (handles ++ result.2.handle?.toList)) (hid : a.id = b.id) :
    a.label = b.label := by
  rcases hturn.origin ha with hold | ⟨-, rfl, hstored, hlast⟩
  · rcases hturn.origin hb with hother | ⟨-, rfl, hstored, hlast⟩
    · obtain ⟨first, hfirst, hfirstLabel, -⟩ := hold
      obtain ⟨second, hsecond, hsecondLabel, -⟩ := hother
      have hfirstId : a.id = first.id := congrArg Label.id hfirstLabel
      have hsecondId : b.id = second.id := congrArg Label.id hsecondLabel
      rw [hfirstLabel, hsecondLabel]
      exact h.alike first hfirst second hsecond (hfirstId.symm.trans (hid.trans hsecondId))
    · -- a number that is new is no number of an earlier game
      have hbounds := h.bounds_of_descends hold
      unfold Game.numbered at hid
      dsimp only at hid
      omega
  · rcases hturn.origin hb with hother | ⟨-, rfl, hagain, hlast⟩
    · have hbounds := h.bounds_of_descends hother
      unfold Game.numbered at hid
      dsimp only at hid
      omega
    · rfl

theorem distinct_after {game : Game}
    (hgame : game ∈ m'.games ++ (handles ++ result.2.handle?.toList)) : game.Distinct := by
  rcases hturn.origin hgame with ⟨old, hold, -, hdistinct⟩ | ⟨-, rfl, hstored, hlast⟩
  · exact hdistinct (h.distinct old hold)
  · exact (Game.distinct_fresh _ _ _).numbered _

theorem stays {old : Game} (hold : old ∈ m.games) :
    old.id ∈ request.destroys handles result.2 ∨ ∃ kept ∈ m'.games, kept.id = old.id := by
  cases hturn with
  | quiet hcounter hgiven hunsaved hdestroys => exact Or.inr ⟨old, hold, rfl⟩
  | unsaved hhandle hchange => exact Or.inr ⟨old, hold, rfl⟩
  | opened hsaved =>
    have hgames := congrArg (·.2.games) hsaved
    dsimp only at hgames
    rw [← hgames]
    exact Or.inr (exists_insertGame _ hold)
  | saved hhandle hchange hput =>
    rcases hput with rfl | ⟨rfl, -⟩
    · exact Or.inr (exists_insertGame _ hold)
    · exact Or.inr ⟨old, hold, rfl⟩
  | @removed handle game hhandle =>
    by_cases hid : old.id = game.id
    · left
      simp [Request.destroys, Request.closes, hhandle, hid]
    · exact Or.inr ⟨old, List.mem_filter.mpr ⟨hold, decide_eq_true hid⟩, rfl⟩

theorem known_after {game : Game} (hgame : game ∈ handles ++ result.2.handle?.toList) :
    game.id ∈ destroyed ++ request.destroys handles result.2 ∨
      ∃ kept ∈ m'.games, kept.id = game.id := by
  -- it is enough to find a game of the number that was stored or held before
  have hknown {old : Game} (hold : old ∈ m.games ++ handles) (hid : game.id = old.id) :
      game.id ∈ destroyed ++ request.destroys handles result.2 ∨
        ∃ kept ∈ m'.games, kept.id = game.id := by
    have hstored : old.id ∈ destroyed ∨ ∃ kept ∈ m.games, kept.id = old.id := by
      rcases List.mem_append.mp hold with hold | hold
      · exact Or.inr ⟨old, hold, rfl⟩
      · exact h.known old hold
    rw [hid]
    rcases hstored with hdestroyed | ⟨kept, hkept, hsame⟩
    · exact Or.inl (List.mem_append_left _ hdestroyed)
    · rw [← hsame]
      exact (h.stays hturn hkept).imp_left (List.mem_append_right _)
  rcases List.mem_append.mp hgame with hgame | hgame
  · exact hknown (List.mem_append_right _ hgame) rfl
  · rcases hturn.given (Option.mem_toList.mp hgame) with
      ⟨old, hold, hlabel, -⟩ | ⟨-, -, hstored, -⟩
    · exact hknown hold (congrArg Label.id hlabel)
    · exact Or.inr ⟨game, hstored, rfl⟩

theorem step : m'.Tidy (handles ++ result.2.handle?.toList)
    (destroyed ++ request.destroys handles result.2) where
  numbered := h.numbered_after hturn
  given _ hgame := h.given_after hturn hgame
  alike _ ha _ hb hid := h.alike_after hturn ha hb hid
  distinct _ hgame := h.distinct_after hturn hgame
  known _ hgame := h.known_after hturn hgame

end Memory.Tidy

/-! ## Writing one game over another -/

/-- An entry takes the place of the one entry of its number, and the others stand as they stood. -/
def Overwrites {ρ : Type} (number : ρ → Int) (new : ρ) (entries entries' : List ρ) : Prop :=
  ∃ front old back, entries = front ++ old :: back ∧ entries' = front ++ new :: back ∧
    number old = number new ∧ ∀ other ∈ front ++ back, number other ≠ number new

theorem Overwrites.map {ρ τ : Type} {number : ρ → Int} {number' : τ → Int} {new : ρ}
    {entries entries' : List ρ} (h : Overwrites number new entries entries') (f : ρ → τ)
    (hnumber : ∀ entry, number' (f entry) = number entry) :
    Overwrites number' (f new) (entries.map f) (entries'.map f) := by
  obtain ⟨front, old, back, rfl, rfl, hid, hothers⟩ := h
  refine ⟨front.map f, f old, back.map f, by simp, by simp, ?_, fun other hother => ?_⟩
  · rw [hnumber, hnumber, hid]
  · rw [← List.map_append] at hother
    obtain ⟨entry, hentry, rfl⟩ := List.mem_map.mp hother
    rw [hnumber, hnumber]
    exact hothers entry hentry

theorem overwrites_insertGame {games : List Game} {old new : Game}
    (h : games.Pairwise (fun a b => a.id < b.id)) (hold : old ∈ games) (hid : old.id = new.id) :
    Overwrites Game.id new games (insertGame new games) := by
  -- in the order of the numbers no other game has the one of the new game
  have hmap := insertGame_of_mem h hold hid
  obtain ⟨front, back, rfl⟩ := List.append_of_mem hold
  obtain ⟨-, hback, hfront⟩ := List.pairwise_append.mp h
  have hothers : ∀ other ∈ front ++ back, other.id ≠ new.id := by
    intro other hother
    rcases List.mem_append.mp hother with hother | hother
    · have hlt := hfront other hother old List.mem_cons_self
      omega
    · have hlt := (List.pairwise_cons.mp hback).1 other hother
      omega
  have hkeep {others : List Game} (hsub : ∀ other ∈ others, other ∈ front ++ back) :
      others.map (fun game => if game.id = new.id then new else game) = others := by
    refine (List.map_congr_left (fun other hother => ?_)).trans (List.map_id others)
    exact if_neg (hothers other (hsub other hother))
  refine ⟨front, old, back, rfl, ?_, hid, hothers⟩
  rw [hmap, List.map_append, List.map_cons, if_pos hid,
    hkeep (fun _ hother => List.mem_append_left _ hother),
    hkeep (fun _ hother => List.mem_append_right _ hother)]

/-! ## Rows -/

section Rows
variable {γ : Type} [Column γ]

/-- The lists of a row can be read, and have no user and no channel twice. -/
structure GameRow.Distinct (row : GameRow γ) : Prop where
  masters : ∃ users, Column.decodeWith Column.texts? row.masters = .ok users ∧ users.Nodup
  players : ∃ users, Column.decodeWith Column.texts? row.players = .ok users ∧ users.Nodup
  observers : ∃ users, Column.decodeWith Column.texts? row.observers = .ok users ∧ users.Nodup
  areas : ∃ channels, Column.decodeWith Column.texts? row.areas = .ok channels ∧ channels.Nodup

variable [Column.ReadsTexts γ] {game : Game}

theorem Game.Distinct.row (h : game.Distinct) : (game.row : GameRow γ).Distinct where
  masters := ⟨game.masters, Column.ReadsTexts.texts _, h.masters⟩
  players := ⟨game.players, Column.ReadsTexts.texts _, h.players⟩
  observers := ⟨game.observers, Column.ReadsTexts.texts _, h.observers⟩
  areas := ⟨game.areas, Column.ReadsTexts.texts _, h.areas⟩

/-- The fields are read from their column as they were written. -/
def Column.ReadsFields (γ : Type) [Column γ] (fields : Fields) : Prop :=
  Column.decodeWith Column.fields? (Column.ofFields fields : γ) = .ok fields

theorem game_of_row (hconfig : Column.ReadsFields γ game.config)
    (hroulette : Column.ReadsFields γ game.roulette) :
    (game.row : GameRow γ).game = .ok game := by
  unfold Column.ReadsFields at hconfig hroulette
  simp only [GameRow.game, Game.row, Column.ReadsTexts.texts, hconfig, hroulette]
  rfl

end Rows

/-! ## Histories -/

namespace Client
variable {σ : Type} [Store σ]

/-- A client that starts with a store which refuses some operations. -/
def starting (s : σ) (refusal : Nat → Store.Operation → Option Failure) : Client (Faulty σ) :=
  { store := { inner := s, refusal := refusal } }

/-- The numbers of the games that these requests have destroyed. -/
def destroyed (client : Client σ) : List Request → List Int
  | [] => []
  | request :: rest =>
    request.destroys client.handles (client.ask request).1 ++ (client.ask request).2.destroyed rest

section Tidy
variable [GameStore σ] [GameKeeper σ] {client : Client (Faulty σ)} {gone : List Int} {m : Memory}

/-- The store inside keeps these games, which are tidy together with the handles. -/
structure TidyAs (client : Client (Faulty σ)) (gone : List Int) (m : Memory) : Prop where
  keeps : Keeps client.store.inner m
  tidy : m.Tidy client.handles gone

theorem TidyAs.ask (h : client.TidyAs gone m) (request : Request) :
    ∃ m', request.Turn client.counter client.handles m
        ((client.ask request).2.counter, (client.ask request).1) m' ∧
      (client.ask request).2.TidyAs
        (gone ++ request.destroys client.handles (client.ask request).1) m' := by
  have htakes : request.TakesTurn client.counter client.handles m client.store :=
    Request.takesTurn h.keeps h.tidy.numbered h.tidy.handle_ready request
  obtain ⟨m', hturn, hkeeps⟩ := htakes
  exact ⟨m', hturn, hkeeps, h.tidy.step hturn⟩

theorem TidyAs.after (h : client.TidyAs gone m) (requests : List Request) :
    ∃ m', (client.after requests).TidyAs (gone ++ client.destroyed requests) m' := by
  induction requests generalizing client gone m with
  | nil =>
    rw [destroyed, List.append_nil]
    exact ⟨m, h⟩
  | cons request rest ih =>
    obtain ⟨m', -, hstep⟩ := h.ask request
    rw [destroyed, ← List.append_assoc]
    exact ih hstep

/-- A change that was saved is the one that was asked for, written over the stored game. -/
theorem TidyAs.saved (h : client.TidyAs gone m) {handle : Nat} {change : GameChange}
    {before after : Game} (hhandle : client.handles[handle]? = some before)
    (hopen : before.id ∉ gone)
    (hanswer : (client.ask (.updateGame handle change)).1 = .updated after (.ok true)) :
    change.Made before after ∧ ∃ m',
      Keeps (client.ask (.updateGame handle change)).2.store.inner m' ∧
      Overwrites Game.id after m.games m'.games := by
  obtain ⟨m', hturn, hnext⟩ := h.ask (.updateGame handle change)
  rw [hanswer] at hturn
  generalize (client.ask (.updateGame handle change)).2.counter = next at hturn
  have hmem := List.mem_of_getElem? hhandle
  cases hturn with
  | quiet hcounter hgiven hunsaved hdestroys => exact absurd rfl (hunsaved after)
  | saved hsame hchange hput =>
    rw [hhandle] at hsame
    cases hsame
    obtain ⟨kept, hkept, hid⟩ := (h.tidy.known before hmem).resolve_left hopen
    have hchanged := (GameChange.same_of_apply hchange).1
    refine ⟨GameChange.made_of_apply hchange
      (h.tidy.distinct before (List.mem_append_right _ hmem)), m', hnext.keeps, ?_⟩
    -- the game was not destroyed, so it is not left out
    rcases hput with rfl | ⟨-, hgone⟩
    · exact overwrites_insertGame (Memory.ordered_games h.tidy.numbered) hkept
        (hid.trans hchanged)
    · exact absurd (hid.trans hchanged) (hgone kept hkept)

end Tidy

/-- A change that is saved through a handle of a game that was not destroyed is the one that was
asked for, and the game with it stands where the stored one of its number stood. -/
def SavesChanges {ρ : Type} (client : Client (Faulty σ)) (gone : List Int) (entries : σ → List ρ)
    (number : ρ → Int) (entry : Game → ρ) : Prop :=
  ∀ handle change before after, client.handles[handle]? = some before → before.id ∉ gone →
    (client.ask (.updateGame handle change)).1 = .updated after (.ok true) →
    change.Made before after ∧ Overwrites number (entry after) (entries client.store.inner)
      (entries (client.ask (.updateGame handle change)).2.store.inner)

section Stores
variable (refusal : Nat → Store.Operation → Option Failure) (requests : List Request)

theorem savesChanges_memory :
    let start := starting ({} : Memory) refusal
    let client := start.after requests
    (∀ game ∈ client.store.inner.games ++ client.handles, game.Distinct) ∧
      client.SavesChanges (start.destroyed requests) Memory.games Game.id id := by
  intro start client
  have hstart : start.TidyAs [] {} := ⟨rfl, Memory.Tidy.empty⟩
  obtain ⟨m, htidy⟩ := hstart.after requests
  have hgames : client.store.inner.games = m.games := (Memory.gameView_inj htidy.keeps).2
  refine ⟨hgames ▸ htidy.tidy.distinct, fun handle change before after hhandle hopen hanswer => ?_⟩
  obtain ⟨hmade, m', hkeeps, hover⟩ := htidy.saved hhandle hopen hanswer
  rw [← hgames, ← (Memory.gameView_inj hkeeps).2] at hover
  exact ⟨hmade, hover⟩

theorem savesChanges_tables (γ : Type) [Column γ] [Column.ReadsTexts γ] :
    let start := starting ({} : Database γ).upToDate refusal
    let client := start.after requests
    (∀ row ∈ client.store.inner.games, row.Distinct) ∧
      (∀ game ∈ client.handles, game.Distinct) ∧
      client.SavesChanges (start.destroyed requests) Database.games GameRow.id Game.row := by
  intro start client
  have hstart : start.TidyAs [] {} := ⟨rfl, Memory.Tidy.empty⟩
  obtain ⟨m, htidy⟩ := hstart.after requests
  have hrows : client.store.inner.games = m.games.map Game.row :=
    Database.Holds.rows htidy.keeps
  refine ⟨fun row hrow => ?_, fun game hgame => ?_, ?_⟩
  · rw [hrows] at hrow
    obtain ⟨game, hgame, rfl⟩ := List.mem_map.mp hrow
    exact (htidy.tidy.distinct game (List.mem_append_left _ hgame)).row
  · exact htidy.tidy.distinct game (List.mem_append_right _ hgame)
  · intro handle change before after hhandle hopen hanswer
    obtain ⟨hmade, m', hkeeps, hover⟩ := htidy.saved hhandle hopen hanswer
    have hwritten : Overwrites GameRow.id (after.row : GameRow γ) (m.games.map Game.row)
        (m'.games.map Game.row) := hover.map Game.row (fun _ => rfl)
    rw [← hrows, ← Database.Holds.rows hkeeps] at hwritten
    exact ⟨hmade, hwritten⟩

end Stores

/-- From an empty store, whatever is asked for and whatever it refuses, no stored game and no handle
lists a user or a channel twice. A change that is saved through a handle of a game that was not
destroyed is made as it was asked for, and the handle is then written over the stored game of its
number and no other. In a store of tables the row is read as the handle where the columns of the
configuration and of the roulette are read as they were written. -/
theorem rosters_distinct_and_changes_saved (refusal : Nat → Store.Operation → Option Failure)
    (requests : List Request) :
    (let start := starting ({} : Memory) refusal
      let client := start.after requests
      (∀ game ∈ client.store.inner.games ++ client.handles, game.Distinct) ∧
        client.SavesChanges (start.destroyed requests) Memory.games Game.id id) ∧
    ∀ (γ : Type) [Column γ] [Column.ReadsTexts γ],
      let start := starting ({} : Database γ).upToDate refusal
      let client := start.after requests
      (∀ row ∈ client.store.inner.games, row.Distinct) ∧
        (∀ game ∈ client.handles, game.Distinct) ∧
        client.SavesChanges (start.destroyed requests) Database.games GameRow.id Game.row ∧
        ∀ game : Game, Column.ReadsFields γ game.config → Column.ReadsFields γ game.roulette →
          (game.row : GameRow γ).game = .ok game := by
  refine ⟨savesChanges_memory refusal requests, fun γ _ _ => ?_⟩
  obtain ⟨hrows, hhandles, hsaves⟩ := savesChanges_tables refusal requests γ
  exact ⟨hrows, hhandles, hsaves, fun game => game_of_row⟩

/-- A game is opened and joined; the handle that was given first does not know of the player. -/
def joining : List Request :=
  [.createGame "qq" "hall" (some "night"), .updateGame 0 (.addUser .player "ann")]

theorem rosters_distinct_and_changes_saved_joining :
    let client := (starting ({} : Database JsonText).upToDate (fun _ _ => none)).after joining
    let before : Game := { Game.fresh "night" "qq" "hall" with id := 1 }
    let spread : Game := { before with areas := ["hall", "den"] }
    let next := (client.ask (.updateGame 0 (.addArea "den"))).2
    (GameChange.addArea "den").Made before spread ∧
      Overwrites GameRow.id spread.row client.store.inner.games next.store.inner.games ∧
      (spread.row : GameRow JsonText).game = .ok spread := by
  intro client before spread next
  obtain ⟨-, -, hsaves, hread⟩ :=
    (rosters_distinct_and_changes_saved (fun _ _ => none) joining).2 JsonText
  obtain ⟨hmade, hover⟩ := hsaves 0 (.addArea "den") before spread rfl (by decide) rfl
  have hempty : Column.ReadsFields JsonText [] := by
    unfold Column.ReadsFields
    decide +kernel
  exact ⟨hmade, hover, hread spread hempty hempty⟩

/-- A ratio whose text is read as its neighbour: the handle that was saved has one, and the stored
game the other. -/
theorem saved_ratio_read_as_neighbour :
    let client : Client (Database JsonText) := after
      { store := ({} : Database JsonText).upToDate } [.createGame "qq" "hall" (some "night")]
    let configure : Request := .updateGame 0 (.configure "ratio" (.float (1.0 / 11.0)))
    ∃ after, (client.ask configure).1 = .updated after (.ok true) ∧
      ((client.ask configure).2.ask (.gameNamed "qq" "night")).1 ≠
        .gameIfAny (.ok (some after)) := by
  intro client configure
  refine ⟨_, rfl, ?_⟩
  decide +kernel

end Client
end DiceHost
