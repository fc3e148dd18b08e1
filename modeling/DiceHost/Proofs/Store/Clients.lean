import DiceHost.Proofs.Store.Services

/-! # Clients of a store

A client asks the services of one store for one thing after another and keeps every game it is
given as a handle. As long as it changes no game through a handle of a game that was destroyed,
it cannot tell a store of tables from a store in memory.
-/
namespace DiceHost

/-- What a client asks for. A handle is named by its place among those the client was given. -/
inductive Request where
  | activeCard (owner : Owner)
  | card (owner : Owner) (name : String)
  | cards (owner : Owner)
  | createCard (owner : Owner) (name kind : String) (attributes : Fields)
  | mergeAttributes (owner : Owner) (name : Option String) (attributes : Fields)
  | switchCard (owner : Owner) (name : String)
  | deleteCard (owner : Owner) (name : String)
  | boundCard (owner : Owner) (group : String)
  | resolveCard (owner : Owner) (group : String)
  | bindCard (owner : Owner) (group : String) (name : Option String)
  | unbindCard (owner : Owner) (group : String)
  | binding (owner : Owner) (group : String)
  | gameAt (platform channel : String)
  | gameNamed (platform name : String)
  | createGame (platform channel : String) (name : Option String)
  | updateGame (handle : Nat) (change : GameChange)
  | destroyGame (handle : Nat)
  | flush (storage : Storage)
  | value (scope : DataScope) (id key : String)
  | values (scope : DataScope) (id : String)
deriving DecidableEq, Repr

inductive Answer where
  | card (outcome : Except Failure Card)
  | cardIfAny (outcome : Except Failure (Option Card))
  | cards (outcome : Except Failure (List Card))
  | binding (outcome : Except Failure (Option Binding))
  | game (outcome : Except Failure Game)
  | gameIfAny (outcome : Except Failure (Option Game))
  /-- the handle comes back as it is after the attempt -/
  | updated (handle : Game) (outcome : Except Failure Bool)
  | done (outcome : Except Failure Unit)
  | changed (outcome : Except Failure Bool)
  | flushed (storage : Storage) (applied : Nat)
  | value (outcome : Except Failure (Option Json))
  | values (outcome : Except Failure Fields)
  | noHandle
deriving DecidableEq

/-- The game a client is given with an answer. -/
def Answer.handle? : Answer → Option Game
  | game outcome => outcome.toOption
  | gameIfAny outcome => outcome.toOption.join
  | updated handle _ => some handle
  | _ => none

namespace Request

def answering {σ α : Type} (counter : UInt32) (wrap : Except Failure α → Answer)
    (action : Action σ α) : StateM σ (UInt32 × Answer) :=
  return (counter, wrap (← action.run))

/-- Answer a request. The counter numbers the games that were given no name. -/
def run {σ : Type} [Store σ] (counter : UInt32) (handles : List Game) :
    Request → StateM σ (UInt32 × Answer)
  | activeCard owner => answering counter .cardIfAny (Store.activeCard? owner)
  | card owner name => answering counter .cardIfAny (Store.card? owner name)
  | cards owner => answering counter .cards (Store.cards owner)
  | createCard owner name kind attributes =>
    answering counter .card (Card.create owner name kind attributes)
  | mergeAttributes owner name attributes =>
    answering counter .card (Card.mergeAttributes owner name attributes)
  | switchCard owner name => answering counter .done (Card.switch owner name)
  | deleteCard owner name => answering counter .changed (Store.removeCard owner name)
  | boundCard owner group => answering counter .cardIfAny (Card.bound? owner group)
  | resolveCard owner group => answering counter .cardIfAny (Card.resolve? owner group)
  | bindCard owner group name => answering counter .card (Card.bindIn owner group name)
  | unbindCard owner group => answering counter .changed (Store.removeBinding owner group)
  | binding owner group => answering counter .binding (Store.binding? owner group)
  | gameAt platform channel => answering counter .gameIfAny (Store.gameAt? platform channel)
  | gameNamed platform name => answering counter .gameIfAny (Store.gameNamed? platform name)
  | createGame platform channel name => do
    let (counter, outcome) ← Game.create counter platform channel name
    return (counter, .game outcome)
  | updateGame handle change => do
    match handles[handle]? with
    | none => return (counter, .noHandle)
    | some game =>
      let (game, outcome) ← Game.update game change
      return (counter, .updated game outcome)
  | destroyGame handle => do
    match handles[handle]? with
    | none => return (counter, .noHandle)
    | some game => answering counter .changed (Store.removeGame game.id)
  | flush storage => do
    let (storage, applied) ← storage.flush
    return (counter, .flushed storage applied)
  | value scope id key => answering counter .value (Store.value? scope id key)
  | values scope id => answering counter .values (Store.values scope id)

/-- The numbers of the games that a request destroys. -/
def closes (handles : List Game) : Request → List Int
  | destroyGame handle => (handles[handle]?.map Game.id).toList
  | _ => []

/-- The handle through which a request changes a game. -/
def changes? : Request → Option Nat
  | updateGame handle _ => some handle
  | _ => none

/-- A request does not change a game that was destroyed. -/
def Allowed (handles : List Game) (closed : List Int) (request : Request) : Prop :=
  ∀ handle ∈ request.changes?, ∀ game ∈ handles[handle]?, game.id ∉ closed

instance (handles : List Game) (closed : List Int) (request : Request) :
    Decidable (request.Allowed handles closed) :=
  inferInstanceAs (Decidable (∀ handle ∈ request.changes?, ∀ game ∈ handles[handle]?,
    game.id ∉ closed))

/-- The values that a request carries are such as columns hold. -/
def Suits (p : Json → Prop) : Request → Prop
  | createCard _ _ _ attributes => KeyTable.Suits p attributes
  | mergeAttributes _ _ attributes => KeyTable.Suits p attributes
  | updateGame _ change => change.Suits p
  | flush storage => ∀ write ∈ storage.pending, p write.value
  | _ => True

/-- The name that a game is opened under. -/
def title (counter : UInt32) (name : Option String) : String :=
  name.getD (Game.defaultName (counter + 1))

/-- The counter after a game was to be opened; only those without a name are counted. -/
def counted (counter : UInt32) (name : Option String) : UInt32 :=
  if name.isNone then counter + 1 else counter

/-- The counter after a request. -/
def counterAfter (counter : UInt32) : Request → UInt32
  | createGame _ _ name => counted counter name
  | _ => counter

/-- To create a game is to open one under its title. -/
theorem run_createGame {σ : Type} [Store σ] {counter : UInt32} {handles : List Game}
    {platform channel : String} {name : Option String} {s s' : σ} {outcome : Except Failure Game}
    (hx : (Game.openNamed platform channel (title counter name) : Action σ Game) s =
      (outcome, s')) :
    (createGame platform channel name).run counter handles s =
      ((counted counter name, .game outcome), s') := by
  have hcreated : (Game.create counter platform channel name : StateM σ _) s =
      ((counted counter name, outcome), s') := by
    cases name with
    | some name => exact run_bind hx
    | none => exact run_bind hx
  rw [run]
  exact run_bind hcreated

/-! ## One request on two stores -/

/-- A request is answered alike on two stores, which hold the same afterwards. -/
def Agrees {γ : Type} [Column γ] (p : Json → Prop) (counter : UInt32) (handles : List Game)
    (closed : List Int) (d : Database γ) (m : Memory) (request : Request) : Prop :=
  ∃ result d' m', request.run counter handles d = (result, d') ∧
    request.run counter handles m = (result, m') ∧
    Matches p (handles ++ result.2.handle?.toList) (closed ++ request.closes handles) d' m'

section Agrees
variable {γ α : Type} [Column γ] {p : Json → Prop} {counter : UInt32} {handles : List Game}
  {closed : List Int} {d : Database γ} {m : Memory}

/-- Where a request is an action on the store, it is enough that the action agrees. -/
theorem agrees_of_agree {request : Request} {wrap : Except Failure α → Answer}
    {x : Action (Database γ) α} {y : Action Memory α}
    (hd : request.run counter handles d = answering counter wrap x d)
    (hm : request.run counter handles m = answering counter wrap y m)
    (hcloses : request.closes handles = []) (h : Agree p handles closed d m x y)
    (hgiven : ∀ game ∈ (wrap (y m).1).handle?, game ∈ (y m).2.games) :
    request.Agrees p counter handles closed d m := by
  obtain ⟨hanswer, hmatches⟩ := h
  refine ⟨(counter, wrap (y m).1), (x d).2, (y m).2, ?_, hm, ?_⟩
  · rw [hd, ← hanswer]
    rfl
  · rw [hcloses, List.append_nil]
    cases hhandle : (wrap (y m).1).handle? with
    | none =>
      rw [Option.toList_none, List.append_nil]
      exact hmatches
    | some game =>
      have hstored := hgiven game hhandle
      exact { hmatches with
        known := hmatches.known.append hstored (hmatches.games.suits game hstored) }

theorem agrees_without_handle {request : Request} {wrap : Except Failure α → Answer}
    {x : Action (Database γ) α} {y : Action Memory α} (h : Agree p handles closed d m x y)
    (hwrap : ∀ outcome, (wrap outcome).handle? = none)
    (hd : request.run counter handles d = answering counter wrap x d)
    (hm : request.run counter handles m = answering counter wrap y m)
    (hcloses : request.closes handles = []) : request.Agrees p counter handles closed d m := by
  refine agrees_of_agree hd hm hcloses h ?_
  intro game hgame
  rw [hwrap] at hgame
  cases hgame

section Games
variable (counter) (h : Matches p handles closed d m)
include h

theorem agrees_noHandle {request : Request}
    (hd : request.run counter handles d = ((counter, .noHandle), d))
    (hm : request.run counter handles m = ((counter, .noHandle), m))
    (hcloses : request.closes handles = []) : request.Agrees p counter handles closed d m := by
  refine ⟨(counter, .noHandle), d, m, hd, hm, ?_⟩
  have hhandles : handles ++ Answer.noHandle.handle?.toList = handles := List.append_nil handles
  rw [hcloses, List.append_nil, hhandles]
  exact h

theorem agrees_createGame (hfaithful : Column.Faithful γ p) (platform channel : String)
    (name : Option String) :
    (createGame platform channel name).Agrees p counter handles closed d m := by
  obtain ⟨⟨next, outcome⟩, d', m', hd, hm, hmatches⟩ :=
    create_eq h hfaithful counter platform channel name
  refine ⟨(next, .game outcome), d', m', ?_, ?_, ?_⟩
  · rw [run]
    exact run_bind hd
  · rw [run]
    exact run_bind hm
  · have hcloses : closes handles (createGame platform channel name) = [] := rfl
    rw [hcloses, List.append_nil]
    exact hmatches

theorem agrees_updateGame (handle : Nat) {change : GameChange} (hsuits : change.Suits p)
    (hopen : ∀ game ∈ handles[handle]?, game.id ∉ closed) :
    (updateGame handle change).Agrees p counter handles closed d m := by
  cases hgame : handles[handle]? with
  | none => exact agrees_noHandle counter h (by rw [run, hgame]; rfl) (by rw [run, hgame]; rfl) rfl
  | some game =>
    obtain ⟨⟨changed, outcome⟩, d', m', hd, hm, hmatches⟩ :=
      update_eq h (List.mem_of_getElem? hgame) (hopen game hgame) hsuits
    refine ⟨(counter, .updated changed outcome), d', m', ?_, ?_, ?_⟩
    · rw [run, hgame]
      exact run_bind hd
    · rw [run, hgame]
      exact run_bind hm
    · have hcloses : closes handles (updateGame handle change) = [] := rfl
      rw [hcloses, List.append_nil]
      exact hmatches

theorem agrees_destroyGame (handle : Nat) :
    (destroyGame handle).Agrees p counter handles closed d m := by
  cases hgame : handles[handle]? with
  | none =>
    refine agrees_noHandle counter h (by rw [run, hgame]; rfl) (by rw [run, hgame]; rfl) ?_
    rw [closes, hgame]
    rfl
  | some game =>
    obtain ⟨hanswer, hmatches⟩ := agree_removeGame h game.id
    have hcloses : closes handles (destroyGame handle) = [game.id] := by
      rw [closes, hgame]
      rfl
    refine ⟨(counter, .changed ((Store.removeGame game.id : Action Memory Bool) m).1),
      ((Store.removeGame game.id : Action (Database γ) Bool) d).2,
      ((Store.removeGame game.id : Action Memory Bool) m).2, ?_, ?_, ?_⟩
    · rw [run, hgame, ← hanswer]
      rfl
    · rw [run, hgame]
      rfl
    · rw [hcloses]
      exact (List.append_nil handles).symm ▸ hmatches

theorem agrees_flush {storage : Storage} (hsuits : ∀ write ∈ storage.pending, p write.value) :
    (Request.flush storage).Agrees p counter handles closed d m := by
  obtain ⟨hanswer, hmatches⟩ := agree_flush h hsuits
  refine ⟨(counter, .flushed (storage.flush m).1.1 (storage.flush m).1.2), (storage.flush d).2,
    (storage.flush m).2, ?_, rfl, ?_⟩
  · rw [← hanswer]
    rfl
  · have hcloses : closes handles (Request.flush storage) = [] := rfl
    rw [hcloses, List.append_nil]
    exact (List.append_nil handles).symm ▸ hmatches

end Games

theorem agrees (counter : UInt32) (hfaithful : Column.Faithful γ p)
    (h : Matches p handles closed d m) {request : Request} (hsuits : request.Suits p)
    (hallowed : request.Allowed handles closed) :
    request.Agrees p counter handles closed d m := by
  cases request with
  | activeCard owner =>
    exact agrees_without_handle (agree_activeCard? hfaithful h owner) (fun _ => rfl) rfl rfl rfl
  | card owner name =>
    exact agrees_without_handle (agree_card? hfaithful h owner name) (fun _ => rfl) rfl rfl rfl
  | cards owner =>
    exact agrees_without_handle (agree_cards hfaithful h owner) (fun _ => rfl) rfl rfl rfl
  | createCard owner name kind attributes =>
    exact agrees_without_handle (agree_create hfaithful h owner name kind hsuits)
      (fun _ => rfl) rfl rfl rfl
  | mergeAttributes owner name attributes =>
    exact agrees_without_handle (agree_mergeAttributes hfaithful h owner name hsuits)
      (fun _ => rfl) rfl rfl rfl
  | switchCard owner name =>
    exact agrees_without_handle (agree_switch h owner name) (fun _ => rfl) rfl rfl rfl
  | deleteCard owner name =>
    exact agrees_without_handle (agree_removeCard h owner name) (fun _ => rfl) rfl rfl rfl
  | boundCard owner group =>
    exact agrees_without_handle (agree_bound? hfaithful h owner group) (fun _ => rfl) rfl rfl rfl
  | resolveCard owner group =>
    exact agrees_without_handle (agree_resolve? hfaithful h owner group) (fun _ => rfl) rfl rfl rfl
  | bindCard owner group name =>
    exact agrees_without_handle (agree_bindIn hfaithful h owner group name) (fun _ => rfl)
      rfl rfl rfl
  | unbindCard owner group =>
    exact agrees_without_handle (agree_removeBinding h owner group) (fun _ => rfl) rfl rfl rfl
  | binding owner group =>
    exact agrees_without_handle (agree_binding? h owner group) (fun _ => rfl) rfl rfl rfl
  | gameAt platform channel =>
    refine agrees_of_agree rfl rfl rfl (agree_gameAt? hfaithful h platform channel) ?_
    intro game hgame
    exact List.mem_of_find?_eq_some hgame
  | gameNamed platform name =>
    refine agrees_of_agree rfl rfl rfl (agree_gameNamed? hfaithful h platform name) ?_
    intro game hgame
    exact List.mem_of_find?_eq_some hgame
  | createGame platform channel name =>
    exact agrees_createGame counter h hfaithful platform channel name
  | updateGame handle change =>
    exact agrees_updateGame counter h handle hsuits (hallowed handle rfl)
  | destroyGame handle => exact agrees_destroyGame counter h handle
  | flush storage => exact agrees_flush counter h hsuits
  | value scope id key =>
    exact agrees_without_handle (agree_value? hfaithful h scope id key) (fun _ => rfl) rfl rfl rfl
  | values scope id =>
    exact agrees_without_handle (agree_values hfaithful h scope id) (fun _ => rfl) rfl rfl rfl

end Agrees
end Request

/-! ## Many requests -/

/-- A client of a store: the counter of games without a name, the handles it was given, and the
numbers of the games it has destroyed. -/
structure Client (σ : Type) where
  store : σ
  counter : UInt32 := 0
  handles : List Game := []
  closed : List Int := []

namespace Client
variable {σ : Type} [Store σ]

def ask (client : Client σ) (request : Request) : Answer × Client σ :=
  let ((counter, answer), store) := request.run client.counter client.handles client.store
  (answer,
    { store := store
      counter := counter
      handles := client.handles ++ answer.handle?.toList
      closed := client.closed ++ request.closes client.handles })

/-- The answers to requests, in their order. -/
def answers (client : Client σ) : List Request → List Answer
  | [] => []
  | request :: rest => (client.ask request).1 :: (client.ask request).2.answers rest

/-- A client never changes a game that was destroyed. -/
def Careful (client : Client σ) : List Request → Prop
  | [] => True
  | request :: rest =>
    request.Allowed client.handles client.closed ∧ (client.ask request).2.Careful rest

instance decidableCareful : (client : Client σ) → (requests : List Request) →
    Decidable (client.Careful requests)
  | _, [] => .isTrue trivial
  | client, request :: rest =>
    have := decidableCareful (client.ask request).2 rest
    inferInstanceAs (Decidable (request.Allowed client.handles client.closed ∧
      (client.ask request).2.Careful rest))

variable {γ : Type} [Column γ] {p : Json → Prop}

/-- Two clients that were told the same, of two stores that hold the same. -/
structure Twins (p : Json → Prop) (client : Client (Database γ)) (other : Client Memory) :
    Prop where
  counter : client.counter = other.counter
  handles : client.handles = other.handles
  closed : client.closed = other.closed
  stores : Matches p other.handles other.closed client.store other.store

theorem Twins.ask {client : Client (Database γ)} {other : Client Memory}
    (h : Twins p client other) (hfaithful : Column.Faithful γ p) {request : Request}
    (hsuits : request.Suits p) (hallowed : request.Allowed other.handles other.closed) :
    (client.ask request).1 = (other.ask request).1 ∧
      Twins p (client.ask request).2 (other.ask request).2 := by
  obtain ⟨⟨counter, answer⟩, d', m', hd, hm, hmatches⟩ :=
    Request.agrees other.counter hfaithful h.stores hsuits hallowed
  have hclient : client.ask request = (answer, ⟨d', counter, other.handles ++ answer.handle?.toList,
      other.closed ++ request.closes other.handles⟩) := by
    unfold Client.ask
    rw [h.counter, h.handles, h.closed, hd]
  have hother : other.ask request = (answer, ⟨m', counter, other.handles ++ answer.handle?.toList,
      other.closed ++ request.closes other.handles⟩) := by
    unfold Client.ask
    rw [hm]
  rw [hclient, hother]
  exact ⟨rfl, rfl, rfl, rfl, hmatches⟩

theorem Twins.answers {client : Client (Database γ)} {other : Client Memory}
    (h : Twins p client other) (hfaithful : Column.Faithful γ p) {requests : List Request}
    (hsuits : ∀ request ∈ requests, request.Suits p) (hcareful : other.Careful requests) :
    client.answers requests = other.answers requests := by
  induction requests generalizing client other with
  | nil => rfl
  | cons request rest ih =>
    obtain ⟨hrequest, hsuits⟩ := List.forall_mem_cons.mp hsuits
    obtain ⟨hallowed, hrest⟩ := hcareful
    obtain ⟨hanswer, hnext⟩ := h.ask hfaithful hrequest hallowed
    rw [Client.answers, Client.answers, hanswer, ih hnext hsuits hrest]

theorem twins_new : Twins p { store := ({} : Database γ).upToDate } { store := ({} : Memory) } :=
  ⟨rfl, rfl, rfl, matches_empty⟩

/-- A careful client of a new store is told the same whether the store is one of tables or one in
memory, as long as it asks for nothing with a value that the columns of the tables do not hold. -/
theorem answers_alike (hfaithful : Column.Faithful γ p) (requests : List Request)
    (hsuits : ∀ request ∈ requests, request.Suits p)
    (hcareful : Careful { store := ({} : Memory) } requests) :
    Client.answers { store := ({} : Database γ).upToDate } requests =
      Client.answers { store := ({} : Memory) } requests :=
  twins_new.answers hfaithful hsuits hcareful

/-- A game is opened, joined, found again and destroyed, and a queued write is applied. -/
def evening : List Request :=
  [.createCard ⟨"ann", "qq"⟩ "Robin" "coc" [("luck", .int 55), ("notes", .arr [.str "rain"])],
    .createGame "qq" "hall" (some "night"),
    .updateGame 0 (.addUser .player "ann"),
    .gameAt "qq" "hall",
    .destroyGame 2,
    .flush { pending := [⟨.group, "hall", "mood", .float (-2.5e-7)⟩] },
    .values .group "hall"]

theorem answers_alike_evening :
    (Column.Faithful JsonText Column.Textual ∧ (∀ request ∈ evening, request.Suits Column.Textual) ∧
      Careful { store := ({} : Memory) } evening) ∧
    Client.answers { store := ({} : Database JsonText).upToDate } evening =
      Client.answers { store := ({} : Memory) } evening := by
  have hluck : Column.Textual (.int 55) := ⟨trivial, ⟨by decide, by decide⟩, by decide⟩
  have hnotes : Column.Textual (.arr [.str "rain"]) :=
    ⟨⟨trivial, trivial⟩, ⟨trivial, trivial⟩, by decide⟩
  have hmood : Column.Textual (.float (-2.5e-7)) := by
    refine ⟨trivial, ?_, by decide⟩
    simp only [Json.Numbers, Json.ReadsBack]
    decide +kernel
  have hsuits : ∀ request ∈ evening, request.Suits Column.Textual := by
    simp only [evening, List.forall_mem_cons, Request.Suits, GameChange.Suits]
    refine ⟨⟨by decide, ?_⟩, trivial, trivial, trivial, trivial, ?_, trivial, by simp⟩
    · simp [hluck, hnotes]
    · simp [hmood]
  have hcareful : Careful { store := ({} : Memory) } evening := by decide
  exact ⟨⟨Column.faithful_jsonText, hsuits, hcareful⟩,
    answers_alike Column.faithful_jsonText evening hsuits hcareful⟩

-- a game that was destroyed comes back in memory when it is changed, and not in the tables
example : let requests : List Request := [.createGame "qq" "hall" (some "night"), .destroyGame 0,
      .updateGame 0 (.setLogging true), .gameNamed "qq" "night"]
    Client.answers { store := ({} : Database Verbatim).upToDate } requests ≠
      Client.answers { store := ({} : Memory) } requests := by
  decide

end Client
end DiceHost
