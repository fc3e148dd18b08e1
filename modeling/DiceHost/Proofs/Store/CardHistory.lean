import DiceHost.Proofs.Store.CardLaws
import DiceHost.Proofs.Store.Clients

/-! # Cards and bindings through any history

Whatever clients ask for and whichever operations the store refuses, its deck stays sound; and a
request that fails leaves the store as it was. Each request makes at most one move of the deck,
with everything that can fail before it.
-/
namespace DiceHost
open CardStore (deck)
variable {σ α : Type} [Store σ] [CardStore σ]

/-- One store has the deck of another one, a move later. -/
def Moved (s s' : σ) : Prop := ∃ e, (deck s).Move e ∧ e.Alike (deck s')

theorem moved_of_eq {s s' : σ} (h : deck s' = deck s) : Moved s s' :=
  ⟨deck s, .none, h ▸ Deck.Alike.refl _⟩

theorem Moved.sound {s s' : σ} (h : Moved s s') (hs : (deck s).Sound) : (deck s').Sound := by
  obtain ⟨e, hmove, halike⟩ := h
  exact (hs.move hmove).alike halike

/-! ## What users do with cards -/

section Services
variable {left : σ} {s : Faulty σ} (h : s.inner = left)
include h

theorem settles_target (owner : Owner) (name : Option String) :
    Settles left (Card.target owner name) s (fun card inner => inner = left ∧
      (deck left).Has owner card.name) := by
  cases name with
  | some name =>
    refine (settles_attempt h (CardStore.card? left owner name)).bind ?_
    rintro found s' ⟨hinner, hfound⟩
    cases found with
    | some card => exact settles_pure ⟨hinner, hfound card rfl⟩
    | none => exact settles_throw hinner
  | none =>
    refine (settles_attempt h (CardStore.activeCard? left owner)).bind ?_
    rintro found s' ⟨hinner, hfound⟩
    cases found with
    | some card => exact settles_pure ⟨hinner, hfound card rfl⟩
    | none => exact settles_throw hinner

theorem settles_create (owner : Owner) (name kind : String) (attributes : Fields) :
    Settles left (Card.create owner name kind attributes) s (fun _ inner => Moved left inner) := by
  unfold Card.create
  split
  · exact settles_throw h
  · refine (settles_attempt h (CardStore.cards left owner)).bind ?_
    rintro others s' ⟨hinner, hothers⟩
    refine settles_attempt hinner ((CardStore.createCard left _).mono ?_)
    rintro card s'' ⟨hfree, halike⟩
    exact ⟨_, .create _ hfree (fun hfirst => hothers (List.isEmpty_iff.mp hfirst)), halike⟩

theorem settles_mergeAttributes (owner : Owner) (name : Option String) (attributes : Fields) :
    Settles left (Card.mergeAttributes owner name attributes) s (fun _ inner =>
      Moved left inner) := by
  refine (settles_target h owner name).bind ?_
  rintro card s' ⟨hinner, -⟩
  refine (settles_attempt hinner (CardStore.setAttributes left owner card.name _)).bind ?_
  intro _ s'' hdeck
  exact settles_pure (moved_of_eq hdeck)

theorem settles_switch (owner : Owner) (name : String) :
    Settles left (Card.switch owner name) s (fun _ inner => Moved left inner) := by
  refine (settles_attempt h (CardStore.activate left owner name)).bind ?_
  intro found s' hfound
  cases found with
  | true =>
    refine settles_pure ⟨_, .activate owner name, ?_⟩
    rw [show deck s'.inner = _ from hfound]
    exact Deck.Alike.refl _
  | false => exact settles_throw hfound

theorem settles_bound? (owner : Owner) (group : String) :
    Settles left (Card.bound? owner group) s (fun _ inner => inner = left) := by
  refine (settles_attempt h (CardStore.binding? left owner group)).bind ?_
  intro found s' hinner
  cases found with
  | none => exact settles_pure hinner
  | some binding =>
    exact settles_attempt hinner ((CardStore.card? left owner binding.card).mono
      (fun _ _ hread => hread.1))

theorem settles_resolve? (owner : Owner) (group : String) :
    Settles left (Card.resolve? owner group) s (fun _ inner => inner = left) := by
  refine (settles_bound? h owner group).bind ?_
  intro found s' hinner
  cases found with
  | some card => exact settles_pure hinner
  | none =>
    exact settles_attempt hinner ((CardStore.activeCard? left owner).mono
      (fun _ _ hread => hread.1))

theorem settles_bindIn (owner : Owner) (group : String) (name : Option String) :
    Settles left (Card.bindIn owner group name) s (fun _ inner => Moved left inner) := by
  unfold Card.bindIn
  split
  · exact settles_throw h
  · next hgroup =>
    refine (settles_target h owner name).bind ?_
    rintro card s' ⟨hinner, hcard⟩
    refine (settles_attempt hinner (CardStore.setBinding left ⟨owner, group, card.name⟩)).bind ?_
    intro _ s'' halike
    -- The copy is written last, and its failure is caught.
    have hcache : Settles left (card.writeCache owner.user group) s''
        (fun _ inner => deck inner = deck s''.inner) :=
      (settles_attempt rfl (CardStore.setValue s''.inner .group group _ _)).caught rfl
    refine hcache.bind ?_
    intro _ s''' hdeck
    have hfilled : group ≠ "" := by simpa using hgroup
    refine settles_pure ⟨_, .bind ⟨owner, group, card.name⟩ hfilled hcard, ?_⟩
    rw [hdeck]
    exact halike

theorem settles_openNamed (platform channel name : String) :
    Settles left (Game.openNamed platform channel name) s (fun _ inner => Moved left inner) := by
  refine (settles_attempt h (CardStore.gameNamed? left platform name)).bind ?_
  intro found s' hinner
  cases found with
  | some game => exact settles_throw hinner
  | none =>
    exact settles_attempt hinner ((CardStore.saveGame left _).mono (fun _ _ hdeck =>
      moved_of_eq hdeck))

end Services

theorem deck_applyWrites (writes : List Write) (s : Faulty σ) :
    deck ((applyWrites writes : StateM (Faulty σ) Nat) s).2.inner = deck s.inner := by
  induction writes generalizing s with
  | nil => rfl
  | cons write rest ih =>
    have hwrite : Settles s.inner
        (Store.setValue write.scope write.id write.key write.value : Action (Faulty σ) Unit) s
        (fun _ inner => deck inner = deck s.inner) :=
      settles_attempt rfl (CardStore.setValue s.inner _ _ _ _)
    unfold Settles at hwrite
    cases hx : (Store.setValue write.scope write.id write.key write.value :
        Action (Faulty σ) Unit) s with
    | mk outcome s' =>
      rw [hx] at hwrite
      have hrun : (applyWrites (write :: rest) : StateM (Faulty σ) Nat) s = _ := run_bind hx
      rw [hrun]
      cases outcome with
      | ok _ => exact (ih s').trans hwrite
      | error failure => exact (ih s').trans (congrArg deck hwrite)

/-! ## Requests -/

def failureOf {β : Type} : Except Failure β → Option Failure
  | .ok _ => none
  | .error failure => some failure

/-- The failure that an answer reports. -/
def Answer.failure? : Answer → Option Failure
  | card outcome => failureOf outcome
  | cardIfAny outcome => failureOf outcome
  | cards outcome => failureOf outcome
  | binding outcome => failureOf outcome
  | game outcome => failureOf outcome
  | gameIfAny outcome => failureOf outcome
  | updated _ outcome => failureOf outcome
  | done outcome => failureOf outcome
  | changed outcome => failureOf outcome
  | flushed _ _ => none
  | value outcome => failureOf outcome
  | values outcome => failureOf outcome
  | noHandle => none

/-- The deck has made a move at most, and none at all where there was a failure. -/
def Settled (s s' : σ) (failure : Option Failure) : Prop :=
  Moved s s' ∧ (failure ≠ none → s' = s)

theorem settled_none {s s' : σ} (h : deck s' = deck s) : Settled s s' none :=
  ⟨moved_of_eq h, fun hne => absurd rfl hne⟩

theorem Settles.settled {s s' : Faulty σ} {x : Action (Faulty σ) α} {outcome : Except Failure α}
    (h : Settles s.inner x s (fun _ inner => Moved s.inner inner)) (hx : x s = (outcome, s')) :
    Settled s.inner s'.inner (failureOf outcome) := by
  unfold Settles at h
  rw [hx] at h
  cases outcome with
  | ok value => exact ⟨h, fun hne => absurd rfl hne⟩
  | error failure => exact ⟨moved_of_eq (congrArg deck h), fun _ => h⟩

namespace Request
variable {counter : UInt32} {handles : List Game} {s : Faulty σ}

/-- A request makes a move of the deck at most, and fails without effect. -/
def Orderly (counter : UInt32) (handles : List Game) (s : Faulty σ) (request : Request) : Prop :=
  ∃ result s', request.run counter handles s = (result, s') ∧
    Settled s.inner s'.inner result.2.failure?

theorem orderly_of_settles {request : Request} {wrap : Except Failure α → Answer}
    {x : Action (Faulty σ) α} (h : Settles s.inner x s (fun _ inner => Moved s.inner inner))
    (hwrap : ∀ outcome, (wrap outcome).failure? = failureOf outcome)
    (hrun : request.run counter handles s = answering counter wrap x s) :
    request.Orderly counter handles s := by
  cases hx : x s with
  | mk outcome s' =>
    refine ⟨(counter, wrap outcome), s', hrun.trans (run_bind hx), ?_⟩
    rw [hwrap]
    exact h.settled hx

theorem orderly_of_reading {request : Request} {wrap : Except Failure α → Answer}
    {x : Action (Faulty σ) α} (h : Settles s.inner x s (fun _ inner => inner = s.inner))
    (hwrap : ∀ outcome, (wrap outcome).failure? = failureOf outcome)
    (hrun : request.run counter handles s = answering counter wrap x s) :
    request.Orderly counter handles s :=
  orderly_of_settles (h.mono (fun _ _ hsame => moved_of_eq (congrArg deck hsame))) hwrap hrun

variable (counter handles s)

theorem orderly_createGame (platform channel : String) (name : Option String) :
    (createGame platform channel name).Orderly counter handles s := by
  cases hx : (Game.openNamed platform channel (title counter name) : Action (Faulty σ) Game) s with
  | mk outcome s' =>
    exact ⟨(counted counter name, .game outcome), s', run_createGame hx,
      (settles_openNamed rfl _ _ _).settled hx⟩

theorem orderly_updateGame (handle : Nat) (change : GameChange) :
    (updateGame handle change).Orderly counter handles s := by
  cases hgame : handles[handle]? with
  | none =>
    refine ⟨(counter, .noHandle), s, ?_, settled_none rfl⟩
    rw [run, hgame]
    rfl
  | some game =>
    cases hchange : change.apply game with
    | none =>
      refine ⟨(counter, .updated game (.ok false)), s, ?_, settled_none rfl⟩
      rw [run, hgame]
      exact run_bind (run_update_none hchange s)
    | some changed =>
      have hsaved : Settles s.inner (Store.saveGame changed) s
          (fun _ inner => Moved s.inner inner) :=
        settles_attempt rfl ((CardStore.saveGame s.inner changed).mono (fun _ _ hdeck =>
          moved_of_eq hdeck))
      cases hx : (Store.saveGame changed : Action (Faulty σ) Game) s with
      | mk outcome s' =>
        have hsettled := hsaved.settled hx
        have hupdate := run_update_some hchange hx
        cases outcome with
        | ok saved =>
          refine ⟨(counter, .updated saved (.ok true)), s', ?_, hsettled⟩
          rw [run, hgame]
          exact run_bind hupdate
        | error failure =>
          refine ⟨(counter, .updated changed (.error failure)), s', ?_, hsettled⟩
          rw [run, hgame]
          exact run_bind hupdate

theorem orderly_destroyGame (handle : Nat) :
    (destroyGame handle).Orderly counter handles s := by
  cases hgame : handles[handle]? with
  | none =>
    refine ⟨(counter, .noHandle), s, ?_, settled_none rfl⟩
    rw [run, hgame]
    rfl
  | some game =>
    have hremoved : Settles s.inner (Store.removeGame game.id) s
        (fun _ inner => Moved s.inner inner) :=
      settles_attempt rfl ((CardStore.removeGame s.inner game.id).mono (fun _ _ hdeck =>
        moved_of_eq hdeck))
    have hwrap (outcome : Except Failure Bool) : (Answer.changed outcome).failure? =
        failureOf outcome := rfl
    refine orderly_of_settles hremoved hwrap ?_
    rw [run, hgame]

theorem orderly_flush (storage : Storage) :
    (Request.flush storage).Orderly counter handles s :=
  ⟨(counter, .flushed (storage.flush s).1.1 (storage.flush s).1.2), (storage.flush s).2, rfl,
    settled_none (deck_applyWrites storage.pending s)⟩

theorem orderly (request : Request) : request.Orderly counter handles s := by
  cases request with
  | activeCard owner =>
    refine orderly_of_reading (settles_attempt rfl ?_) (fun _ => rfl) rfl
    exact (CardStore.activeCard? s.inner owner).mono (fun _ _ hread => hread.1)
  | card owner name =>
    refine orderly_of_reading (settles_attempt rfl ?_) (fun _ => rfl) rfl
    exact (CardStore.card? s.inner owner name).mono (fun _ _ hread => hread.1)
  | cards owner =>
    refine orderly_of_reading (settles_attempt rfl ?_) (fun _ => rfl) rfl
    exact (CardStore.cards s.inner owner).mono (fun _ _ hread => hread.1)
  | createCard owner name kind attributes =>
    exact orderly_of_settles (settles_create rfl owner name kind attributes) (fun _ => rfl) rfl
  | mergeAttributes owner name attributes =>
    exact orderly_of_settles (settles_mergeAttributes rfl owner name attributes) (fun _ => rfl) rfl
  | switchCard owner name =>
    exact orderly_of_settles (settles_switch rfl owner name) (fun _ => rfl) rfl
  | deleteCard owner name =>
    refine orderly_of_settles (settles_attempt rfl ?_) (fun _ => rfl) rfl
    exact (CardStore.removeCard s.inner owner name).mono (fun _ _ hdeck =>
      ⟨_, .remove owner name, hdeck ▸ Deck.Alike.refl _⟩)
  | boundCard owner group =>
    exact orderly_of_reading (settles_bound? rfl owner group) (fun _ => rfl) rfl
  | resolveCard owner group =>
    exact orderly_of_reading (settles_resolve? rfl owner group) (fun _ => rfl) rfl
  | bindCard owner group name =>
    exact orderly_of_settles (settles_bindIn rfl owner group name) (fun _ => rfl) rfl
  | unbindCard owner group =>
    refine orderly_of_settles (settles_attempt rfl ?_) (fun _ => rfl) rfl
    exact (CardStore.removeBinding s.inner owner group).mono (fun _ _ hdeck =>
      ⟨_, .unbind owner group, hdeck ▸ Deck.Alike.refl _⟩)
  | binding owner group =>
    exact orderly_of_reading (settles_attempt rfl (CardStore.binding? s.inner owner group))
      (fun _ => rfl) rfl
  | gameAt platform channel =>
    exact orderly_of_reading (settles_attempt rfl (CardStore.gameAt? s.inner platform channel))
      (fun _ => rfl) rfl
  | gameNamed platform name =>
    exact orderly_of_reading (settles_attempt rfl (CardStore.gameNamed? s.inner platform name))
      (fun _ => rfl) rfl
  | createGame platform channel name =>
    exact orderly_createGame counter handles s platform channel name
  | updateGame handle change => exact orderly_updateGame counter handles s handle change
  | destroyGame handle => exact orderly_destroyGame counter handles s handle
  | flush storage => exact orderly_flush counter handles s storage
  | value scope id key =>
    exact orderly_of_reading (settles_attempt rfl (CardStore.value? s.inner scope id key))
      (fun _ => rfl) rfl
  | values scope id =>
    exact orderly_of_reading (settles_attempt rfl (CardStore.values s.inner scope id))
      (fun _ => rfl) rfl

end Request

/-! ## Histories -/

namespace Client

/-- A client after its requests. -/
def after {σ : Type} [Store σ] (client : Client σ) (requests : List Request) : Client σ :=
  requests.foldl (fun client request => (client.ask request).2) client

theorem ask_settled (client : Client (Faulty σ)) (request : Request) :
    Settled client.store.inner (client.ask request).2.store.inner
      (client.ask request).1.failure? := by
  obtain ⟨result, s', hrun, hsettled⟩ :=
    Request.orderly client.counter client.handles client.store request
  unfold Client.ask
  rw [hrun]
  exact hsettled

theorem sound_after {client : Client (Faulty σ)} (h : (deck client.store.inner).Sound)
    (requests : List Request) : (deck (client.after requests).store.inner).Sound := by
  induction requests generalizing client with
  | nil => exact h
  | cons request rest ih => exact ih ((client.ask_settled request).1.sound h)

/-- From an empty store, of either kind and whatever it refuses: after any requests its deck is
sound, and a request that fails leaves everything in it as it was. -/
theorem sound_and_unharmed {γ : Type} [Column γ]
    (refusal : Nat → Store.Operation → Option Failure) (requests : List Request) :
    let memory : Client (Faulty Memory) :=
      after { store := { inner := {}, refusal := refusal } } requests
    let tables : Client (Faulty (Database γ)) :=
      after { store := { inner := ({} : Database γ).upToDate, refusal := refusal } } requests
    (memory.store.inner.deck.Sound ∧ ∀ request, (memory.ask request).1.failure? ≠ none →
      (memory.ask request).2.store.inner = memory.store.inner) ∧
    (tables.store.inner.deck.Sound ∧ ∀ request, (tables.ask request).1.failure? ≠ none →
      (tables.ask request).2.store.inner = tables.store.inner) := by
  intro memory tables
  have hmemory : (deck memory.store.inner).Sound := sound_after Deck.sound_empty requests
  have htables : (deck tables.store.inner).Sound := sound_after Deck.sound_empty requests
  exact ⟨⟨hmemory, fun request => (memory.ask_settled request).2⟩,
    htables, fun request => (tables.ask_settled request).2⟩

/-- A store that cannot keep bindings. -/
def unbinding (_ : Nat) (operation : Store.Operation) : Option Failure :=
  if operation = .setBinding then some (.store "busy") else none

/-- A second card is not active, and the store is as it was after a binding was refused. -/
theorem sound_and_unharmed_unbinding :
    let owner : Owner := ⟨"u1", "qq"⟩
    let client : Client (Faulty (Database JsonText)) :=
      after { store := { inner := ({} : Database JsonText).upToDate, refusal := unbinding } }
        [.createCard owner "Ann" "coc" [], .createCard owner "Bea" "coc" []]
    let request : Request := .bindCard owner "g1" (some "Bea")
    client.store.inner.deck.cards.map (fun card => (card.id, card.name, card.active)) =
        [(1, "Ann", true), (2, "Bea", false)] ∧
      (client.ask request).1.failure? ≠ none ∧ client.store.inner.deck.Sound ∧
      (client.ask request).2.store.inner = client.store.inner := by
  intro owner client request
  have hcards : client.store.inner.deck.cards.map (fun card => (card.id, card.name, card.active)) =
      [(1, "Ann", true), (2, "Bea", false)] := by
    decide +kernel
  have hfails : (client.ask request).1.failure? ≠ none := by
    decide +kernel
  obtain ⟨-, hsound, hunharmed⟩ := sound_and_unharmed (γ := JsonText) unbinding
    [.createCard owner "Ann" "coc" [], .createCard owner "Bea" "coc" []]
  exact ⟨hcards, hfails, hsound, hunharmed request hfails⟩

end Client
end DiceHost
