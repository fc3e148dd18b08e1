import DiceHost.Proofs.Decimal.Integer
import DiceHost.Proofs.Store.Rosters

/-! # Games without a name

A game that is opened without a name is called after a counter of the service, and the names of a
platform are kept in the store. So it can be opened exactly when no game of the platform has the
next name of the counter; a refusal counts as well, and a name is free again after as many refusals
as the platform has games.
-/
namespace DiceHost
open GameStore (shelf)

theorem defaultName_injective : Function.Injective Game.defaultName := by
  intro a b h
  have hlist := congrArg String.toList h
  simp only [Game.defaultName, String.toList_append, List.append_cancel_left_eq] at hlist
  have hdigits : Decimal.natDigits a.toNat = Decimal.natDigits b.toNat := by
    simpa [Decimal.natDigits] using hlist
  rw [← UInt32.toNat_inj, ← Decimal.natOf_natDigits a.toNat, hdigits, Decimal.natOf_natDigits]

/-! ## Opening a game in any store -/

/-- What a store makes of a game that is opened under a name. -/
structure OpensFree {σ : Type} [Store σ] [GameStore σ] (s : σ) (platform channel name : String) :
    Prop where
  opened : (shelf s).Free platform name → ∃ kept s',
    (Game.openNamed platform channel name : Action σ Game) s = (.ok kept, s') ∧
      kept = (Game.fresh name platform channel).numbered ((shelf s).last + 1) ∧
      kept.label ∈ (shelf s').labels ∧
      ∀ label ∈ (shelf s').labels, label = kept.label ∨ label ∈ (shelf s).labels
  refused : ¬ (shelf s).Free platform name → ∃ failure,
    (Game.openNamed platform channel name : Action σ Game) s = (.error failure, s) ∧
      (failure = .validation ("game '" ++ name ++ "' already exists") ∨
        (Store.gameNamed? platform name s).1 = .error failure)

section Named
variable {σ : Type} [Store σ] {s s' : σ} {platform channel name : String}

theorem openNamed_of_none (h : (Store.gameNamed? platform name : Action σ _) s = (.ok none, s')) :
    (Game.openNamed platform channel name : Action σ Game) s =
      Store.saveGame (Game.fresh name platform channel) s' := run_bind_ok h

theorem openNamed_of_some {found : Game}
    (h : (Store.gameNamed? platform name : Action σ _) s = (.ok (some found), s')) :
    (Game.openNamed platform channel name : Action σ Game) s =
      (.error (.validation ("game '" ++ name ++ "' already exists")), s') := run_bind_ok h

theorem openNamed_of_error {failure : Failure}
    (h : (Store.gameNamed? platform name : Action σ _) s = (.error failure, s')) :
    (Game.openNamed platform channel name : Action σ Game) s = (.error failure, s') :=
  run_bind_error h

/-- A store that refuses neither operation opens the game as the store inside does. -/
theorem openNamed_granted {s : Faulty σ} {inner : σ} {kept : Game}
    (hread : s.refusal s.calls .gameNamed = none)
    (hsave : s.refusal (s.calls + 1) .saveGame = none)
    (h : (Game.openNamed platform channel name : Action σ Game) s.inner = (.ok kept, inner)) :
    (Game.openNamed platform channel name : Action (Faulty σ) Game) s =
      (.ok kept, { s with inner := inner, calls := s.calls + 2 }) := by
  cases hx : (Store.gameNamed? platform name : Action σ (Option Game)) s.inner with
  | mk outcome between =>
    have hfound : (Store.gameNamed? platform name : Action (Faulty σ) (Option Game)) s =
        (outcome, { s with inner := between, calls := s.calls + 1 }) := by
      refine (attempt_granted hread).trans ?_
      rw [hx]
    cases outcome with
    | error failure =>
      rw [openNamed_of_error hx] at h
      cases h
    | ok found =>
      cases found with
      | some game =>
        rw [openNamed_of_some hx] at h
        cases h
      | none =>
        rw [openNamed_of_none hx] at h
        rw [openNamed_of_none hfound]
        refine (attempt_granted hsave).trans ?_
        rw [h]

end Named

theorem free_iff_memory (m : Memory) (platform name : String) :
    (shelf m).Free platform name ↔ m.gameNamed? platform name = none := by
  have hlabels : (shelf m).labels = m.games.map Game.label := rfl
  rw [Shelf.Free, Memory.gameNamed?, hlabels, List.find?_eq_none, List.forall_mem_map]
  simp [Game.label]

theorem opensFree_memory (m : Memory) (platform channel name : String) :
    OpensFree m platform channel name where
  opened hfree := by
    rw [free_iff_memory] at hfree
    have hread : (Store.gameNamed? platform name : Action Memory _) m = (.ok none, m) := by
      rw [← hfree]
      rfl
    refine ⟨_, _, (openNamed_of_none hread).trans rfl, rfl, ?_, ?_⟩
    · exact List.mem_map_of_mem (mem_insertGame_self _ _)
    · intro label hlabel
      obtain ⟨game, hgame, rfl⟩ := List.mem_map.mp hlabel
      rcases mem_or_eq_of_mem_insertGame hgame with hgame | rfl
      · exact Or.inr (List.mem_map_of_mem hgame)
      · exact Or.inl rfl
  refused htaken := by
    rw [free_iff_memory] at htaken
    obtain ⟨found, hfound⟩ := Option.ne_none_iff_exists'.mp htaken
    have hread : (Store.gameNamed? platform name : Action Memory _) m = (.ok (some found), m) := by
      rw [← hfound]
      rfl
    exact ⟨_, openNamed_of_some hread, Or.inl rfl⟩

section Tables
variable {γ : Type} [Column γ]

theorem free_iff_tables (d : Database γ) (platform name : String) :
    (shelf d).Free platform name ↔ d.gameNamed? platform name = none := by
  have hlabels : (shelf d).labels = d.games.map GameRow.label := rfl
  rw [Shelf.Free, Database.gameNamed?, hlabels, List.find?_eq_none, List.forall_mem_map]
  simp [GameRow.label]

theorem saved_of_free {d : Database γ} {platform name : String} (channel : String)
    (h : d.gameNamed? platform name = none) :
    let kept := (Game.fresh name platform channel).numbered (d.lastGame + 1)
    (Store.saveGame (Game.fresh name platform channel) : Action (Database γ) Game) d =
      (.ok kept, { d with lastGame := d.lastGame + 1, games := d.games ++ [kept.row] }) := by
  intro kept
  have hnew : (Game.fresh name platform channel).id = 0 := rfl
  simp only [Store.saveGame, Database.saveGame]
  rw [run_get, if_pos hnew]
  have hfree : (d.gameNamed? (Game.fresh name platform channel).platform
      (Game.fresh name platform channel).name).isSome = false := by
    rw [Option.isSome_eq_false_iff, Option.isNone_iff_eq_none]
    exact h
  rw [hfree]
  rfl

theorem opensFree_tables (d : Database γ) (platform channel name : String) :
    OpensFree d platform channel name := by
  have hread : (Store.gameNamed? platform name : Action (Database γ) _) d =
      (Database.decodeFound GameRow.game (d.gameNamed? platform name), d) := run_readingOrFail _ d
  refine ⟨fun hfree => ?_, fun htaken => ?_⟩
  · rw [free_iff_tables] at hfree
    rw [hfree] at hread
    have hsave := saved_of_free channel hfree
    refine ⟨_, _, (openNamed_of_none hread).trans hsave, rfl, ?_, ?_⟩
    · exact List.mem_map_of_mem (List.mem_append_right _ List.mem_cons_self)
    · intro label hlabel
      obtain ⟨row, hrow, rfl⟩ := List.mem_map.mp hlabel
      rcases List.mem_append.mp hrow with hrow | hrow
      · exact Or.inr (List.mem_map_of_mem hrow)
      · rw [List.mem_singleton.mp hrow]
        exact Or.inl rfl
  · rw [free_iff_tables] at htaken
    obtain ⟨row, hrow⟩ := Option.ne_none_iff_exists'.mp htaken
    rw [hrow] at hread
    cases hgame : row.game with
    | ok found =>
      have hfound : (Store.gameNamed? platform name : Action (Database γ) _) d =
          (.ok (some found), d) := by
        rw [hread, Database.decodeFound, hgame]
        rfl
      exact ⟨_, openNamed_of_some hfound, Or.inl rfl⟩
    | error failure =>
      have hfailed : (Store.gameNamed? platform name : Action (Database γ) _) d =
          (.error failure, d) := by
        rw [hread, Database.decodeFound, hgame]
        rfl
      exact ⟨_, openNamed_of_error hfailed, Or.inr (congrArg Prod.fst hfailed)⟩

end Tables

/-! ## Names that are taken -/

namespace Shelf

/-- The names of the games of a platform. -/
def names (shelf : Shelf) (platform : String) : List String :=
  (shelf.labels.filter (fun label => label.platform = platform)).map Label.name

theorem free_iff {shelf : Shelf} {platform name : String} :
    shelf.Free platform name ↔ name ∉ shelf.names platform := by
  simp only [Free, names, List.mem_map, List.mem_filter, decide_eq_true_iff]
  constructor
  · rintro hfree ⟨label, ⟨hlabel, hplatform⟩, hname⟩
    exact hfree label hlabel ⟨hplatform, hname⟩
  · rintro hnew label hlabel ⟨hplatform, hname⟩
    exact hnew ⟨label, ⟨hlabel, hplatform⟩, hname⟩

/-- A platform with so many games cannot have all of one name more, and there are as many names. -/
theorem exists_free {shelf : Shelf} {platform : String}
    (hfew : (shelf.names platform).length < UInt32.size) (counter : UInt32) :
    ∃ skipped ≤ (shelf.names platform).length,
      shelf.Free platform (Game.defaultName (counter + UInt32.ofNat skipped + 1)) := by
  by_contra! hall
  have hmem : ∀ skipped ≤ (shelf.names platform).length,
      Game.defaultName (counter + UInt32.ofNat skipped + 1) ∈ shelf.names platform := by
    intro skipped hskipped
    exact not_not.mp (fun hnot => hall skipped hskipped (free_iff.mpr hnot))
  -- one name more than there are games of the platform
  let tried := (List.range ((shelf.names platform).length + 1)).map
    (fun skipped => Game.defaultName (counter + UInt32.ofNat skipped + 1))
  have hnodup : tried.Nodup := by
    refine List.Nodup.map_on (fun a ha b hb hab => ?_) List.nodup_range
    have hnumbers := defaultName_injective hab
    rw [UInt32.add_left_inj, UInt32.add_right_inj] at hnumbers
    have hsame := congrArg UInt32.toNat hnumbers
    rw [List.mem_range] at ha hb
    rwa [UInt32.toNat_ofNat_of_lt' (by omega), UInt32.toNat_ofNat_of_lt' (by omega)] at hsame
  have hsub : tried ⊆ shelf.names platform := by
    intro name hname
    obtain ⟨skipped, hskipped, rfl⟩ := List.mem_map.mp hname
    exact hmem skipped (Nat.le_of_lt_succ (List.mem_range.mp hskipped))
  have hlength := (List.subperm_of_subset hnodup hsub).length_le
  simp only [tried, List.length_map, List.length_range] at hlength
  omega

end Shelf

/-! ## Any store -/

namespace Client
variable {σ : Type} [Store σ]

/-- The request for a game without a name. -/
abbrev unnamed (platform channel : String) : Request := .createGame platform channel none

theorem ask_unnamed {client : Client σ} {platform channel : String} {s' : σ}
    {outcome : Except Failure Game}
    (h : (Game.openNamed platform channel (Game.defaultName (client.counter + 1)) :
      Action σ Game) client.store = (outcome, s')) :
    client.ask (unnamed platform channel) = (.game outcome,
      { client with
        store := s'
        counter := client.counter + 1
        handles := client.handles ++ outcome.toOption.toList }) := by
  have hrun : (unnamed platform channel).run client.counter client.handles client.store =
      ((client.counter + 1, .game outcome), s') := Request.run_createGame h
  unfold ask
  rw [hrun]
  simp [Answer.handle?, Request.closes]

variable [GameStore σ]

/-- The name that an unnamed game is going to have is free. -/
def NextFree (client : Client σ) (platform : String) : Prop :=
  (shelf client.store).Free platform (Game.defaultName (client.counter + 1))

/-- A game without a name is opened if its name is free, or else nothing but the counter changes. -/
structure AnswersUnnamed (client : Client σ) (platform channel : String) : Prop where
  opened : client.NextFree platform → ∃ kept,
    (client.ask (unnamed platform channel)).1 = .game (.ok kept) ∧
      kept = (Game.fresh (Game.defaultName (client.counter + 1)) platform channel).numbered
        ((shelf client.store).last + 1) ∧
      kept.label ∈ (shelf (client.ask (unnamed platform channel)).2.store).labels ∧
      ∀ label ∈ (shelf (client.ask (unnamed platform channel)).2.store).labels,
        label.platform = platform → label.name = kept.name → label = kept.label
  refused : ¬ client.NextFree platform → ∃ failure,
    client.ask (unnamed platform channel) =
        (.game (.error failure), { client with counter := client.counter + 1 }) ∧
      (failure = .validation
          ("game '" ++ Game.defaultName (client.counter + 1) ++ "' already exists") ∨
        (Store.gameNamed? platform (Game.defaultName (client.counter + 1)) client.store).1 =
          .error failure)

/-- In the end one is opened, after as many refusals as the platform has games or fewer, unless they
may have all names there are. -/
structure OpensUnnamed (client : Client σ) (platform channel : String) : Prop
    extends AnswersUnnamed client platform channel where
  soon : ((shelf client.store).names platform).length < UInt32.size →
    ∃ refusals ≤ ((shelf client.store).names platform).length, ∃ kept,
      ((client.after (List.replicate refusals (unnamed platform channel))).ask
        (unnamed platform channel)).1 = .game (.ok kept)

section Opens
variable {client : Client σ} {platform channel : String}
  (hopens : ∀ name, OpensFree client.store platform channel name)
include hopens

theorem answersUnnamed : client.AnswersUnnamed platform channel where
  opened h := by
    obtain ⟨kept, s', hrun, hkept, hthere, honly⟩ := (hopens _).opened h
    rw [ask_unnamed hrun]
    refine ⟨kept, rfl, hkept, hthere, fun label hlabel hplatform hname => ?_⟩
    refine (honly label hlabel).resolve_right (fun hold => ?_)
    rw [hkept] at hname
    exact h label hold ⟨hplatform, hname⟩
  refused h := by
    obtain ⟨failure, hrun, hwhy⟩ := (hopens _).refused h
    refine ⟨failure, ?_, hwhy⟩
    rw [ask_unnamed hrun]
    simp [Except.toOption]

theorem answersUnnamed_later (counter : UInt32) :
    AnswersUnnamed { client with counter := counter } platform channel :=
  answersUnnamed hopens

theorem after_refusals {refusals : Nat} (h : ∀ skipped < refusals,
      ¬ (shelf client.store).Free platform
        (Game.defaultName (client.counter + UInt32.ofNat skipped + 1))) :
    client.after (List.replicate refusals (unnamed platform channel)) =
      { client with counter := client.counter + UInt32.ofNat refusals } := by
  induction refusals with
  | zero => simp [after]
  | succ refusals ih =>
    have hbefore := ih (fun skipped hskipped => h skipped (Nat.lt_succ_of_lt hskipped))
    obtain ⟨failure, hask, -⟩ :=
      (answersUnnamed_later hopens (client.counter + UInt32.ofNat refusals)).refused
        (h refusals (Nat.lt_succ_self refusals))
    have hstep := congrArg (fun before => (before.ask (unnamed platform channel)).2) hbefore
    rw [List.replicate_succ', Client.after, List.foldl_append]
    refine hstep.trans ?_
    rw [hask]
    dsimp only
    rw [UInt32.ofNat_add, ← UInt32.add_assoc]
    rfl

theorem opensUnnamed : client.OpensUnnamed platform channel where
  toAnswersUnnamed := answersUnnamed hopens
  soon hfew := by
    have hfree := Shelf.exists_free hfew client.counter
    classical
    obtain ⟨hle, hfound⟩ := Nat.find_spec hfree
    -- every smaller number was refused
    have hrefused : ∀ skipped < Nat.find hfree,
        ¬ (shelf client.store).Free platform
          (Game.defaultName (client.counter + UInt32.ofNat skipped + 1)) :=
      fun skipped hskipped hnext =>
        Nat.find_min hfree hskipped ⟨hskipped.le.trans hle, hnext⟩
    refine ⟨Nat.find hfree, hle, ?_⟩
    rw [after_refusals hopens hrefused]
    obtain ⟨kept, hkept, -⟩ := (answersUnnamed_later hopens
      (client.counter + UInt32.ofNat (Nat.find hfree))).opened hfound
    exact ⟨kept, hkept⟩

end Opens

-- after the last number comes zero
example : (Client.ask { store := ({} : Memory), counter := 4294967295 }
    (unnamed "qq" "hall")).1 = .game (.ok ((Game.fresh "game#0" "qq" "hall").numbered 1)) := by
  decide +kernel

end Client

/-! ## Names that are yet to be given -/

namespace Request
variable {counter : UInt32}

def isUnnamed : Request → Bool
  | createGame _ _ none => true
  | _ => false

/-- The counter counts the games without a name until it comes to its end. -/
theorem toNat_counterAfter {request : Request}
    (h : counter.toNat + (if request.isUnnamed then 1 else 0) < UInt32.size) :
    (request.counterAfter counter).toNat =
      counter.toNat + (if request.isUnnamed then 1 else 0) := by
  cases request with
  | createGame platform channel name =>
    cases name with
    | some name => rfl
    | none => exact (UInt32.toNat_add counter 1).trans (Nat.mod_eq_of_lt h)
  | _ => rfl

/-- The request is for a game under a name that the counter has yet to give. -/
def Reserves (counter : UInt32) : Request → Prop
  | createGame _ _ (some name) => ∃ number, counter < number ∧ name = Game.defaultName number
  | _ => False

end Request

/-- The counter is past the numbers in the names of the games and of the handles. -/
def Memory.Counted (m : Memory) (handles : List Game) (counter : UInt32) : Prop :=
  ∀ game ∈ m.games ++ handles, ∀ number, game.name = Game.defaultName number → number ≤ counter

theorem Request.Turn.counted {counter : UInt32} {handles : List Game} {m m' : Memory}
    {request : Request} {result : UInt32 × Answer}
    (h : request.Turn counter handles m result m') (hcounted : m.Counted handles counter)
    (hle : counter ≤ request.counterAfter counter) (hreserves : ¬ request.Reserves counter) :
    m'.Counted (handles ++ result.2.handle?.toList) result.1 := by
  intro game hgame number hname
  rcases h.origin hgame with ⟨old, hold, hlabel, -⟩ | hopens
  · have hold := hcounted old hold number ((congrArg Label.name hlabel).symm.trans hname)
    rw [h.counter_eq]
    exact UInt32.le_trans hold hle
  · cases hopens with
    | @intro platform channel name hnext hnew hstored hlast =>
      have htitle : Request.title counter name = Game.defaultName number := by
        rw [← hname, hnew]
        rfl
      rw [hnext]
      cases name with
      | none => exact UInt32.le_of_eq (defaultName_injective htitle).symm
      | some name => exact UInt32.not_lt.mp (fun hlt => hreserves ⟨number, hlt, htitle⟩)

namespace Client
variable {σ : Type} [Store σ]

/-- No game is asked for under a name that the counter has yet to give. -/
def Unreserving (client : Client σ) : List Request → Prop
  | [] => True
  | request :: rest =>
    ¬ request.Reserves client.counter ∧ (client.ask request).2.Unreserving rest

variable [GameStore σ]

/-- The next game without a name has a free one, and can be opened unless that is refused. -/
structure OpensNext (client : Client (Faulty σ)) (platform channel : String) : Prop where
  free : (shelf client.store.inner).Free platform (Game.defaultName (client.counter + 1))
  opened : client.store.refusal client.store.calls .gameNamed = none →
    client.store.refusal (client.store.calls + 1) .saveGame = none →
    ∃ kept, (client.ask (unnamed platform channel)).1 = .game (.ok kept) ∧
      kept.name = Game.defaultName (client.counter + 1) ∧ kept.platform = platform

variable [GameKeeper σ] {client : Client (Faulty σ)} {gone : List Int} {m : Memory}

/-- As long as the counter does not come to its end, it stays past the names that are taken. -/
theorem TidyAs.counted_after (h : client.TidyAs gone m)
    (hcounted : m.Counted client.handles client.counter) {requests : List Request}
    (hrequests : client.Unreserving requests)
    (hroom : client.counter.toNat + requests.countP Request.isUnnamed < UInt32.size - 1) :
    ∃ m', (client.after requests).TidyAs (gone ++ client.destroyed requests) m' ∧
      m'.Counted (client.after requests).handles (client.after requests).counter ∧
      (client.after requests).counter.toNat < UInt32.size - 1 := by
  induction requests generalizing client gone m with
  | nil =>
    rw [destroyed, List.append_nil]
    exact ⟨m, h, hcounted, hroom⟩
  | cons request rest ih =>
    obtain ⟨m', hturn, hstep⟩ := h.ask request
    rw [List.countP_cons] at hroom
    have hcounter : (request.counterAfter client.counter).toNat =
        client.counter.toNat + (if request.isUnnamed then 1 else 0) :=
      Request.toNat_counterAfter (by omega)
    have hle : client.counter ≤ request.counterAfter client.counter := by
      rw [UInt32.le_iff_toNat_le]
      omega
    have hnext : (client.ask request).2.counter = request.counterAfter client.counter :=
      hturn.counter_eq
    rw [destroyed, ← List.append_assoc]
    refine ih hstep (hturn.counted hcounted hle hrequests.1) hrequests.2 ?_
    rw [hnext]
    omega

theorem TidyAs.opensNext (h : client.TidyAs gone m)
    (hcounted : m.Counted client.handles client.counter)
    (hroom : client.counter.toNat < UInt32.size - 1)
    (hopens : ∀ (s : σ) (platform channel name : String), OpensFree s platform channel name)
    (platform channel : String) : client.OpensNext platform channel := by
  have hfree : (shelf client.store.inner).Free platform
      (Game.defaultName (client.counter + 1)) := by
    rw [GameKeeper.shelf h.keeps]
    rintro label hlabel ⟨-, hname⟩
    obtain ⟨game, hgame, rfl⟩ := List.mem_map.mp hlabel
    have hle := hcounted game (List.mem_append_left _ hgame) (client.counter + 1) hname
    rw [UInt32.le_iff_toNat_le, UInt32.toNat_add] at hle
    have hone : (1 : UInt32).toNat = 1 := rfl
    have hsize : UInt32.size = 4294967296 := rfl
    omega
  refine ⟨hfree, fun hread hsave => ?_⟩
  obtain ⟨kept, inner, hrun, rfl, -⟩ := (hopens client.store.inner platform channel _).opened hfree
  rw [ask_unnamed (openNamed_granted hread hsave hrun)]
  exact ⟨_, rfl, rfl, rfl⟩

theorem opensNext_after (hopens : ∀ (s : σ) (platform channel name : String),
      OpensFree s platform channel name) {s : σ} (hkeeps : GameKeeper.Keeps s {})
    (refusal : Nat → Store.Operation → Option Failure) {requests : List Request}
    (hrequests : (starting s refusal).Unreserving requests)
    (hroom : requests.countP Request.isUnnamed < UInt32.size - 1) (platform channel : String) :
    ((starting s refusal).after requests).OpensNext platform channel := by
  have hstart : (starting s refusal).TidyAs [] {} := ⟨hkeeps, Memory.Tidy.empty⟩
  have hcounted : Memory.Counted {} (starting s refusal).handles (starting s refusal).counter :=
    fun _ hgame => absurd hgame List.not_mem_nil
  obtain ⟨m, htidy, hnames, hroom⟩ := hstart.counted_after hcounted hrequests
    (by rwa [starting, UInt32.toNat_zero, Nat.zero_add])
  exact htidy.opensNext hnames hroom hopens platform channel

/-- Whatever a store holds and whatever the counter is, a game without a name is opened exactly when
no game of the platform has the next name; otherwise nothing but the counter changes, so that a name
is free after as many refusals as the platform has games, if these are fewer than the names. From an
empty store the next name stays free as long as no game is asked for under a name that the counter
has yet to give, and the counter does not come to its end. -/
theorem unnamed_opened_if_name_free (platform channel : String) :
    (∀ client : Client Memory, client.OpensUnnamed platform channel) ∧
    (∀ (γ : Type) [Column γ] (client : Client (Database γ)),
      client.OpensUnnamed platform channel) ∧
    ∀ (refusal : Nat → Store.Operation → Option Failure) (requests : List Request),
      requests.countP Request.isUnnamed < UInt32.size - 1 →
      ((starting ({} : Memory) refusal).Unreserving requests →
        ((starting ({} : Memory) refusal).after requests).OpensNext platform channel) ∧
      ∀ (γ : Type) [Column γ] [Column.ReadsTexts γ],
        (starting ({} : Database γ).upToDate refusal).Unreserving requests →
          ((starting ({} : Database γ).upToDate refusal).after requests).OpensNext
            platform channel := by
  refine ⟨fun client => ?_, fun γ _ client => ?_,
    fun refusal requests hroom => ⟨fun hrequests => ?_, fun γ _ _ hrequests => ?_⟩⟩
  · exact opensUnnamed (opensFree_memory client.store platform channel)
  · exact opensUnnamed (opensFree_tables client.store platform channel)
  · exact opensNext_after opensFree_memory rfl refusal hrequests hroom platform channel
  · exact opensNext_after opensFree_tables rfl refusal hrequests hroom platform channel

/-- Games with a name and without one are opened, and one of them is destroyed. -/
def season : List Request :=
  [.createGame "qq" "hall" none, .createGame "qq" "den" (some "night"), .destroyGame 0]

theorem unnamed_opened_if_name_free_season :
    let start := starting ({} : Database JsonText).upToDate (fun _ _ => none)
    (season.countP Request.isUnnamed < UInt32.size - 1 ∧ start.Unreserving season) ∧
      ∃ kept, ((start.after season).ask (unnamed "qq" "hall")).1 = .game (.ok kept) ∧
        kept.name = "game#2" := by
  intro start
  have hnight : ∀ number, "night" ≠ Game.defaultName number := by
    intro number hname
    have hlist := congrArg String.toList hname
    simp [Game.defaultName] at hlist
  have hrequests : start.Unreserving season := by
    refine ⟨id, ?_, id, trivial⟩
    rintro ⟨number, -, hname⟩
    exact hnight number hname
  obtain ⟨-, -, hhistory⟩ := unnamed_opened_if_name_free "qq" "hall"
  have hroom : season.countP Request.isUnnamed < UInt32.size - 1 := by decide
  obtain ⟨-, hopened⟩ := (hhistory (fun _ _ => none) season hroom).2 JsonText hrequests
  obtain ⟨kept, hanswer, hname, -⟩ := hopened rfl rfl
  exact ⟨⟨hroom, hrequests⟩, kept, hanswer, hname⟩

/-- The next name is taken by a game that was asked for under it, or by one that was opened before
the counter started again. -/
theorem unnamed_refused_by_taken_name :
    let memory : Client Memory := after { store := {} } [.createGame "qq" "hall" (some "game#1")]
    let earlier : Client (Database JsonText) :=
      after { store := ({} : Database JsonText).upToDate } [unnamed "qq" "hall"]
    let restarted : Client (Database JsonText) := { store := earlier.store }
    (memory.ask (unnamed "qq" "den")).1 =
        .game (.error (.validation "game 'game#1' already exists")) ∧
      (restarted.ask (unnamed "qq" "den")).1 =
        .game (.error (.validation "game 'game#1' already exists")) := by
  intro memory earlier restarted
  exact ⟨by decide, by decide +kernel⟩

end Client
end DiceHost
