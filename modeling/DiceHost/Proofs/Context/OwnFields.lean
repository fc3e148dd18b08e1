import DiceHost.Invoke
import DiceHost.Proofs.Context.Players

/-! # Own fields and chosen keys

A card is shown with its attributes beside its own fields. A game is shown in a fixed order: its own
fields, its configuration over them, and its roulette and its log flag over both, so that nothing
hides these two. What follows for aliases, names in replies and the players of a game holds where no
chosen key is that of the field it depends on.
-/
namespace DiceHost
open KeyTable (find?)

/-- The entries that a card brings along, before its attributes. -/
def Card.ownFields (card : Card) : Fields :=
  KeyTable.ofList [(cardNameKey, .str card.name), (plainNameKey, .str card.name),
    (cardTypeKey, .str card.kind)]

/-- The entries that a game brings along, before its configuration. -/
def Game.ownFields (game : Game) : Fields :=
  KeyTable.ofList [("name", .str game.name), ("gm", roster game.masters),
    ("pls", roster game.players), ("obs", roster game.observers), ("areas", roster game.areas)]

/-- The entries that a game brings along, after its configuration. -/
def Game.lastFields (game : Game) : Fields :=
  KeyTable.ofList [("roulette", .obj game.roulette), ("isLogging", .bool game.logging)]

/-! ## Cards -/

theorem find?_snapshot (card : Card) (key : String) :
    find? card.snapshot key =
      (find? (KeyTable.ofList card.attributes) key).or (find? card.ownFields key) :=
  KeyTable.find?_insertAll_eq card.ownFields card.attributes key

theorem ofCard_eq (table : AliasTable) (fields : Fields) :
    table.ofCard fields = ((find? fields cardTypeKey).bind Json.text?).bind
      (fun template => (find? table template).filter (fun aliases => !aliases.isEmpty)) := by
  unfold AliasTable.ofCard
  cases find? fields cardTypeKey with
  | none => rfl
  | some value => cases value <;> rfl

/-- What scripts are shown of a card, and what follows from it. Nothing is said of an attribute that
has the key of an own field. -/
structure Card.Shown (card : Card) : Prop where
  own : ∀ {key}, key ∉ KeyTable.keys card.attributes →
    find? card.snapshot key = find? card.ownFields key
  attributes : ∀ {key}, key ∉ [cardNameKey, plainNameKey, cardTypeKey] →
    find? card.snapshot key = find? (KeyTable.ofList card.attributes) key
  /-- the aliases are those of the template the card was made from -/
  aliases : cardTypeKey ∉ KeyTable.keys card.attributes → ∀ table : AliasTable,
    table.ofCard card.snapshot =
      (find? table card.kind).filter (fun aliases => !aliases.isEmpty)
  /-- a reply names the card that is played -/
  named : cardNameKey ∉ KeyTable.keys card.attributes →
    ∀ (settings : ExtensionConfig) (identity : Identity) (context : Context)
      (cardText : Option String), context.character = some card.snapshot →
      (placeholders settings identity context cardText).pc = card.name

theorem card_shown (card : Card) : card.Shown := by
  have hown {key : String} (h : key ∉ KeyTable.keys card.attributes) :
      find? card.snapshot key = find? card.ownFields key := by
    rw [find?_snapshot, KeyTable.find?_ofList_eq_none.mpr h, Option.none_or]
  refine ⟨hown, ?_, ?_, ?_⟩
  · intro key h
    have hother : find? card.ownFields key = none := KeyTable.find?_ofList_eq_none.mpr h
    rw [find?_snapshot, hother, Option.or_none]
  · intro h table
    have hkind : find? card.ownFields cardTypeKey = some (.str card.kind) :=
      KeyTable.find?_ofList (by simp [cardNameKey, plainNameKey, cardTypeKey]) (by simp)
    rw [ofCard_eq, hown h, hkind]
    rfl
  · intro h settings identity context cardText hcharacter
    have hname : find? card.ownFields cardNameKey = some (.str card.name) :=
      KeyTable.find?_ofList (by simp [cardNameKey, plainNameKey, cardTypeKey]) (by simp)
    have hfound : context.characterName = some card.name := by
      rw [Context.characterName, hcharacter, Option.bind_some, hown h, hname]
      rfl
    exact congrArg (fun name => name.getD "") hfound

/-! ## Games -/

theorem find?_view (game : Game) (key : String) :
    find? game.view key = (find? game.lastFields key).or
      ((find? (KeyTable.ofList game.config) key).or (find? game.ownFields key)) := by
  rw [Game.lastFields, Game.ownFields, ← KeyTable.find?_insertAll_eq, ← KeyTable.find?_insertAll_eq]
  rfl

/-- What scripts are shown of a game. -/
structure Game.Shown (game : Game) : Prop where
  /-- whatever the configuration says -/
  last : find? game.view "roulette" = some (.obj game.roulette) ∧
    find? game.view "isLogging" = some (.bool game.logging)
  chosen : ∀ {key value}, find? game.lastFields key = none →
    find? (KeyTable.ofList game.config) key = some value → find? game.view key = some value
  own : ∀ {key value}, key ∉ KeyTable.keys game.config →
    find? game.ownFields key = some value → find? game.view key = some value

theorem game_shown (game : Game) : game.Shown := by
  have hlast (key : String) : find? game.lastFields key =
      if key = "isLogging" then some (.bool game.logging)
      else if key = "roulette" then some (.obj game.roulette) else none := by
    rw [Game.lastFields, KeyTable.find?_ofList_eq]
    simp
  refine ⟨⟨?_, ?_⟩, ?_, ?_⟩
  · rw [find?_view, hlast]
    rfl
  · rw [find?_view, hlast]
    rfl
  · intro key value hfree h
    rw [find?_view, hfree, h]
    rfl
  · intro key value hchosen h
    have hmem := KeyTable.mem_of_mem_ofList (KeyTable.mem_of_find? h)
    have hfree : find? game.lastFields key = none := by
      simp only [List.mem_cons, Prod.mk.injEq, List.not_mem_nil, or_false] at hmem
      rw [hlast]
      rcases hmem with ⟨rfl, -⟩ | ⟨rfl, -⟩ | ⟨rfl, -⟩ | ⟨rfl, -⟩ | ⟨rfl, -⟩ <;> rfl
    rw [find?_view, hfree, KeyTable.find?_ofList_eq_none.mpr hchosen, h]
    rfl

/-! ## Contexts -/

section Contexts
variable {σ : Type} [Store σ]

/-- What a context shows of the store: the card and the game that were read, and the cards of the
players of this very game. -/
structure Context.Reflects (context : Context) (s : Faulty σ) (identity : Identity) : Prop where
  character : context.character = (s.cardOf identity).map Card.snapshot
  game : context.game = (s.gameOf identity).map Game.view
  roster : ((s.gameOf identity).map Game.players).getD [] = (s.roster identity).players
  teammates : context.teammates = (playerCards identity.platform identity.bindingGroup
    (s.roster identity).groupData (s.roster identity).players []
    (s.later (s.roster identity).calls)).1
  /-- the players a script sees are those whose cards it has -/
  players : ∀ {game}, s.gameOf identity = some game → "pls" ∉ KeyTable.keys game.config →
    context.game.bind (fun fields => find? fields "pls") =
      some (Game.roster (s.roster identity).players)

theorem reflects_build [CardStore σ] (rules : Manuals) (aliases : AliasTable)
    (identity : Identity) (tail : String) (s : Faulty σ) :
    (Context.build rules aliases identity tail s).1.Reflects s identity := by
  obtain ⟨hcharacter, hgame, hteammates⟩ := parts_build rules aliases identity tail s
  refine ⟨hcharacter, hgame, rfl, hteammates, ?_⟩
  intro game hread hchosen
  have hplayers : (s.roster identity).players = game.players := by
    have hroster : ((s.gameOf identity).map Game.players).getD [] = (s.roster identity).players :=
      rfl
    rw [← hroster, hread]
    rfl
  have hown : find? game.ownFields "pls" = some (Game.roster game.players) :=
    KeyTable.find?_ofList (by simp) (by simp)
  rw [hgame, hread, hplayers]
  exact (game_shown game).own hchosen hown

/-- A card shows its own fields where no attribute has their keys, and its attributes beside them. A
game shows its roulette and its log flag, else what its configuration has under a key, else its own
field; the players are those whose cards a context has, unless the configuration lists players. -/
theorem own_fields_unless_chosen {γ : Type} [Column γ] (rules : Manuals) (aliases : AliasTable)
    (identity : Identity) (tail : String) :
    (∀ card : Card, card.Shown) ∧ (∀ game : Game, game.Shown) ∧
      (∀ s : Faulty Memory,
        (Context.build rules aliases identity tail s).1.Reflects s identity) ∧
      ∀ s : Faulty (Database γ),
        (Context.build rules aliases identity tail s).1.Reflects s identity :=
  ⟨card_shown, game_shown, reflects_build rules aliases identity tail,
    reflects_build rules aliases identity tail⟩

end Contexts

/-- A game with one player whose configuration has no players. -/
def emptyTable : Game :=
  { Game.fresh "night" "qq" "hall" with id := 1, players := ["u1"], config := [("pls", .arr [])] }

/-- The game is on, and the player has a card. -/
def emptyHall : Faulty Memory where
  inner := { lastCard := 1, lastGame := 1, games := [emptyTable]
             cards := [⟨1, ⟨"u1", "qq"⟩, "Rook", "", true, []⟩] }
  refusal _ _ := none

/-- The configuration of a game hides its player, whose card a context has all the same. -/
theorem chosen_keys_hide_own_fields :
    let context := (Context.build [] [] ⟨"u2", none, "qq", some "hall", "hall"⟩ "" emptyHall).1
    context.game = some emptyTable.view ∧ find? emptyTable.view "pls" = some (.arr []) ∧
      emptyTable.players = ["u1"] ∧ KeyTable.keys context.teammates = ["u1"] := by
  decide +kernel

end DiceHost
