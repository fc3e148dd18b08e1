import DiceHost.Engine.Run
import DiceHost.Proofs.Engine.Conversion
import DiceHost.Proofs.Engine.Evaluate
import DiceHost.Proofs.Template.Registry
import DiceHost.Proofs.Text.Utf8

/-! # What a script reads from a card

A card is a table with its own values. What it lacks is looked up once more under the name that
the current template of its type gives an alias. Templates come and go between calls; a script
sees the aliases of those that are there when it is called.
-/
namespace DiceHost.Engine
open DiceHost.Plugin DiceHost.Plugin.TemplateRegistry

/-! ## The table of a card -/

/-- The global function by which tables get their metatables is that of the library. -/
def Attaches (s : State) : Prop := s.globalValue "setmetatable" = .builtin .setmetatable

theorem globals_lt_size {s : State} {name : String} (h : Table.isNil (s.globalValue name) = false) :
    State.globals < s.tables.size := by
  by_contra hsize
  have hmissing : s.tables[State.globals]? = none := Array.getElem?_eq_none (Nat.le_of_not_lt hsize)
  have hempty : s.table State.globals = {} := by rw [State.table, hmissing, Option.getD_none]
  have hnil : s.globalValue name = .nil := by
    rw [State.globalValue, hempty]
    exact get_empty _
  rw [hnil] at h
  cases h

theorem Extends.globalValue {s t : State} (h : Extends s t) {name : String}
    (hv : Table.isNil (s.globalValue name) = false) : t.globalValue name = s.globalValue name := by
  rw [State.globalValue, h.table (globals_lt_size hv), State.globalValue]

theorem Attaches.extends {s t : State} (h : Attaches s) (hst : Extends s t) : Attaches t := by
  have hv : Table.isNil (s.globalValue "setmetatable") = false := by rw [h]; rfl
  exact (hst.globalValue hv).trans h

/-- The table has the values of a card under their names, and what it lacks is looked up by these
aliases. -/
structure CardAt (s : State) (id : Nat) (card : Fields) (aliases : Option Aliases) : Prop where
  place : id < s.tables.size
  own : ∀ name v, KeyTable.find? card name = some v → MadeFrom s v ((s.table id).getText name)
  other : ∀ key : Bytes, (∀ field ∈ card, key ≠ field.1.toUTF8) → (s.table id).get (.str key) = .nil
  plain : aliases = none → (s.table id).metatable = none
  aliased : ∀ map, aliases = some map → ∃ m < s.tables.size, (s.table id).metatable = some m ∧
    (s.table m).getText "__index" = .builtin (.aliased map)

theorem CardAt.extends {s t : State} {id : Nat} {card : Fields} {aliases : Option Aliases}
    (h : CardAt s id card aliases) (hst : Extends s t) : CardAt t id card aliases := by
  have htable := hst.table h.place
  refine ⟨Nat.lt_of_lt_of_le h.place hst.size_le, fun name v hfound => ?_, fun key hother => ?_,
    fun hnone => ?_, fun map hsome => ?_⟩
  · rw [htable]
    exact (h.own name v hfound).extends hst
  · rw [htable]
    exact h.other key hother
  · rw [htable]
    exact h.plain hnone
  · obtain ⟨m, hm, hmetatable, hindex⟩ := h.aliased map hsome
    refine ⟨m, Nat.lt_of_lt_of_le hm hst.size_le, ?_, ?_⟩
    · rw [htable]
      exact hmetatable
    · rw [hst.table hm]
      exact hindex

/-- The table of a card and its metatable are as they were made. -/
structure Kept (s t : State) (id : Nat) : Prop where
  table : t.table id = s.table id
  metatable : ∀ m, (s.table id).metatable = some m → t.table m = s.table m

section CardTable
variable {s : State}

theorem attach_eq (h : Attaches s) (id m : Nat) :
    attach s id m = .ok (s.modifyTable id (fun t => { t with metatable := some m })) := by
  have hglobal : (s.table State.globals).getText "setmetatable" = .builtin .setmetatable := h
  rw [attach, hglobal]

theorem modify_push_push (tables : Array Table) (t m : Table) (change : Table → Table) :
    ((tables.push t).push m).modify tables.size change = tables ++ #[change t, m] := by
  refine Array.ext (by simp) (fun i hi hi' => ?_)
  rw [Array.getElem_modify, Array.getElem_push, Array.getElem_append]
  simp only [Array.size_push, Array.size_modify] at hi
  rcases Nat.lt_trichotomy i tables.size with hlt | rfl | hgt
  · simp [hlt, Nat.ne_of_gt hlt, Nat.lt_succ_of_lt hlt, Array.getElem_push]
  · simp
  · obtain rfl : i = tables.size + 1 := by omega
    simp

theorem table_append {t : State} {tables : Array Table} {new : List Table}
    (h : t.tables = tables ++ new.toArray) (i : Nat) :
    t.table (tables.size + i) = new[i]?.getD {} := by
  rw [State.table, h, Array.getElem?_append_right (Nat.le_add_right _ _), Nat.add_sub_cancel_left,
    List.getElem?_toArray]

/-- The metatable that looks aliases up. -/
def aliasing (map : Aliases) : Table := ({} : Table).setText "__index" (.builtin (.aliased map))

/-- The table of a card at a place, and behind it the metatable if there is one. -/
def cardTablesAt (id : Nat) (new : Table) : Option Aliases → List Table
  | none => [new]
  | some map => [{ new with metatable := some (id + 1) }, aliasing map]

theorem cardTable_eq (h : Attaches s) (aliases : AliasTable) (card : Fields) :
    ∃ t, cardTable s aliases card = .ok (t, (ofFields s {} card).1.tables.size) ∧
      t.tables = (ofFields s {} card).1.tables ++
        (cardTablesAt (ofFields s {} card).1.tables.size (ofFields s {} card).2
          (aliases.ofCard card)).toArray := by
  have hattaches := h.extends (extends_ofFields s {} card)
  unfold cardTable
  generalize ofFields s {} card = made at *
  obtain ⟨u, new⟩ := made
  cases aliases.ofCard card with
  | none => exact ⟨_, rfl, rfl⟩
  | some map =>
    have hboth : Attaches ((u.allocate new).1.allocate (aliasing map)).1 :=
      hattaches.extends ((extends_allocate u new).trans (extends_allocate _ _))
    dsimp only
    refine ⟨_, by rw [← aliasing, attach_eq hboth]; rfl, ?_⟩
    have hsize : (u.tables.push new).size = u.tables.size + 1 := Array.size_push ..
    rw [cardTablesAt, ← hsize]
    exact modify_push_push u.tables new (aliasing map)
      (fun t => { t with metatable := some (u.tables.push new).size })

theorem cardAt_cardTable (h : Attaches s) (aliases : AliasTable) {card : Fields}
    (hnames : (KeyTable.keys card).Nodup) :
    ∃ t id, cardTable s aliases card = .ok (t, id) ∧ Extends s t ∧
      CardAt t id card (aliases.ofCard card) := by
  obtain ⟨t, hcard, htables⟩ := cardTable_eq h aliases card
  have hmetatable := metatable_ofFields s {} card
  have hext : Extends (ofFields s {} card).1 t := ⟨_, htables⟩
  have htable := table_append htables 0
  have hbehind := table_append htables 1
  rw [Nat.add_zero] at htable
  refine ⟨t, _, hcard, (extends_ofFields s {} card).trans hext, ?_⟩
  have hget (key : Bytes) :
      (t.table (ofFields s {} card).1.tables.size).get (.str key) =
        (ofFields s {} card).2.get (.str key) := by
    rw [htable]
    cases aliases.ofCard card <;> rfl
  have hsize : (ofFields s {} card).1.tables.size < t.tables.size := by
    rw [htables, Array.size_append]
    cases aliases.ofCard card <;> simp [cardTablesAt]
  refine ⟨hsize, fun name v hfound => ?_, fun key hother => ?_, fun hnone => ?_, fun map hsome => ?_⟩
  · show MadeFrom t v ((t.table _).get (.str name.toUTF8))
    rw [hget]
    exact (madeFrom_ofFields hnames (KeyTable.mem_of_find? hfound)).extends hext
  · rw [hget, get_ofFields_of_notMem hother]
    exact get_empty key
  · rw [htable, hnone]
    exact hmetatable
  · rw [hsome] at htable hbehind
    have hm : (ofFields s {} card).1.tables.size + 1 < t.tables.size := by
      rw [htables, hsome, Array.size_append]
      simp [cardTablesAt]
    refine ⟨_, hm, by rw [htable]; rfl, ?_⟩
    rw [hbehind]
    show (aliasing map).getText "__index" = _
    exact (getText_setText ..).trans (if_pos rfl)

end CardTable

/-! ## What is read -/

/-- The key is no name of the card, or the name of a null. -/
def Lacks (card : Fields) (key : Bytes) : Prop :=
  ∀ name v, key = name.toUTF8 → KeyTable.find? card name = some v → v = .null

/-- The card is of the type of a template that is current after these events. -/
def TypedBy (events : List Event) (card : Fields) (t : Template) : Prop :=
  KeyTable.find? card cardTypeKey = some (.str t.name) ∧ ∃ plugin, Current events ⟨t, plugin⟩

/-- What a script reads from a card: its own value under the key; for a key that it lacks, its own
value under the display name of the field whose alias the key is; and otherwise nothing. -/
inductive Reads (events : List Event) (card : Fields) (key : Bytes) : Json → Prop
  | own {name : String} {v : Json} : key = name.toUTF8 → KeyTable.find? card name = some v →
    v ≠ .null → Reads events card key v
  | aliased {t : Template} {display : String} : Lacks card key → TypedBy events card t →
    t.display? (Value.textOf key) = some display →
    Reads events card key ((KeyTable.find? card display).getD .null)
  | missing : Lacks card key →
    (∀ t, TypedBy events card t → t.display? (Value.textOf key) = none) → Reads events card key .null

theorem exists_reads (events : List Event) (card : Fields) (key : Bytes) :
    ∃ v, Reads events card key v := by
  by_cases hlacks : Lacks card key
  · by_cases hnone : ∀ t, TypedBy events card t → t.display? (Value.textOf key) = none
    · exact ⟨_, .missing hlacks hnone⟩
    · push Not at hnone
      obtain ⟨t, htyped, hsome⟩ := hnone
      obtain ⟨display, hdisplay⟩ := Option.ne_none_iff_exists'.mp hsome
      exact ⟨_, .aliased hlacks htyped hdisplay⟩
  · unfold Lacks at hlacks
    push Not at hlacks
    obtain ⟨name, v, hkey, hfound, hv⟩ := hlacks
    exact ⟨v, .own hkey hfound hv⟩

section Aliases
variable {events : List Event} {card : Fields} {t : Template}

theorem ofCard_of_typed (h : TypedBy events card t) :
    (after events).aliasTable.ofCard card = (some t.aliases).filter (fun map => !map.isEmpty) := by
  obtain ⟨htype, plugin, hcurrent⟩ := h
  have hfound : KeyTable.find? (after events).aliasTable t.name = some t.aliases :=
    find?_aliasTable.mpr ⟨_, hcurrent, rfl, rfl⟩
  rw [AliasTable.ofCard, htype]
  dsimp only
  rw [hfound]

theorem typed_of_ofCard {map : Aliases} (h : (after events).aliasTable.ofCard card = some map) :
    ∃ t, TypedBy events card t ∧ t.aliases = map := by
  unfold AliasTable.ofCard at h
  split at h
  · next name htype =>
    obtain ⟨hfound, -⟩ := Option.filter_eq_some_iff.mp h
    obtain ⟨⟨t, plugin⟩, hcurrent, rfl, haliases⟩ := find?_aliasTable.mp hfound
    exact ⟨t, ⟨htype, plugin, hcurrent⟩, haliases⟩
  · cases h

end Aliases

section Reading
variable {s t u : State} {id : Nat} {card : Fields} {aliases : Option Aliases} {key : Bytes}

theorem MadeFrom.eq_nil {x : Value} (h : MadeFrom s .null x) : x = .nil := by
  obtain ⟨before, -, rfl⟩ := h
  rfl

theorem CardAt.madeFrom (h : CardAt s id card aliases) (name : String) :
    MadeFrom s ((KeyTable.find? card name).getD .null) ((s.table id).getText name) := by
  cases hfound : KeyTable.find? card name with
  | some v => exact h.own name v hfound
  | none =>
    have hmissing : (s.table id).get (.str name.toUTF8) = .nil := by
      refine h.other _ (fun field hfield heq => ?_)
      have hname : (KeyTable.find? card name).isSome := by
        rw [KeyTable.find?_isSome_iff, String.toByteArray_inj.mp heq]
        exact List.mem_map_of_mem hfield
      simp [hfound] at hname
    have hnil : (s.table id).getText name = .nil := hmissing
    rw [hnil]
    exact madeFrom_null s

theorem CardAt.get_of_lacks (h : CardAt s id card aliases) (hlacks : Lacks card key) :
    (s.table id).get (.str key) = .nil := by
  by_cases hname : ∃ field ∈ card, key = field.1.toUTF8
  · obtain ⟨field, -, rfl⟩ := hname
    have hnull : (KeyTable.find? card field.1).getD .null = .null := by
      cases hfound : KeyTable.find? card field.1 with
      | none => rfl
      | some v => exact hlacks field.1 v rfl hfound
    have hmade := h.madeFrom field.1
    rw [hnull] at hmade
    exact hmade.eq_nil
  · push Not at hname
    exact h.other key hname

/-- The function behind a card answers with the own value under the display name, if there is one. -/
theorem answers_aliased (t : State) (map : Aliases) (id : Nat) (key : Bytes) (site : Site) :
    Answers 1 t t (.builtin (.aliased map)) [.table id, .str key] site false
      [match KeyTable.find? map (Value.textOf key) with
        | some display => (t.table id).getText display
        | none => .nil] :=
  fun _ => .one (fun held instructions => ⟨held, instructions, rfl⟩) ⟨fun h => h, rfl, rfl⟩

/-- Reading a table under a key gives a value, also when other tables have changed since. -/
def ReadAs (s : State) (id : Nat) (key : Bytes) (x : Value) : Prop :=
  ∀ {count : Nat} {u t : State} {env : Env} {object e : Expr} {line : Nat}, Kept s t id →
    Collects count u t env [object, single e] [.table id, .str key] →
    ∃ total, Gives total u t env (.index object e line) [x]

theorem readAs_own {x : Value} (hget : (s.table id).get (.str key) = x)
    (hx : Table.isNil x = false) : ReadAs s id key x :=
  fun hkept hs => ⟨_, gives_found hs (index_own (hkept.table ▸ hget) hx)⟩

theorem readAs_plain (hget : (s.table id).get (.str key) = .nil)
    (hplain : (s.table id).metatable = none) : ReadAs s id key .nil :=
  fun hkept hs => ⟨_, gives_found hs (index_plain (hkept.table ▸ hget) (hkept.table ▸ hplain))⟩

theorem readAs_aliased {m : Nat} {map : Aliases} {x : Value}
    (hget : (s.table id).get (.str key) = .nil) (hmetatable : (s.table id).metatable = some m)
    (hindex : (s.table m).getText "__index" = .builtin (.aliased map))
    (hx : (match KeyTable.find? map (Value.textOf key) with
      | some display => (s.table id).getText display
      | none => .nil) = x) : ReadAs s id key x := by
  intro count u t env object e line hkept hs
  have hasked : t.index State.chainLimit (.table id) (.str key) =
      .ask (.builtin (.aliased map)) (.table id) :=
    index_asked (hkept.table ▸ hget) (hkept.table ▸ hmetatable)
      ((hkept.metatable m hmetatable).symm ▸ hindex)
  have hanswers := answers_aliased t map id key { depth := env.depth }
  rw [hkept.table, hx] at hanswers
  exact ⟨_, gives_asked hs hasked hanswers⟩

/-- What a script reads from the table of a card was made from the value that the current templates
say. -/
theorem CardAt.reads {events : List Event} {v : Json}
    (h : CardAt s id card ((after events).aliasTable.ofCard card)) (hreads : Reads events card key v) :
    ∃ x, MadeFrom s v x ∧ ReadAs s id key x := by
  cases hreads with
  | own hkey hfound hv =>
    have hmade := h.own _ _ hfound
    subst hkey
    exact ⟨_, hmade, readAs_own rfl (hmade.isNil_eq hv)⟩
  | @aliased t display hlacks htyped hdisplay =>
    -- a template without aliases would leave the table plain, but this one has one
    have haliases := ofCard_of_typed htyped
    have hfound : KeyTable.find? t.aliases (Value.textOf key) = some display := by
      rw [find?_aliases, hdisplay]
    have hsome : (after events).aliasTable.ofCard card = some t.aliases := by
      rw [haliases]
      cases hempty : t.aliases with
      | nil => rw [hempty] at hfound; cases hfound
      | cons => rfl
    obtain ⟨m, -, hmetatable, hindex⟩ := h.aliased _ hsome
    exact ⟨_, h.madeFrom display, readAs_aliased (h.get_of_lacks hlacks) hmetatable hindex
      (by rw [hfound])⟩
  | missing hlacks hnone =>
    refine ⟨.nil, madeFrom_null s, ?_⟩
    cases haliases : (after events).aliasTable.ofCard card with
    | none => exact readAs_plain (h.get_of_lacks hlacks) (h.plain haliases)
    | some map =>
      obtain ⟨t, htyped, rfl⟩ := typed_of_ofCard haliases
      obtain ⟨m, -, hmetatable, hindex⟩ := h.aliased _ haliases
      exact readAs_aliased (h.get_of_lacks hlacks) hmetatable hindex
        (by rw [find?_aliases, hnone t htyped])

end Reading

/-! ## The cards of a message -/

section Cards
variable {s : State} {c : Context}

theorem cardAt_cardTables (h : Attaches s) (aliases : AliasTable) {cards : KeyTable Fields}
    (husers : (KeyTable.keys cards).Nodup)
    (hnames : ∀ entry ∈ cards, (KeyTable.keys entry.2).Nodup) (mates : Table) :
    ∃ t mates', cardTables s aliases cards mates = .ok (t, mates') ∧ Extends s t ∧
      (∀ user, user ∉ KeyTable.keys cards → mates'.getText user = mates.getText user) ∧
      ∀ entry ∈ cards, ∃ id, mates'.getText entry.1 = .table id ∧
        CardAt t id entry.2 (aliases.ofCard entry.2) := by
  -- the tables of later cards come behind those of earlier ones, which stay as they are
  induction cards generalizing s mates with
  | nil => exact ⟨s, mates, rfl, .refl s, fun _ _ => rfl, fun entry hentry => nomatch hentry⟩
  | cons entry rest ih =>
    obtain ⟨user, card⟩ := entry
    obtain ⟨hfresh, hrest⟩ := List.nodup_cons.mp husers
    obtain ⟨hcard, hcards⟩ := List.forall_mem_cons.mp hnames
    obtain ⟨u, id, hmade, hsu, hat⟩ := cardAt_cardTable h aliases hcard
    obtain ⟨t, mates', hothers, hut, hkept, hmates⟩ :=
      ih (h.extends hsu) hrest hcards (mates.setText user (.table id))
    refine ⟨t, mates', ?_, hsu.trans hut, fun other hother => ?_, ?_⟩
    · rw [cardTables, hmade]
      exact hothers
    · obtain ⟨hne, hnew⟩ := not_or.mp (fun hmem => hother (List.mem_cons.mpr hmem))
      rw [hkept other hnew, getText_setText, if_neg hne]
    · refine List.forall_mem_cons.mpr ⟨⟨id, ?_, hat.extends hut⟩, hmates⟩
      rw [hkept user hfresh, getText_setText, if_pos rfl]

/-- The cards of a context are lists of attributes, none of which stands there twice. -/
structure CardsOf (c : Context) : Prop where
  character : ∀ card, c.character = some card → (KeyTable.keys card).Nodup
  users : (KeyTable.keys c.teammates).Nodup
  teammates : ∀ entry ∈ c.teammates, (KeyTable.keys entry.2).Nodup

/-- The entries of a message before the card of the user. -/
def messageStart (c : Context) : Table :=
  let t := (tableOf [("suffix", .ofString c.tail), ("uid", .ofString c.user),
    ("gid", .ofString c.group), ("private", .bool c.isPrivate), ("platform", .ofString c.platform)])
  match c.username with
  | some name => t.setText "username" (.ofString name)
  | none => t

/-- The entries behind the card of the user. -/
def messageEnd (c : Context) (t : Table) (game rules : Value) (mates : Nat) : Table :=
  let t := match c.cardText with
    | some text => t.setText "card" (.ofString text)
    | none => t
  ((t.setText "game" game).setText "pluginRules" rules).setText "getPlayerCard"
    (.builtin (.playerCard mates))

theorem getText_messageEnd (c : Context) (t : Table) (game rules : Value) (mates : Nat) :
    (messageEnd c t game rules mates).getText "char" = t.getText "char" ∧
      (messageEnd c t game rules mates).getText "getPlayerCard" = .builtin (.playerCard mates) := by
  unfold messageEnd
  cases c.cardText <;> simp [getText_setText]

/-- The rest of a message. -/
def messageRest (c : Context) (s : State) (t : Table) : Except Fault (State × Nat) := do
  let (s, game) := ofJson s (.obj (c.game.getD []))
  let (s, rules) := ofJson s
    (.obj (c.rules.map (fun m => (m.1, Json.obj (m.2.map (fun e => (e.1, .str e.2)))))))
  let (s, cards) ← cardTables s c.aliases c.teammates {}
  let (s, mates) := s.allocate cards
  return s.allocate (messageEnd c t game rules mates)

theorem message_eq (s : State) (c : Context) : message s c =
    match c.character with
    | some card => (cardTable s c.aliases card).bind (fun made =>
      messageRest c made.1 ((messageStart c).setText "char" (.table made.2)))
    | none => messageRest c s (messageStart c) := by
  unfold message messageRest messageStart messageEnd tableOf
  simp only [List.foldl_cons, List.foldl_nil, bind, Except.bind]
  cases c.character with
  | none => cases c.username <;> cases c.cardText <;> rfl
  | some card =>
    dsimp only
    cases cardTable s c.aliases card with
    | error fault => rfl
    | ok made => cases c.username <;> cases c.cardText <;> simp only [Except.map]

theorem table_allocate (s : State) (new : Table) :
    (s.allocate new).1.table (s.allocate new).2 = new := by
  show ((s.tables.push new)[s.tables.size]?).getD {} = new
  rw [Array.getElem?_push_size, Option.getD_some]

theorem messageRest_cards (h : Attaches s) (hc : CardsOf c) (first : Table) :
    ∃ t msg, messageRest c s first = .ok (t, msg) ∧ Extends s t ∧
      (t.table msg).getText "char" = first.getText "char" ∧
      ∃ mates, (t.table msg).getText "getPlayerCard" = .builtin (.playerCard mates) ∧
        ∀ entry ∈ c.teammates, ∃ id, (t.table mates).getText entry.1 = .table id ∧
          CardAt t id entry.2 (c.aliases.ofCard entry.2) := by
  unfold messageRest
  -- the game and the rules
  generalize hgame : ofJson s _ = withGame
  obtain ⟨s₁, game⟩ := withGame
  have hs₁ : Extends s s₁ := by
    have hext := extends_ofJson s (.obj (c.game.getD []))
    rwa [hgame] at hext
  dsimp only
  generalize hrules : ofJson s₁ _ = withRules
  obtain ⟨s₂, rules⟩ := withRules
  have hs₂ : Extends s s₂ := by
    have hext := extends_ofJson s₁
      (.obj (c.rules.map (fun m => (m.1, Json.obj (m.2.map (fun e => (e.1, .str e.2)))))))
    rw [hrules] at hext
    exact hs₁.trans hext
  -- the cards of the other players
  obtain ⟨s₃, cards, hcards, hs₃, -, hmates⟩ :=
    cardAt_cardTables (h.extends hs₂) c.aliases hc.users hc.teammates {}
  dsimp only
  rw [hcards]
  generalize hlast : messageEnd c first game rules (s₃.allocate cards).2 = last
  obtain ⟨hchar, hplayers⟩ := getText_messageEnd c first game rules (s₃.allocate cards).2
  rw [hlast] at hchar hplayers
  have hs₄ : Extends (s₃.allocate cards).1 ((s₃.allocate cards).1.allocate last).1 :=
    extends_allocate _ last
  refine ⟨((s₃.allocate cards).1.allocate last).1, ((s₃.allocate cards).1.allocate last).2,
    by rw [← hlast]; rfl, hs₂.trans (hs₃.trans ((extends_allocate s₃ cards).trans hs₄)), ?_,
    (s₃.allocate cards).2, ?_, ?_⟩
  · rw [table_allocate, hchar]
  · rw [table_allocate, hplayers]
  · have hplace : (s₃.allocate cards).2 < (s₃.allocate cards).1.tables.size := by
      simp [State.allocate]
    rw [hs₄.table hplace, table_allocate]
    intro entry hentry
    obtain ⟨id, hid, hat⟩ := hmates entry hentry
    exact ⟨id, hid, hat.extends ((extends_allocate s₃ cards).trans hs₄)⟩

/-- The message has the card of the user, and a function with the cards of the other players. -/
theorem message_cards (h : Attaches s) (hc : CardsOf c) :
    ∃ t msg, message s c = .ok (t, msg) ∧
      (∀ card, c.character = some card → ∃ id, (t.table msg).getText "char" = .table id ∧
        CardAt t id card (c.aliases.ofCard card)) ∧
      ∃ mates, (t.table msg).getText "getPlayerCard" = .builtin (.playerCard mates) ∧
        ∀ entry ∈ c.teammates, ∃ id, (t.table mates).getText entry.1 = .table id ∧
          CardAt t id entry.2 (c.aliases.ofCard entry.2) := by
  rw [message_eq]
  cases hcharacter : c.character with
  | none =>
    obtain ⟨t, msg, hmessage, -, -, hmates⟩ := messageRest_cards h hc (messageStart c)
    exact ⟨t, msg, hmessage, fun card hcard => (nomatch hcard), hmates⟩
  | some card =>
    obtain ⟨u, id, hcard, hsu, hat⟩ :=
      cardAt_cardTable h c.aliases (hc.character card hcharacter)
    obtain ⟨t, msg, hmessage, hut, hchar, hmates⟩ := messageRest_cards (h.extends hsu) hc
      ((messageStart c).setText "char" (.table id))
    refine ⟨t, msg, ?_, ?_, hmates⟩
    · dsimp only
      rw [hcard]
      exact hmessage
    · rintro _ ⟨rfl⟩
      refine ⟨id, ?_, hat.extends hut⟩
      rw [hchar, getText_setText, if_pos rfl]

end Cards

/-! ## Cards and templates -/

/-- Whatever the key, what a script reads from the table was made from what the current templates
say. -/
def ReadsCard (s : State) (id : Nat) (events : List Event) (card : Fields) : Prop :=
  ∀ key v, Reads events card key v → ∃ x, MadeFrom s v x ∧ ReadAs s id key x

/-- After any history of the templates a script reads from the card of the user, and from that of
every other player, what the current templates say. -/
theorem cards_read {s : State} {c : Context} {events : List Event} (h : Attaches s) (hc : CardsOf c)
    (haliases : c.aliases = (after events).aliasTable) :
    (∀ card key, ∃ v, Reads events card key v) ∧
    ∃ t msg, message s c = .ok (t, msg) ∧
      (∀ card, c.character = some card →
        ∃ id, (t.table msg).getText "char" = .table id ∧ ReadsCard t id events card) ∧
      ∃ mates, (t.table msg).getText "getPlayerCard" = .builtin (.playerCard mates) ∧
        ∀ entry ∈ c.teammates,
          ∃ id, (t.table mates).getText entry.1 = .table id ∧ ReadsCard t id events entry.2 := by
  obtain ⟨t, msg, hmessage, hcharacter, mates, hplayers, hmates⟩ := message_cards h hc
  rw [haliases] at hcharacter hmates
  refine ⟨exists_reads events, t, msg, hmessage, fun card hcard => ?_, mates, hplayers,
    fun entry hentry => ?_⟩
  · obtain ⟨id, hid, hat⟩ := hcharacter card hcard
    exact ⟨id, hid, fun _ _ => hat.reads⟩
  · obtain ⟨id, hid, hat⟩ := hmates entry hentry
    exact ⟨id, hid, fun _ _ => hat.reads⟩

/-- A template of one field. -/
def maid (short display : String) : Template := ⟨"Maid", [⟨display, short, none, none, none⟩]⟩

def maidCard : Fields := [("type", .str "Maid"), ("宠爱", .int 5), ("旧", .int 4)]

/-- The template of one plugin takes the place of another one's. -/
def maidHistory : List Event :=
  [.register (maid "Love" "旧") "a", .register (maid "Favor" "宠爱") "b"]

/-- What a script sees that is called for this card. -/
def maidContext : Context :=
  { (default : Context) with
    character := some maidCard
    aliases := (after maidHistory).aliasTable
    teammates := [] }

theorem attaches_start (limits : Limits) : Attaches (State.start limits) := by
  rw [Attaches, globalValue_start]
  rfl

theorem lacks_of_find? {card : Fields} {name : String} (h : KeyTable.find? card name = none) :
    Lacks card name.toUTF8 := by
  intro other v heq hfound
  rw [← String.toByteArray_inj.mp heq, h] at hfound
  cases hfound

theorem MadeFrom.eq_five {s : State} {x : Value} (h : MadeFrom s (.int 5) x) : x = .int 5 := by
  obtain ⟨before, -, rfl⟩ := h
  rfl

theorem typed_maid : TypedBy maidHistory maidCard (maid "Favor" "宠爱") :=
  ⟨rfl, "b", [.register (maid "Love" "旧") "a"], [], rfl, fun _ hmem => nomatch hmem⟩

theorem TypedBy.unique {events : List Event} {card : Fields} {t u : Template}
    (h : TypedBy events card t) (h' : TypedBy events card u) : t = u := by
  obtain ⟨htype, plugin, hcurrent⟩ := h
  obtain ⟨htype', plugin', hcurrent'⟩ := h'
  have hname : t.name = u.name := Json.str.inj (Option.some.inj (htype.symm.trans htype'))
  have hfound := find?_after.mpr ⟨hname, hcurrent⟩
  have hfound' := find?_after.mpr ⟨rfl, hcurrent'⟩
  exact congrArg OwnedTemplate.template (Option.some.inj (hfound.symm.trans hfound'))

theorem cards_read_maid : ∃ t msg id, message (State.start ⟨0, 0⟩) maidContext = .ok (t, msg) ∧
    (t.table msg).getText "char" = .table id ∧
    ReadAs t id "Favor".toUTF8 (.int 5) ∧ ReadAs t id "Love".toUTF8 .nil := by
  have hc : CardsOf maidContext :=
    ⟨by rintro _ ⟨rfl⟩; decide +kernel, List.nodup_nil, fun _ hmem => nomatch hmem⟩
  obtain ⟨-, t, msg, hmessage, hcharacter, -⟩ :=
    @cards_read _ _ maidHistory (attaches_start ⟨0, 0⟩) hc rfl
  obtain ⟨id, hid, hreads⟩ := hcharacter maidCard rfl
  have hdisplay : (maid "Favor" "宠爱").display? (Value.textOf "Favor".toUTF8) = some "宠爱" := by
    decide +kernel
  have hfavor : Reads maidHistory maidCard "Favor".toUTF8 (.int 5) :=
    .aliased (lacks_of_find? rfl) typed_maid hdisplay
  have hlove : Reads maidHistory maidCard "Love".toUTF8 .null := by
    refine .missing (lacks_of_find? rfl) (fun t ht => ?_)
    rw [ht.unique typed_maid]
    decide +kernel
  obtain ⟨x, hx, hread⟩ := hreads _ _ hfavor
  obtain ⟨y, hy, hread'⟩ := hreads _ _ hlove
  exact ⟨t, msg, id, hmessage, hid, hx.eq_five ▸ hread, hy.eq_nil ▸ hread'⟩

/-! ## Keys that are no text, and other ways to attach -/

section Other
variable {s : State}

/-- Without the function of the library the table of a card has no metatable. -/
theorem attach_of_type (hglobal : s.globalValue "setmetatable" = .builtin .type)
    (hlimits : s.limits = ⟨0, 0⟩) (hcounting : s.counting = false) (id m : Nat) :
    ∃ t, attach s id m = .ok t ∧ t.tables = s.tables := by
  have hfield : (s.table State.globals).getText "setmetatable" = .builtin .type := hglobal
  have hstep : step ⟨s, .apply (.builtin .type) [.table id, .table m] {} false, []⟩ =
      .next ⟨s, .give [.ofString "table"], []⟩ := rfl
  have hchecked : (⟨s, .give [.ofString "table"], []⟩ : Next).checked =
      ⟨s, .give [.ofString "table"], []⟩ := by
    simp [Next.checked, State.overrun, hlimits, hcounting]
  have hrun : s.callValue (.builtin .type) [.table id, .table m] = (s, .ok [.ofString "table"]) :=
    run_of_steps_give (.next hstep hchecked (.refl _)) (by decide)
  refine ⟨s, ?_, rfl⟩
  rw [attach, hfield]
  dsimp only
  rw [hrun]

/-- A card whose table got no metatable has nothing under an alias. -/
theorem unattached_maid (hglobal : s.globalValue "setmetatable" = .builtin .type)
    (hlimits : s.limits = ⟨0, 0⟩) (hcounting : s.counting = false) {aliases : AliasTable}
    {map : Aliases} (hmap : aliases.ofCard maidCard = some map) : ∃ t id,
      cardTable s aliases maidCard = .ok (t, id) ∧ ReadAs t id "Favor".toUTF8 .nil := by
  have hext := extends_ofFields s {} maidCard
  have hplain := metatable_ofFields s {} maidCard
  have hother : ∀ field ∈ maidCard, "Favor".toUTF8 ≠ field.1.toUTF8 := by decide +kernel
  have hget := get_ofFields_of_notMem (s := s) (t := {}) hother
  have hkeeps : (ofFields s {} maidCard).1.limits = s.limits ∧
      (ofFields s {} maidCard).1.counting = s.counting := ⟨rfl, rfl⟩
  unfold cardTable
  rw [hmap]
  generalize ofFields s {} maidCard = made at *
  obtain ⟨u, new⟩ := made
  have hnew := extends_allocate u new
  have hmetatable := extends_allocate (u.allocate new).1 (aliasing map)
  have hv : Table.isNil (s.globalValue "setmetatable") = false := by rw [hglobal]; rfl
  have hglobal' : ((u.allocate new).1.allocate (aliasing map)).1.globalValue "setmetatable" =
      .builtin .type :=
    ((hext.trans (hnew.trans hmetatable)).globalValue hv).trans hglobal
  obtain ⟨t, hattach, htables⟩ := attach_of_type hglobal' (hkeeps.1.trans hlimits)
    (hkeeps.2.trans hcounting) (u.allocate new).2 ((u.allocate new).1.allocate (aliasing map)).2
  have htable : t.table (u.allocate new).2 = new := by
    have hplace : (u.allocate new).2 < (u.allocate new).1.tables.size := by simp [State.allocate]
    rw [State.table, htables]
    exact (hmetatable.table hplace).trans (table_allocate u new)
  refine ⟨t, (u.allocate new).2, ?_, readAs_plain ?_ ?_⟩
  · have hdone : (attach ((u.allocate new).1.allocate (aliasing map)).1 (u.allocate new).2
        ((u.allocate new).1.allocate (aliasing map)).2).map (fun t => (t, (u.allocate new).2)) =
        .ok (t, (u.allocate new).2) := by
      rw [hattach]
      rfl
    exact hdone
  · rw [htable, hget]
    exact get_empty _
  · rw [htable]
    exact hplain

end Other

/-- The template of this history has an alias that is a replacement character. -/
def blotHistory : List Event := [.register (maid "�" "宠爱") "p"]

theorem typed_blot : TypedBy blotHistory maidCard (maid "�" "宠爱") :=
  ⟨rfl, "p", [], [], rfl, fun _ hmem => nomatch hmem⟩

/-- A script reads bytes that are no text as the alias that they look like; and once the global
function for metatables is another one, the aliases are gone. -/
theorem bytes_read_as_alias_and_unattached :
    (∃ t id, cardTable (State.start ⟨0, 0⟩) (after blotHistory).aliasTable maidCard = .ok (t, id) ∧
      (∀ f ∈ (maid "�" "宠爱").fields, f.alias.toUTF8 ≠ ⟨#[255]⟩) ∧
      ReadAs t id ⟨#[255]⟩ (.int 5)) ∧
    ∃ t id, cardTable ((State.start ⟨0, 0⟩).rawSet State.globals (.ofString "setmetatable")
        (.builtin .type)) (after maidHistory).aliasTable maidCard = .ok (t, id) ∧
      Reads maidHistory maidCard "Favor".toUTF8 (.int 5) ∧ ReadAs t id "Favor".toUTF8 .nil := by
  constructor
  · obtain ⟨t, id, hcard, -, hat⟩ := @cardAt_cardTable (State.start ⟨0, 0⟩) (attaches_start _)
      (after blotHistory).aliasTable maidCard (by decide +kernel)
    have hother : ∀ field ∈ maidCard, (⟨#[255]⟩ : Bytes) ≠ field.1.toUTF8 := by decide +kernel
    have hlacks : Lacks maidCard ⟨#[255]⟩ := fun name v heq hfound =>
      absurd heq (hother (name, v) (KeyTable.mem_of_find? hfound))
    have hdisplay : (maid "�" "宠爱").display? (Value.textOf ⟨#[255]⟩) = some "宠爱" := by
      decide +kernel
    obtain ⟨x, hx, hread⟩ := hat.reads (.aliased hlacks typed_blot hdisplay)
    have hfive : x = .int 5 := MadeFrom.eq_five hx
    exact ⟨t, id, hcard, by decide +kernel, hfive ▸ hread⟩
  · have hsize : State.globals < (State.start ⟨0, 0⟩).tables.size := by decide
    have hglobal := (globalValue_rawSet hsize "setmetatable" "setmetatable" (.builtin .type)).trans
      (if_pos rfl)
    have hmap : (after maidHistory).aliasTable.ofCard maidCard =
        some (maid "Favor" "宠爱").aliases := ofCard_of_typed typed_maid
    have hdisplay : (maid "Favor" "宠爱").display? (Value.textOf "Favor".toUTF8) = some "宠爱" := by
      decide +kernel
    obtain ⟨t, id, hcard, hread⟩ := unattached_maid hglobal rfl rfl hmap
    exact ⟨t, id, hcard, .aliased (lacks_of_find? rfl) typed_maid hdisplay, hread⟩

end DiceHost.Engine
